import IrohBle.Lib.Map
import IrohBle.Reliable.Channel
import Mathlib.Algebra.Group.Nat.Defs
import Mathlib.Data.Finset.Basic

/-! # Peer: entries, phases, commands and actions

The data of `transport/peer.rs` and the tie-breaking rules of
`transport/dedup.rs`.

* A `DeviceId` is a platform string; the registry compares it and, in one tie
  break, orders it.
* Channel ends, clocks, wakers and L2CAP channels are owned by the runtime; the
  registry only passes them on, so each is a number that names it.
* Lifecycle ids, generations and counters are natural numbers. The source
  panics when the `u64` lifecycle counter is exhausted.
-/

namespace IrohBle

open Lib Reliable

abbrev DeviceId := String

/-- The receiving side of a channel, a clock, a waker, an L2CAP channel or a GATT
characteristic, by name. -/
abbrev Sender := ℕ
abbrev LivenessClock := ℕ
abbrev Waker := ℕ
abbrev L2capChannel := ℕ
abbrev Uuid := ℕ

/-- The capacities of the two channels the driver makes for a data pipe: datagrams on their
way to the pipe, and received fragments. -/
def outboundCapacity : ℕ := 32
def inboundCapacity : ℕ := 64

/-- The capacity of the channel on which a data pipe forwards datagrams to one of its workers. -/
def forwardCapacity : ℕ := 32

/-- `Duration::from_secs`. -/
def secs (n : ℕ) : ℕ := millis (n * 1000)

def keyPrefixLen : ℕ := 12

/-- The advertised part of an endpoint id. -/
structure KeyPrefix where
  bytes : Bytes
  length_eq : bytes.length = keyPrefixLen
deriving DecidableEq

/-- An ed25519 public key, compared byte by byte. -/
structure EndpointId where
  bytes : Bytes
  length_eq : bytes.length = 32
deriving DecidableEq

/-- The endpoints of the concrete runs, in the order of their keys. -/
def localEndpoint : EndpointId := ⟨List.replicate 32 7, List.length_replicate⟩
def otherEndpoint : EndpointId := ⟨List.replicate 32 8, List.length_replicate⟩
def peerEndpoint : EndpointId := ⟨List.replicate 32 9, List.length_replicate⟩

/-- The first `keyPrefixLen` bytes of the key, which a peer advertises. -/
def prefixFromEndpoint (endpoint : EndpointId) : KeyPrefix where
  bytes := endpoint.bytes.take keyPrefixLen
  length_eq := by simp [endpoint.length_eq, keyPrefixLen]

/-- Which way a GATT fragment came: over a link this side dialled, or from a central that dialled
it. -/
inductive FragmentSource where
  | centralReceivedP2c
  | peripheralReceivedC2p
deriving DecidableEq, Repr

/-- The side of a link. The central dialled it. -/
inductive ConnectRole where
  | central
  | peripheral
deriving DecidableEq, Repr

/-- What carries the session: an L2CAP channel, or the characteristics of the GATT service. -/
inductive ConnectPath where
  | l2cap
  | gatt
deriving DecidableEq, Repr

/-- Why a pipe ended: its link died, or this side hung it up. -/
inductive StallCause where
  | linkDead
  | localClose
deriving DecidableEq, Repr

/-- `blew::DisconnectCause`; `other` is a cause this version of the code does not
know. -/
inductive DisconnectCause where
  | localClose
  | remoteClose
  | linkLoss
  | adapterOff
  | gatt133
  | timeout
  | unknown (code : Int)
  | other
deriving DecidableEq, Repr

/-- Why an entry drains. `DisconnectCause` is what the radio reports, this is what the registry
made of it. -/
inductive DisconnectReason where
  | localClose
  | remoteClose
  | linkLoss
  | adapterOff
  | gatt133
  | timeout
  | linkDead
  | protocolMismatch
  | dedupLoser
  | unknown (code : Int)
deriving DecidableEq, Repr

/-- `DisconnectReason::from`. -/
def DisconnectReason.ofCause : DisconnectCause → DisconnectReason
  | .localClose => .localClose
  | .remoteClose => .remoteClose
  | .linkLoss => .linkLoss
  | .adapterOff => .adapterOff
  | .gatt133 => .gatt133
  | .timeout => .timeout
  | .unknown c => .unknown c
  | .other => .unknown (-1)

/-- The derived `Debug` text. -/
def DisconnectReason.debug : DisconnectReason → String
  | .localClose => "LocalClose"
  | .remoteClose => "RemoteClose"
  | .linkLoss => "LinkLoss"
  | .adapterOff => "AdapterOff"
  | .gatt133 => "Gatt133"
  | .timeout => "Timeout"
  | .linkDead => "LinkDead"
  | .protocolMismatch => "ProtocolMismatch"
  | .dedupLoser => "DedupLoser"
  | .unknown c => "Unknown(" ++ toString c ++ ")"

/-- Why an entry is dead. An advertisement revives it after `maxRetries` and `drained` only. -/
inductive DeadReason where
  | maxRetries
  | drained
  | protocolMismatch (got want : UInt8)
  | forgotten
deriving DecidableEq, Repr

/-- The open session of an entry. -/
structure ChannelHandle where
  id : ℕ
  path : ConnectPath
deriving DecidableEq, Repr

/-- Where the life of an entry stands. Times are readings of the registry's clock, and a phase
with a deadline carries what the next `Tick` compares with it. -/
inductive PeerPhase where
  | unknown
  | discovered (since : ℕ)
  | pendingDial (since deadline : ℕ) (keyPrefix : KeyPrefix)
  | connecting (attempt started : ℕ) (path : ConnectPath)
  | handshaking (since : ℕ) (channel : ChannelHandle)
  | connected (since : ℕ) (channel : ChannelHandle) (txGen : ℕ) (upgrading : Bool)
  | draining (since : ℕ) (reason : DisconnectReason)
  | reconnecting (attempt nextAt : ℕ) (reason : DisconnectReason)
  | dead (reason : DeadReason) (diedAt : ℕ)
  | restoring (since : ℕ)
deriving DecidableEq

/-- `PhaseKind`, as far as the handlers test it. -/
def PeerPhase.isConnected : PeerPhase → Bool
  | .connected .. => true
  | _ => false

def PeerPhase.isConnecting : PeerPhase → Bool
  | .connecting .. => true
  | _ => false

def PeerPhase.isHandshaking : PeerPhase → Bool
  | .handshaking .. => true
  | _ => false

def PeerPhase.isDead : PeerPhase → Bool
  | .dead .. => true
  | _ => false

/-- A tombstone that a fresh advertisement outranks. -/
def PeerPhase.isRevivable : PeerPhase → Bool
  | .dead .maxRetries _ => true
  | .dead .drained _ => true
  | _ => false

/-- The channel a `Connected` or `Handshaking` phase holds. -/
def PeerPhase.channel? : PeerPhase → Option ChannelHandle
  | .connected _ channel _ _ => some channel
  | .handshaking _ channel => some channel
  | _ => none

/-- The registry's ends of a data pipe. -/
structure PipeHandles where
  outboundTx : Sender
  inboundTx : Sender
  swapTx : Sender
  lastRxAt : LivenessClock
deriving DecidableEq, Repr

/-- A datagram that waits for its pipe, with the sender to be told about it. -/
structure PendingSend where
  txGen : ℕ
  datagram : Bytes
  waker : Waker
deriving DecidableEq, Repr

/-- `PeerEntry`; `last_tx`, which nothing writes or reads, is left out. -/
structure PeerEntry where
  deviceId : DeviceId
  phase : PeerPhase := .unknown
  lastAdv : Option ℕ := none
  lastRx : Option ℕ := none
  consecutiveFailures : ℕ := 0
  txGen : ℕ := 0
  lifecycleId : ℕ := 0
  upgradeGen : ℕ := 0
  pendingSends : List PendingSend := []
  role : ConnectRole := .central
  pipe : Option PipeHandles := none
  rxBacklog : List Bytes := []
  l2capChannel : Option L2capChannel := none
  subscribedChars : Finset Uuid := ∅
  keyPrefix : Option KeyPrefix := none
  targetEndpoint : Option EndpointId := none
  verifiedEndpoint : Option EndpointId := none
  verifiedAt : Option ℕ := none
  l2capUpgradeFailed : Bool := false
  verifiedLiveSuppressedLogged : Bool := false
  resumeAfterDrain : Bool := false
deriving DecidableEq

/-- Everything the actor's inbox can hold: what the radio and the links report, what `poll_send`
and the dedup hook ask for, and the ticks. -/
inductive PeerCommand where
  | advertised (keyPrefix : KeyPrefix) (deviceId : DeviceId) (rssi : Option Int)
  | centralConnected (deviceId : DeviceId)
  | centralDisconnected (deviceId : DeviceId) (cause : DisconnectCause)
  | inboundGattFragment (deviceId : DeviceId) (source : FragmentSource) (bytes : Bytes)
  | inboundL2capChannel (deviceId : DeviceId) (channel : L2capChannel)
  | adapterStateChanged (powered : Bool)
  | sendDatagram (deviceId : DeviceId) (targetEndpoint : Option EndpointId) (txGen : ℕ)
      (datagram : Bytes) (waker : Waker)
  | tick (now : ℕ)
  | connectSucceeded (deviceId : DeviceId) (lifecycleId : ℕ) (channel : ChannelHandle)
  | connectFailed (deviceId : DeviceId) (lifecycleId : ℕ) (error : String)
  | openL2capSucceeded (deviceId : DeviceId) (lifecycleId upgradeGen : ℕ) (channel : L2capChannel)
  | openL2capFailed (deviceId : DeviceId) (lifecycleId upgradeGen : ℕ) (error : String)
  | protocolVersionMismatch (deviceId : DeviceId) (lifecycleId : ℕ) (got want : UInt8)
  | stalled (deviceId : DeviceId) (cause : StallCause)
  | forget (deviceId : DeviceId)
  | dataPipeReady (deviceId : DeviceId) (txGen : ℕ) (handles : PipeHandles)
  | verifiedEndpoint (endpointId : EndpointId) (token : Option ℕ)
  | peripheralClientSubscribed (clientId : DeviceId) (charUuid : Uuid) (keyPrefix : Option KeyPrefix)
  | peripheralClientUnsubscribed (clientId : DeviceId) (charUuid : Uuid)
  | l2capHandoverTimeout (deviceId : DeviceId)
  | shutdown
deriving DecidableEq

/-- A command in the inbox, with the pipe it was sent for where it was sent for one: the
command itself names only a device. -/
structure Letter (π : Type) where
  cmd : PeerCommand
  pipe : Option π := none
deriving DecidableEq

/-- The `std::io::ErrorKind`s a send is answered with. -/
inductive ErrorKind where
  | wouldBlock
  | connectionAborted
  | brokenPipe
deriving DecidableEq, Repr

/-- What a sender is told. -/
inductive SendResult where
  | ok
  | err (kind : ErrorKind)
deriving DecidableEq, Repr

/-- What the peer store keeps of a device across restarts. -/
structure PeerSnapshot where
  lastDeviceId : String
  lastSeen : ℕ
deriving DecidableEq, Repr

/-- What a handler asks the driver to do, in the order in which the driver carries it out. -/
inductive PeerAction where
  | startConnect (deviceId : DeviceId) (attempt lifecycleId : ℕ)
  | readVersion (deviceId : DeviceId) (lifecycleId : ℕ)
  | retireLifecycle (deviceId : DeviceId) (lifecycleId : ℕ)
  | closeChannel (deviceId : DeviceId) (lifecycleId : ℕ) (channel : ChannelHandle)
      (reason : DisconnectReason)
  | closeNativeConnection (deviceId : DeviceId) (lifecycleId : ℕ)
  | refresh (deviceId : DeviceId) (lifecycleId : ℕ)
  | ackSend (txGen : ℕ) (waker : Waker) (result : SendResult)
  | restorePeripheral (restartL2cap : Bool)
  | restartScan
  | startDataPipe (deviceId : DeviceId) (lifecycleId txGen : ℕ) (role : ConnectRole)
      (targetEndpoint : Option EndpointId) (path : ConnectPath) (l2capChannel : Option L2capChannel)
  | upgradeToL2cap (deviceId : DeviceId) (lifecycleId upgradeGen : ℕ)
  | swapPipeToL2cap (deviceId : DeviceId) (channel : L2capChannel) (swapTx : Sender)
  | putPeerStore (keyPrefix : KeyPrefix) (snapshot : PeerSnapshot)
  | forgetPeerStore (keyPrefix : KeyPrefix)
  | emitMetric (name : String)
deriving DecidableEq

def PeerAction.isStartDataPipe : PeerAction → Bool
  | .startDataPipe .. => true
  | _ => false

/-! ## Which of two connections to keep -/

/-- The lower side waits for the higher one to dial first, by a window and a jitter that depends
on the prefix. -/
def fairnessWindow : ℕ := millis 800
def fairnessJitter : ℕ := millis 150
def l2capHandoverTimeout : ℕ := secs 1

/-- The connection dialled by the higher endpoint is the one to keep. -/
def shouldWin (thisRole : ConnectRole) (myEndpoint peerEndpoint : EndpointId) : Bool :=
  if myEndpoint.bytes < peerEndpoint.bytes then thisRole == .peripheral else thisRole == .central

/-- Only the central side of the winner opens the L2CAP channel. -/
def shouldDialL2cap (thisRole : ConnectRole) (myEndpoint peerEndpoint : EndpointId) : Bool :=
  thisRole == .central && shouldWin thisRole myEndpoint peerEndpoint

/-- Whether sessions are moved from GATT to L2CAP. -/
inductive L2capPolicy where
  | disabled
  | preferL2cap
deriving DecidableEq, Repr

inductive BleAdapterState where
  | poweredOn
  | poweredOff
deriving DecidableEq, Repr

end IrohBle
