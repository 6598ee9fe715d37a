import IrohBle.Lib.System
import IrohBle.Registry.Entry
import Mathlib.Data.String.Basic

/-! # Registry.Handle: the registry and `Registry::handle`

`Turn` is what a handler of `transport/registry.rs` works on: the registry and the
actions pushed so far. A handler looks an entry up, or inserts a fresh one
(`ensure`), and runs a function of `Registry.Entry` on it (`edit`).

* `peers` is a hash map, so a handler that walks over all entries does so in an
  order the code does not choose. The order of the association list stands for
  it, and `system` may reorder the entries before any command.
* `my_prefix` is a function of `my_endpoint`. The adapter-state watch channel is
  left out.
-/

namespace IrohBle

open Lib Reliable

/-- The actor's state: the peers, the identities that are verified, and the next lifecycle id. -/
structure Registry where
  peers : Map DeviceId PeerEntry
  nextLifecycle : ℕ
  l2capPolicy : L2capPolicy
  verifiedPrefixes : Map KeyPrefix EndpointId
  myEndpoint : EndpointId
  adapterState : BleAdapterState

/-- The registry while a command is handled, with the actions and the `try_send`s so
far. -/
structure Turn where
  reg : Registry
  actions : List PeerAction
  tried : List TrySend

namespace Registry

def new (l2capPolicy : L2capPolicy) (myEndpoint : EndpointId) : Registry :=
  ⟨∅, 1, l2capPolicy, ∅, myEndpoint, .poweredOn⟩

def myPrefix (r : Registry) : KeyPrefix := prefixFromEndpoint r.myEndpoint

def peer (r : Registry) (d : DeviceId) : Option PeerEntry := r.peers.lookup d

def newEntry (nextLifecycle : ℕ) (d : DeviceId) : PeerEntry :=
  { deviceId := d, lifecycleId := nextLifecycle }

/-- The entry carries the prefix and is `Connected`. -/
def liveFor (p : KeyPrefix) (e : PeerEntry) : Bool :=
  decide (e.keyPrefix = some p) && e.phase.isConnected

def connectedForPrefix (r : Registry) (p : KeyPrefix) : ℕ :=
  r.peers.values.countP (liveFor p)

def shouldEmitL2capUpgrade (connectedForPrefix : ℕ) (role : ConnectRole)
    (myEndpoint peerEndpoint : EndpointId) : Bool :=
  if connectedForPrefix ≤ 1 then role == .central else shouldDialL2cap role myEndpoint peerEndpoint

end Registry

namespace Turn

open Registry

def start (r : Registry) : Turn := ⟨r, [], []⟩

def push (a : PeerAction) (t : Turn) : Turn := { t with actions := t.actions ++ [a] }

/-- Borrow an entry. -/
def focus (t : Turn) (e : PeerEntry) : Edit := ⟨e, t.reg.nextLifecycle, t.actions, t.tried⟩

/-- Give the borrowed entry of `d` back. -/
def store (d : DeviceId) (w : Edit) (t : Turn) : Turn :=
  { reg := { t.reg with
      peers := t.reg.peers.replace d w.entry
      nextLifecycle := w.nextLifecycle }
    actions := w.actions
    tried := w.tried }

/-- Run `f` on the entry of `d`, if there is one. -/
def edit (d : DeviceId) (f : Edit → Edit) (t : Turn) : Turn :=
  match t.reg.peer d with
  | none => t
  | some e => t.store d (f (t.focus e))

def insertNew (d : DeviceId) (t : Turn) : Turn :=
  { t with reg := { t.reg with
      peers := t.reg.peers.insert d (newEntry t.reg.nextLifecycle d)
      nextLifecycle := t.reg.nextLifecycle + 1 } }

/-- `peers.entry(d).or_insert_with(new_entry)`. -/
def ensure (d : DeviceId) (t : Turn) : Turn :=
  match t.reg.peer d with
  | some _ => t
  | none => t.insertNew d

/-- Edit several entries, one after another. -/
def editAll (ds : List DeviceId) (f : Edit → Edit) (t : Turn) : Turn :=
  ds.foldl (fun t d => t.edit d f) t

/-- Record a verified prefix. -/
def verify (p : KeyPrefix) (endpoint : EndpointId) (t : Turn) : Turn :=
  { t with reg := { t.reg with verifiedPrefixes := t.reg.verifiedPrefixes.insert p endpoint } }

/-- Forget the verified prefixes that no entry outside `Dead` vouches for. -/
def pruneVerifiedPrefixes (t : Turn) : Turn :=
  { t with reg := { t.reg with
      verifiedPrefixes := t.reg.verifiedPrefixes.retain fun _ endpoint =>
        t.reg.peers.values.any fun e =>
          decide (e.verifiedEndpoint = some endpoint) && !e.phase.isDead } }

/-- Drop the entries whose tombstone has expired. -/
def gcDead (tickNow : ℕ) (t : Turn) : Turn :=
  { t with reg := { t.reg with
      peers := t.reg.peers.retain fun _ e =>
        match e.phase with
        | .dead _ diedAt => !decide (tickNow - diedAt > deadGcTtl)
        | _ => true } }

def setAdapterState (state : BleAdapterState) (t : Turn) : Turn :=
  { t with reg := { t.reg with adapterState := state } }

/-- The devices whose entries satisfy `p`, in iteration order. -/
def devicesWhere (t : Turn) (p : PeerEntry → Bool) : List DeviceId :=
  (t.reg.peers.entries.filter fun x => p x.2).map Sigma.fst

/-! ## Verified endpoints -/

/-- `(since, did.to_string())` of a `Connected` entry. -/
def connectedKey (t : Turn) (now : ℕ) (d : DeviceId) : ℕ × String :=
  match (t.reg.peer d).map PeerEntry.phase with
  | some (.connected since _ _ _) => (since, d)
  | _ => (now, d)

/-- `max_by_key`: of equal keys the last one. -/
def latestConnected (t : Turn) (now : ℕ) (ds : List DeviceId) : Option DeviceId :=
  ds.foldl (fun best d =>
    match best with
    | none => some d
    | some b =>
      let kb := t.connectedKey now b
      let kd := t.connectedKey now d
      if kb.1 < kd.1 ∨ kb.1 = kd.1 ∧ kb.2 ≤ kd.2 then some d else some b) none

/-- The candidate the dedup rule keeps. -/
def dedupWinner (t : Turn) (now : ℕ) (endpoint : EndpointId) (candidates : List DeviceId) :
    Option DeviceId :=
  match candidates.find? fun d =>
      (t.reg.peer d).any fun e => shouldWin e.role t.reg.myEndpoint endpoint with
  | some d => some d
  | none => t.latestConnected now candidates

/-- Stamp the entry of the pipe that carried the handshake, then every entry with the
prefix. -/
def stampVerified (io : Io) (endpoint : EndpointId) (exact : Option DeviceId) (t : Turn) : Turn :=
  let t := match exact with
    | some d => t.edit d (Edit.stampExact io.now endpoint)
    | none => t
  t.editAll (t.devicesWhere fun e => decide (e.keyPrefix = some (prefixFromEndpoint endpoint)))
    (Edit.stampVerified io.now endpoint)

/-- The entry waits out the fairness window for this prefix. -/
def isPendingDialFor (p : KeyPrefix) (e : PeerEntry) : Bool :=
  match e.phase with
  | .pendingDial _ _ q => decide (q = p)
  | _ => false

/-- A verified peer need not be dialled any more. -/
def cancelPendingDials (io : Io) (p : KeyPrefix) (t : Turn) : Turn :=
  t.editAll (t.devicesWhere (isPendingDialFor p))
    (Edit.drainToDraining io.now io.systemNow .dedupLoser)

/-- Of several live connections of the prefix, drain all but one. -/
def drainLosers (io : Io) (endpoint : EndpointId) (t : Turn) : Turn :=
  let candidates := t.devicesWhere (liveFor (prefixFromEndpoint endpoint))
  if candidates.length ≥ 2 then
    let winner := t.dedupWinner io.now endpoint candidates
    t.editAll (candidates.filter fun d => decide (some d ≠ winner))
      (Edit.drainToDraining io.now io.systemNow .dedupLoser)
  else t

/-- On GATT, with no upgrade under way. -/
def isUpgradable (phase : PeerPhase) : Bool :=
  match phase with
  | .connected _ ⟨_, .gatt⟩ _ false => true
  | _ => false

/-- With the peer authenticated, the session that is left may move to L2CAP. -/
def requestUpgrades (endpoint : EndpointId) (t : Turn) : Turn :=
  let p := prefixFromEndpoint endpoint
  if t.reg.l2capPolicy = .preferL2cap then
    let n := t.reg.connectedForPrefix p
    t.editAll (t.devicesWhere fun e =>
      decide (e.keyPrefix = some p) && !e.l2capUpgradeFailed &&
        shouldEmitL2capUpgrade n e.role t.reg.myEndpoint endpoint && isUpgradable e.phase)
      Edit.requestUpgrade
  else t

/-- The dedup pass: stamp who has authenticated, stop dials that are not needed any more, drain
the links that lose, and ask for the upgrade. -/
def handleVerifiedEndpoint (io : Io) (endpoint : EndpointId) (exact : Option DeviceId)
    (t : Turn) : Turn :=
  let p := prefixFromEndpoint endpoint
  ((((t.verify p endpoint).stampVerified io endpoint exact).cancelPendingDials io p).drainLosers io
    endpoint).requestUpgrades endpoint

/-! ## The other handlers -/

/-- A central subscribes, and brings the identity that its prefix is known under. -/
def handlePeripheralClientSubscribed (io : Io) (d : DeviceId) (charUuid : Uuid)
    (keyPrefix : Option KeyPrefix) (t : Turn) : Turn :=
  let verified := keyPrefix.bind fun p => t.reg.verifiedPrefixes.lookup p
  (t.ensure d).edit d (Edit.peripheralClientSubscribed io.now charUuid keyPrefix verified)

/-- A central unsubscribes. -/
def handlePeripheralClientUnsubscribed (io : Io) (d : DeviceId) (charUuid : Uuid)
    (t : Turn) : Turn :=
  match t.reg.peer d with
  | none => t
  | some e =>
    let t' := t.edit d (Edit.peripheralClientUnsubscribed io.now io.systemNow charUuid)
    -- the early return skips the pruning
    if e.role ≠ .peripheral ∨ ¬ (e.phase.isConnected ∨ e.phase.isHandshaking) ∨
        e.subscribedChars.erase charUuid ≠ ∅ then t'
    else t'.pruneVerifiedPrefixes

/-- An entry that comes back from its tombstone keeps its proven identity. -/
def restoreVerified (p : KeyPrefix) (resurrected : Option EndpointId) (t : Turn) : Turn :=
  match resurrected with
  | some endpoint => if prefixFromEndpoint endpoint = p then t.verify p endpoint else t
  | none => t

/-- A device is seen. While an entry verified for its prefix is live nothing is started; otherwise
the lower side waits for the fairness window before it dials a peer it does not know yet. -/
def handleAdvertised (io : Io) (p : KeyPrefix) (d : DeviceId) (t : Turn) : Turn :=
  let verifiedAs := fun e : PeerEntry => e.verifiedEndpoint.any fun id =>
    decide (prefixFromEndpoint id = p)
  let hasVerifiedLive := t.reg.peers.values.any fun e => verifiedAs e && e.phase.isConnected
  let verifiedBefore := t.reg.peers.values.any verifiedAs
  let iAmLower := decide (t.reg.myPrefix.bytes < p.bytes)
  let alreadyVerified := verifiedBefore || (t.reg.verifiedPrefixes.lookup p).isSome
  -- of two devices with this prefix we leave the dial to the lower side, unless we know it
  let deferPrefix := if iAmLower && !alreadyVerified then some p else none
  if hasVerifiedLive then t.edit d (Edit.advertisedSuppressed io.now p)
  else
    let t := t.ensure d
    -- an entry that is revived keeps whom it was verified as
    let resurrected := (t.reg.peer d).bind fun e =>
      if e.phase.isRevivable then e.verifiedEndpoint else none
    (t.edit d (Edit.advertised io.now p deferPrefix)).restoreVerified p resurrected

/-- Creates the entry if the device is unknown. -/
def handleSendDatagram (io : Io) (d : DeviceId) (target : Option EndpointId) (send : PendingSend)
    (t : Turn) : Turn :=
  (t.ensure d).edit d (Edit.sendDatagram io target send)

/-- Whether a dial that has just succeeded goes on to open an L2CAP channel. -/
def wantsUpgrade (t : Turn) (d : DeviceId) (e : PeerEntry) : Bool :=
  match (t.reg.peer d).bind PeerEntry.keyPrefix with
  | none => false
  | some p =>
    match t.reg.verifiedPrefixes.lookup p with
    | none => false
    | some endpoint =>
      decide (t.reg.l2capPolicy = .preferL2cap) && !e.l2capUpgradeFailed &&
        shouldEmitL2capUpgrade (t.reg.connectedForPrefix p + 1) e.role t.reg.myEndpoint endpoint

/-- The dial has a session. Whether it waits for an upgrade first is decided over the whole map.
-/
def handleConnectSucceeded (io : Io) (d : DeviceId) (lifecycleId : ℕ) (channel : ChannelHandle)
    (t : Turn) : Turn :=
  t.edit d (Edit.connectSucceeded io.now lifecycleId channel (t.wantsUpgrade d))

/-- `prune_verified_prefixes` where the entry has just become `Dead { MaxRetries }`. -/
def pruneIfGivenUp (d : DeviceId) (before : Option PeerEntry) (t : Turn) : Turn :=
  match before.map PeerEntry.phase, (t.reg.peer d).map PeerEntry.phase with
  | some (.connecting ..), some (.dead .maxRetries _) => t.pruneVerifiedPrefixes
  | _, _ => t

/-- A failed dial, which may give the entry up. -/
def handleConnectFailed (io : Io) (d : DeviceId) (lifecycleId : ℕ) (error : String)
    (t : Turn) : Turn :=
  (t.edit d (Edit.connectFailed io.now lifecycleId error)).pruneIfGivenUp d (t.reg.peer d)

/-- A device without an entry gets one by its fragment. -/
def handleInboundGattFragment (io : Io) (d : DeviceId) (source : FragmentSource) (bytes : Bytes)
    (t : Turn) : Turn :=
  match t.reg.peer d with
  | none => (t.ensure d).edit d (Edit.inboundGattFragmentFresh io.now bytes)
  | some _ => t.edit d (Edit.inboundGattFragment io source bytes)

/-- A link broke, which may give the entry up. -/
def handleCentralDisconnected (io : Io) (d : DeviceId) (cause : DisconnectCause) (t : Turn) : Turn :=
  (t.edit d (Edit.centralDisconnected io.now io.systemNow cause)).pruneIfGivenUp d (t.reg.peer d)

/-- The adapter's state, and with it every entry. A radio that comes back is told to scan and to
serve again. -/
def handleAdapterStateChanged (io : Io) (powered : Bool) (t : Turn) : Turn :=
  if powered then
    let t := t.setAdapterState .poweredOn
    let t := t.editAll t.reg.peers.keys (Edit.adapterOn io.now)
    (t.push (.restorePeripheral (decide (t.reg.l2capPolicy = .preferL2cap)))).push .restartScan
  else
    let t := t.setAdapterState .poweredOff
    t.editAll t.reg.peers.keys (Edit.adapterOff io.now)

/-- All decisions are taken on the registry as it is before the tick. -/
def handleTick (io : Io) (tickNow : ℕ) (t : Turn) : Turn :=
  let decisions := t.reg.peers.entries.filterMap fun x =>
    (Edit.tickDecision io tickNow x.2).map fun a => (x.1, a)
  let t := decisions.foldl (fun t x => t.edit x.1 (Edit.tickApply tickNow io.systemNow x.2)) t
  (t.gcDead tickNow).pruneVerifiedPrefixes

/-- Forgets one device. -/
def handleForget (io : Io) (d : DeviceId) (t : Turn) : Turn :=
  match t.reg.peer d with
  | none => t
  | some _ => (t.edit d (Edit.forget io.now)).pruneVerifiedPrefixes

/-- Names a device and not a pipe: it hits whatever session the device has by now. -/
def handleStalled (io : Io) (d : DeviceId) (cause : StallCause) (t : Turn) : Turn :=
  t.edit d (Edit.stalled io.now io.systemNow cause)

/-- The last thing the actor does. -/
def handleShutdown (t : Turn) : Turn := t.editAll t.reg.peers.keys Edit.shutdown

/-- The driver's answer to `StartDataPipe`. -/
def handleDataPipeReady (io : Io) (d : DeviceId) (txGen : ℕ) (handles : PipeHandles)
    (t : Turn) : Turn :=
  t.edit d (Edit.dataPipeReady io txGen handles)

/-- A device without an entry gets one by its channel. -/
def handleInboundL2capChannel (io : Io) (d : DeviceId) (channel : L2capChannel) (t : Turn) : Turn :=
  match t.reg.peer d with
  | none => (t.ensure d).edit d (Edit.inboundL2capChannelFresh io.now channel)
  | some _ => t.edit d (Edit.inboundL2capChannel io.now channel)

/-- The version that a dial has read is not this side's. -/
def handleProtocolVersionMismatch (io : Io) (d : DeviceId) (lifecycleId : ℕ) (got want : UInt8)
    (t : Turn) : Turn :=
  match t.reg.peer d with
  | none => t
  | some e =>
    if e.lifecycleId ≠ lifecycleId then t
    else
      (t.edit d (Edit.protocolVersionMismatch io.now io.systemNow lifecycleId got
        want)).pruneVerifiedPrefixes

end Turn

namespace Registry

open Turn

/-- `Registry::handle`, one arm for each command. -/
def handle (io : Io) (cmd : PeerCommand) (r : Registry) : Turn :=
  let t := start r
  match cmd with
  | .advertised p d _ => t.handleAdvertised io p d
  | .sendDatagram d target txGen datagram waker =>
    t.handleSendDatagram io d target ⟨txGen, datagram, waker⟩
  | .connectSucceeded d lifecycleId channel => t.handleConnectSucceeded io d lifecycleId channel
  | .connectFailed d lifecycleId error => t.handleConnectFailed io d lifecycleId error
  | .inboundGattFragment d source bytes => t.handleInboundGattFragment io d source bytes
  | .centralDisconnected d cause => t.handleCentralDisconnected io d cause
  | .adapterStateChanged powered => t.handleAdapterStateChanged io powered
  | .tick tickNow => t.handleTick io tickNow
  | .forget d => t.handleForget io d
  | .stalled d cause => t.handleStalled io d cause
  | .shutdown => t.handleShutdown
  | .dataPipeReady d txGen handles => t.handleDataPipeReady io d txGen handles
  | .openL2capSucceeded d lifecycleId upgradeGen channel =>
    t.edit d (Edit.openL2capSucceeded io.now lifecycleId upgradeGen channel)
  | .openL2capFailed d lifecycleId upgradeGen error =>
    t.edit d (Edit.openL2capFailed io.now lifecycleId upgradeGen error)
  | .inboundL2capChannel d channel => t.handleInboundL2capChannel io d channel
  | .centralConnected _ => t
  | .protocolVersionMismatch d lifecycleId got want =>
    t.handleProtocolVersionMismatch io d lifecycleId got want
  | .verifiedEndpoint endpoint _ => t.handleVerifiedEndpoint io endpoint none
  | .peripheralClientSubscribed d charUuid keyPrefix =>
    t.handlePeripheralClientSubscribed io d charUuid keyPrefix
  | .peripheralClientUnsubscribed d charUuid => t.handlePeripheralClientUnsubscribed io d charUuid
  | .l2capHandoverTimeout d => t.edit d Edit.l2capHandoverTimeout

/-! ## Runs of the registry -/

/-- A run of the registry takes commands and, between them, may find the hash map in another
order. -/
inductive Label where
  /-- The hash map iterates in another order from now on. -/
  | reorder (ks : List DeviceId)
  | command (io : Io) (cmd : PeerCommand)

def step : Label → Registry → Option Registry
  | .reorder ks, r => if ks.Perm r.peers.keys then some { r with peers := r.peers.reorder ks } else none
  | .command io cmd, r => some (handle io cmd r).reg

/-- Any sequence of commands, from `Registry::new`. -/
def system : System Registry Label where
  Init r := ∃ l2capPolicy myEndpoint, r = new l2capPolicy myEndpoint
  step := step

end Registry

end IrohBle
