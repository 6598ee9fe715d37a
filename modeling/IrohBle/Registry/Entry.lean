import IrohBle.Peer

/-! # Registry.Entry: what the handlers do to one entry

The part of `transport/registry.rs` that works on a single `PeerEntry`. The source
passes `&mut next_lifecycle`, `&mut actions` and the borrowed entry; here they are
the record `Edit`, and every function is an `Edit → Edit`.

* `Io` is what a handler reads from outside: the clocks, and the outcome of each
  `try_send` on a pipe's channel. The attempts are recorded in `tried`, so that a
  system that owns the channels can say which outcomes are possible and what
  has been put into them.
* Log lines are left out.
-/

namespace IrohBle

open Lib Reliable

/-- What `try_send` on a pipe's channel returns. -/
inductive TrySendResult where
  | ok
  | full
  | closed
deriving DecidableEq, Repr

/-- A `try_send` on a channel of a pipe, with its outcome. -/
inductive TrySend where
  | outbound (tx : Sender) (send : PendingSend) (result : TrySendResult)
  | inbound (tx : Sender) (bytes : Bytes) (result : TrySendResult)
deriving DecidableEq, Repr

/-- What a handler reads from outside, and what its `try_send`s return. -/
structure Io where
  /-- `Instant::now`. -/
  now : ℕ
  /-- `SystemTime::now`. -/
  systemNow : ℕ
  /-- `LivenessClock::last`. -/
  last : LivenessClock → ℕ
  /-- The outcome of the `n`-th `try_send` made while handling the command. -/
  trySend : ℕ → TrySendResult

/-- What an entry-level function borrows mutably. -/
structure Edit where
  entry : PeerEntry
  nextLifecycle : ℕ
  actions : List PeerAction
  tried : List TrySend

/-- The limits and timeouts of `registry.rs`. -/
def maxConnectAttempts : ℕ := 15

/-- `DRAINING_TIMEOUT`. -/
def drainingTimeout : ℕ := secs 5

/-- `RESTORING_TIMEOUT`. -/
def restoringTimeout : ℕ := secs 120

/-- `DEAD_GC_TTL`. -/
def deadGcTtl : ℕ := secs 60

/-- `CONNECTED_IDLE_DEADLINE`. -/
def connectedIdleDeadline : ℕ := secs 45

/-- `RX_BACKLOG_CAP`. -/
def rxBacklogCap : ℕ := 16

/-- Doubles from half a second with every failed attempt, up to thirty seconds. -/
def reconnectBackoff (attempt : ℕ) : ℕ := min (millis (500 * 2 ^ min attempt 6)) (millis 30000)

/-- `now + FAIRNESS_WINDOW - FAIRNESS_JITTER` plus a jitter derived from the prefix. -/
def pendingDialDeadline (now : ℕ) (keyPrefix : KeyPrefix) : ℕ :=
  let jitterSpan := 2 * fairnessJitter
  let seed := (keyPrefix.bytes.zipIdx.map fun x => x.1.toNat * 2 ^ (x.2 % 8 * 8)).foldl
    (fun a b => (a + b) % 2 ^ 64) 0
  now + (fairnessWindow - fairnessJitter) + seed % jitterSpan

namespace Edit

/-- The primitive steps that the functions below are made of. -/
def push (a : PeerAction) (w : Edit) : Edit := { w with actions := w.actions ++ [a] }

/-- The entry is changed. -/
def modify (f : PeerEntry → PeerEntry) (w : Edit) : Edit := { w with entry := f w.entry }

/-- Its phase is changed. -/
def setPhase (phase : PeerPhase) (w : Edit) : Edit := w.modify fun e => { e with phase }

/-- A `try_send` is noted. -/
def attempted (t : TrySend) (w : Edit) : Edit := { w with tried := w.tried ++ [t] }

/-- The outcome of the next `try_send`. -/
def nextTry (io : Io) (w : Edit) : TrySendResult := io.trySend w.tried.length

/-! ## Lifecycles and dials -/

/-- Retire the entry's lifecycle and give it a fresh one. -/
def abandonOutstanding (w : Edit) : Edit :=
  { w with
    entry := { w.entry with lifecycleId := w.nextLifecycle, upgradeGen := 0 }
    nextLifecycle := w.nextLifecycle + 1
    actions := w.actions ++ [.retireLifecycle w.entry.deviceId w.entry.lifecycleId] }

/-- Orders a dial under a new lifecycle. Whatever was under way for the old one is abandoned. -/
def beginConnect (now attempt : ℕ) (w : Edit) : Edit :=
  let w := w.abandonOutstanding.setPhase (.connecting attempt now .gatt)
  w.push (.startConnect w.entry.deviceId attempt w.entry.lifecycleId)

/-- What an advertised entry does next: it waits for a datagram, dials at once, or dials after the
fairness window. -/
def armForDial (now : ℕ) (deferPrefix : Option KeyPrefix) (w : Edit) : Edit :=
  if w.entry.pendingSends.isEmpty then w.setPhase (.discovered now)
  else
    match deferPrefix with
    | some p => w.setPhase (.pendingDial now (pendingDialDeadline now p) p)
    | none => w.beginConnect now 0

/-- Leaves no trace of the session that ended. The pending sends stay. -/
def clearConnectionState (w : Edit) : Edit :=
  w.abandonOutstanding.modify fun e =>
    { e with
      consecutiveFailures := 0
      pipe := none
      l2capChannel := none
      l2capUpgradeFailed := false
      subscribedChars := ∅
      rxBacklog := []
      resumeAfterDrain := false
      verifiedLiveSuppressedLogged := false }

/-- A drained entry with datagrams that were sent meanwhile dials again. -/
def resumeDrainedEntry (now : ℕ) (w : Edit) : Edit :=
  w.clearConnectionState.armForDial now none

/-- Answer every queued send with an error. -/
def failPending (kind : ErrorKind) (w : Edit) : Edit :=
  { w with
    entry := { w.entry with pendingSends := [] }
    actions := w.actions ++
      w.entry.pendingSends.map fun send => .ackSend send.txGen send.waker (.err kind) }

/-- Every end of a session that the registry notices goes through here. -/
def drainToDraining (now systemNow : ℕ) (reason : DisconnectReason) (w : Edit) : Edit :=
  let wasConnected := w.entry.phase.isConnected
  let w := w.modify fun e => { e with pipe := none }
  -- the jobs of the old lifecycle go with it, and what was buffered fails
  let w := w.abandonOutstanding.modify fun e =>
    { e with resumeAfterDrain := false, l2capUpgradeFailed := false }
  let w := w.failPending .brokenPipe
  -- a peer that had a session is remembered under its device
  let w := match w.entry.keyPrefix with
    | some p => if wasConnected then w.push (.putPeerStore p ⟨w.entry.deviceId, systemNow⟩) else w
    | none => w
  w.setPhase (.draining now reason)

/-! ## Starting a pipe -/

/-- `tx_gen += 1` and enter `Connected` on `channel`. -/
def enterConnected (now : ℕ) (channel : ChannelHandle) (w : Edit) : Edit :=
  w.modify fun e =>
    { e with txGen := e.txGen + 1, phase := .connected now channel (e.txGen + 1) false }

/-- Orders a pipe for the session, under the generation that `enter_connected` has just made. -/
def startDataPipe (role : ConnectRole) (path : ConnectPath) (l2cap : Option L2capChannel)
    (w : Edit) : Edit :=
  w.push (.startDataPipe w.entry.deviceId w.entry.lifecycleId w.entry.txGen role
    w.entry.targetEndpoint path l2cap)

/-- `upgrading = true` where the entry is `Connected`. -/
def setUpgrading (upgrading : Bool) (w : Edit) : Edit :=
  match w.entry.phase with
  | .connected since channel txGen _ => w.setPhase (.connected since channel txGen upgrading)
  | _ => w

/-- Ask the driver to open an L2CAP channel. -/
def requestUpgrade (w : Edit) : Edit :=
  let w := (w.setUpgrading true).modify fun e => { e with upgradeGen := e.upgradeGen + 1 }
  w.push (.upgradeToL2cap w.entry.deviceId w.entry.lifecycleId w.entry.upgradeGen)

/-- A central has started a GATT session: the entry takes the peripheral's role, and whatever ran
before is displaced. -/
def restartPeripheralGattPipe (now : ℕ) (firstFragment : Option Bytes)
    (subscribedChar : Option Uuid) (w : Edit) : Edit :=
  let w := (w.modify fun e => { e with pipe := none }).abandonOutstanding
  let w := w.modify fun e =>
    { e with
      role := .peripheral
      subscribedChars := subscribedChar.elim ∅ singleton
      rxBacklog := e.rxBacklog ++ firstFragment.toList }
  (w.enterConnected now ⟨w.entry.txGen + 1, .gatt⟩).startDataPipe .peripheral .gatt none

/-! ## Verified identity -/

/-- The endpoint has authenticated over this device. -/
def stampVerified (now : ℕ) (endpoint : EndpointId) (w : Edit) : Edit :=
  w.modify fun e => { e with verifiedEndpoint := some endpoint, verifiedAt := some now }

/-- The entry whose pipe carried the handshake learns its prefix too. -/
def stampExact (now : ℕ) (endpoint : EndpointId) (w : Edit) : Edit :=
  (w.modify fun e => { e with keyPrefix := some (prefixFromEndpoint endpoint) }).stampVerified
    now endpoint

/-! ## Peripheral clients -/

/-- What a subscription tells about the client. -/
def noteSubscriber (now : ℕ) (charUuid : Uuid) (keyPrefix : Option KeyPrefix)
    (verified : Option EndpointId) (w : Edit) : Edit :=
  let w := match keyPrefix with
    | some p => w.modify fun e => { e with keyPrefix := some p }
    | none => w
  let w := match verified with
    | some endpoint =>
      if w.entry.verifiedEndpoint.isNone then w.stampVerified now endpoint else w
    | none => w
  w.modify fun e => { e with subscribedChars := insert charUuid e.subscribedChars }

/-- A subscription starts a session unless one of the same kind is running or a handshake is under
way. -/
def peripheralClientSubscribed (now : ℕ) (charUuid : Uuid) (keyPrefix : Option KeyPrefix)
    (verified : Option EndpointId) (w : Edit) : Edit :=
  let w := w.noteSubscriber now charUuid keyPrefix verified
  match w.entry.phase with
  | .connected _ channel _ _ =>
    -- the second characteristic of a live GATT session changes nothing
    if w.entry.role = .peripheral ∧ channel.path = .gatt then w
    else w.restartPeripheralGattPipe now none (some charUuid)
  | .connecting .. | .handshaking .. => w
  | _ => w.restartPeripheralGattPipe now none (some charUuid)

/-- The central's last subscription ends the session. -/
def peripheralClientUnsubscribed (now systemNow : ℕ) (charUuid : Uuid) (w : Edit) : Edit :=
  let w := w.modify fun e => { e with subscribedChars := e.subscribedChars.erase charUuid }
  if w.entry.role ≠ .peripheral ∨
      ¬ (w.entry.phase.isConnected ∨ w.entry.phase.isHandshaking) ∨
      w.entry.subscribedChars ≠ ∅ then w
  else
    (w.modify fun e => { e with rxBacklog := [] }).drainToDraining now systemNow .remoteClose

/-! ## Advertisements -/

/-- The peer is live under another device id, so this advertisement starts nothing. -/
def advertisedSuppressed (now : ℕ) (keyPrefix : KeyPrefix) (w : Edit) : Edit :=
  w.modify fun e =>
    { e with
      lastAdv := some now
      keyPrefix := some keyPrefix
      verifiedLiveSuppressedLogged := true }

/-- An advertisement that is not suppressed. -/
def advertised (now : ℕ) (keyPrefix : KeyPrefix) (deferPrefix : Option KeyPrefix)
    (w : Edit) : Edit :=
  let w := w.modify fun e =>
    { e with
      lastAdv := some now
      keyPrefix := some keyPrefix
      verifiedLiveSuppressedLogged := false }
  match w.entry.phase with
  -- seen for the first time: dialled if a datagram waits for it
  | .unknown => w.armForDial now deferPrefix
  -- seen before and idle
  | .discovered _ => if w.entry.pendingSends.isEmpty then w else w.armForDial now deferPrefix
  -- a failed or drained one is tried from scratch; one that was forgotten is not
  | .dead .maxRetries _ | .dead .drained _ => w.clearConnectionState.armForDial now deferPrefix
  -- an attempt that is due is made on the spot
  | .reconnecting attempt nextAt _ => if nextAt ≤ now then w.beginConnect now attempt else w
  | _ => w

/-! ## Sends -/

/-- What becomes of a datagram: into the pipe's channel, refused, kept for later, or kept and the
device dialled for it. -/
inductive SendDecision where
  | enqueue
  | reject
  | buffer
  | startAndEnqueue
deriving DecidableEq, Repr

/-- The branches of `handle_send_datagram`, read off the phase. -/
def sendDecision (txGen : ℕ) (e : PeerEntry) : SendDecision :=
  match e.phase with
  | .connected _ _ liveGen _ => if txGen = liveGen then .enqueue else .reject
  | .discovered _ => .startAndEnqueue
  | .unknown | .pendingDial .. | .connecting .. | .handshaking .. | .reconnecting .. | .restoring _ =>
    .buffer
  | .draining .. => if e.resumeAfterDrain then .buffer else .reject
  | .dead .. => .reject

/-- Offer the queued sends in order. A refused one goes back to the front, and the
refusal is returned. -/
def flushSends (io : Io) (tx : Sender) : List PendingSend → Edit → Edit × Option TrySendResult
  | [], w => (w.modify fun e => { e with pendingSends := [] }, none)
  | send :: rest, w =>
    match w.nextTry io with
    | .ok => flushSends io tx rest (w.attempted (.outbound tx send .ok))
    | result =>
      ((w.attempted (.outbound tx send result)).modify fun e =>
        { e with pendingSends := send :: rest }, some result)

/-- The sends buffered before the pipe was ready go first. -/
def drainBuffered (io : Io) (w : Edit) : Edit :=
  match w.entry.pipe with
  | none => w
  | some pipe =>
    match flushSends io pipe.outboundTx w.entry.pendingSends w with
    | (w, some .closed) => w.modify fun e => { e with pipe := none }
    | (w, _) => w

/-- Offer a send to the pipe, if there is one. -/
def offer (io : Io) (send : PendingSend) (w : Edit) : Edit :=
  match w.entry.pipe with
  | none => w.modify fun e => { e with pendingSends := e.pendingSends ++ [send] }
  | some pipe =>
    match w.nextTry io with
    | .ok =>
      -- the datagram left our hands
      (w.attempted (.outbound pipe.outboundTx send .ok)).push
        (.ackSend send.txGen send.waker .ok)
    | .full =>
      -- iroh tries again by itself
      (w.attempted (.outbound pipe.outboundTx send .full)).push
        (.ackSend send.txGen send.waker (.err .wouldBlock))
    | .closed =>
      -- the pipe is gone: kept for the next one, and accepted all the same
      ((w.attempted (.outbound pipe.outboundTx send .closed)).modify fun e =>
        { e with pipe := none, pendingSends := e.pendingSends ++ [send] }).push
        (.ackSend send.txGen send.waker .ok)

/-- The `Enqueue` arm. -/
def enqueue (io : Io) (send : PendingSend) (w : Edit) : Edit := (w.drainBuffered io).offer io send

/-- Hold a send; the endpoint it is meant for, if any, becomes the entry's target. -/
def buffer (target : Option EndpointId) (send : PendingSend) (w : Edit) : Edit :=
  w.modify fun e =>
    { e with
      targetEndpoint := target.or e.targetEndpoint
      pendingSends := e.pendingSends ++ [send] }

/-- `handle_send_datagram`. A datagram that is kept is acknowledged at once. -/
def sendDatagram (io : Io) (target : Option EndpointId) (send : PendingSend) (w : Edit) : Edit :=
  match sendDecision send.txGen w.entry with
  | .enqueue => w.enqueue io send
  | .reject => w.push (.ackSend send.txGen send.waker (.err .wouldBlock))
  | .buffer => (w.buffer target send).push (.ackSend send.txGen send.waker .ok)
  | .startAndEnqueue => (w.buffer target send).beginConnect io.now 0

/-! ## Completions of a dial -/

/-- `upgrade` says whether an accepted dial goes on to open an L2CAP channel. -/
def connectSucceeded (now lifecycleId : ℕ) (channel : ChannelHandle) (upgrade : PeerEntry → Bool)
    (w : Edit) : Edit :=
  if w.entry.lifecycleId ≠ lifecycleId ∨ ¬ w.entry.phase.isConnecting then w
  else
    let w := w.modify fun e => { e with consecutiveFailures := 0, subscribedChars := ∅ }
    let w := w.push (.readVersion w.entry.deviceId lifecycleId)
    let w := (w.enterConnected now channel).startDataPipe w.entry.role .gatt none
    if upgrade w.entry then w.requestUpgrade else w

/-- One more failed attempt: `Dead` after the last, else wait for the next. -/
def dialFailed (now attempt : ℕ) (metric : String) (reason : DisconnectReason) (w : Edit) : Edit :=
  let w := w.push (.emitMetric ("connect_failed:" ++ metric))
  if attempt + 1 ≥ maxConnectAttempts then
    let w := (w.modify fun e => { e with targetEndpoint := none }).setPhase (.dead .maxRetries now)
    match w.entry.keyPrefix with
    | some p => w.push (.forgetPeerStore p)
    | none => w
  else
    w.setPhase (.reconnecting (attempt + 1) (now + reconnectBackoff (attempt + 1)) reason)

/-- Only the failure of the current lifecycle counts: the entry waits for the next attempt, or
gives up after the last. -/
def connectFailed (now lifecycleId : ℕ) (error : String) (w : Edit) : Edit :=
  -- an answer to an earlier dial
  if w.entry.lifecycleId ≠ lifecycleId then w
  else
    match w.entry.phase with
    | .connecting attempt _ _ =>
      let w := w.push (.closeNativeConnection w.entry.deviceId lifecycleId)
      let w := w.abandonOutstanding.modify fun e =>
        { e with consecutiveFailures := e.consecutiveFailures + 1 }
      w.dialFailed now attempt error .timeout
    | _ => w

/-- `Refresh` after a GATT 133. -/
def refreshOn133 (reason : DisconnectReason) (lifecycleId : ℕ) (w : Edit) : Edit :=
  if reason = .gatt133 then w.push (.refresh w.entry.deviceId lifecycleId) else w

/-- `CloseChannel` where the entry held a channel. -/
def closeChannel (channel : Option ChannelHandle) (lifecycleId : ℕ) (reason : DisconnectReason)
    (w : Edit) : Edit :=
  match channel with
  | some ch => w.push (.closeChannel w.entry.deviceId lifecycleId ch reason)
  | none => w

/-- A link of this side broke. While dialling that is a failed attempt, otherwise the session
ends. -/
def centralDisconnected (now systemNow : ℕ) (cause : DisconnectCause) (w : Edit) : Edit :=
  let lifecycleId := w.entry.lifecycleId
  let reason := DisconnectReason.ofCause cause
  match w.entry.phase with
  | .connecting attempt _ _ =>
    -- a disconnect while dialling is the connect failure
    let w := w.abandonOutstanding.modify fun e =>
      { e with consecutiveFailures := e.consecutiveFailures + 1, pendingSends := [] }
    (w.dialFailed now attempt reason.debug reason).refreshOn133 reason lifecycleId
  | .draining .. =>
    if w.entry.resumeAfterDrain then w.resumeDrainedEntry now
    else (w.drainToDraining now systemNow reason).refreshOn133 reason lifecycleId
  | phase =>
    ((w.drainToDraining now systemNow reason).closeChannel phase.channel? lifecycleId
      reason).refreshOn133 reason lifecycleId

/-! ## Fragments -/

/-- The first fragment of a device without an entry: `w` holds the new entry. -/
def inboundGattFragmentFresh (now : ℕ) (bytes : Bytes) (w : Edit) : Edit :=
  let w := w.modify fun e =>
    { e with
      role := .peripheral
      phase := .connected now ⟨0, .gatt⟩ 1 false
      txGen := 1
      lastRx := some now
      rxBacklog := [bytes] }
  w.startDataPipe .peripheral .gatt none

/-- `inbound_tx.try_send`; the peer retransmits what is refused. -/
def deliver (io : Io) (pipe : PipeHandles) (bytes : Bytes) (w : Edit) : Edit :=
  w.attempted (.inbound pipe.inboundTx bytes (w.nextTry io))

/-- Hold a fragment until the pipe is ready, dropping the oldest of too many. -/
def pushBacklog (bytes : Bytes) (w : Edit) : Edit :=
  w.modify fun e =>
    { e with
      rxBacklog :=
        (if e.rxBacklog.length ≥ rxBacklogCap then e.rxBacklog.tail else e.rxBacklog) ++ [bytes] }

/-- The side that a fragment proves this one to be on. -/
def roleOfSource : FragmentSource → ConnectRole
  | .centralReceivedP2c => .central
  | .peripheralReceivedC2p => .peripheral

/-- A fragment outside a live session: rebuild the entry as `Connected`. -/
def reviveByFragment (now : ℕ) (source : FragmentSource) (bytes : Bytes) (w : Edit) : Edit :=
  let role := roleOfSource source
  -- a notification that overtakes `ConnectSucceeded` belongs to the dial in flight
  let w := if w.entry.phase.isConnecting ∧ role = .central then w else w.abandonOutstanding
  let w := w.modify fun e => { e with pipe := none, role, rxBacklog := e.rxBacklog ++ [bytes] }
  (w.enterConnected now ⟨0, .gatt⟩).startDataPipe role .gatt none

/-- A fragment from a known device goes into its pipe, waits for one, or starts a session. While
the radio is off it is dropped. -/
def inboundGattFragment (io : Io) (source : FragmentSource) (bytes : Bytes) (w : Edit) : Edit :=
  let w := w.modify fun e => { e with lastRx := some io.now }
  -- the peer has started to talk: GATT it is
  match w.entry.phase with
  | .handshaking _ channel =>
    let w := w.modify fun e => { e with rxBacklog := e.rxBacklog ++ [bytes] }
    (w.enterConnected io.now channel).startDataPipe w.entry.role .gatt none
  | .connected _ channel _ _ =>
    match w.entry.pipe with
    | some pipe => w.deliver io pipe bytes
    | none =>
      -- this session was on L2CAP, and the peer has gone back to GATT
      if channel.path = .l2cap ∧ w.entry.role = .peripheral ∧ source = .peripheralReceivedC2p then
        w.restartPeripheralGattPipe io.now (some bytes) none
      else w.pushBacklog bytes
  | .restoring _ => w
  -- the radio is off; anything else may be revived by it
  | _ => w.reviveByFragment io.now source bytes

/-! ## The adapter -/

/-- The radio is gone. The entry waits for it in `Restoring`, and its sends are dropped. -/
def adapterOff (now : ℕ) (w : Edit) : Edit :=
  (w.abandonOutstanding.setPhase (.restoring now)).modify fun e => { e with pendingSends := [] }

/-- The radio is back. -/
def adapterOn (now : ℕ) (w : Edit) : Edit :=
  match w.entry.phase with
  | .restoring _ => w.setPhase (.reconnecting 0 now .adapterOff)
  | _ => w

/-! ## The tick -/

/-- What a tick finds due. -/
inductive TickAction where
  | startConnect (attempt : ℕ)
  | pendingDialExpired
  | drainingToDead
  | restoringToDead
  | connectedWedged
deriving DecidableEq, Repr

/-- What is due for an entry. The decisions are taken for all entries before any of them is
carried out. -/
def tickDecision (io : Io) (tickNow : ℕ) (e : PeerEntry) : Option TickAction :=
  match e.phase with
  | .reconnecting attempt nextAt _ => if nextAt ≤ tickNow then some (.startConnect attempt) else none
  | .pendingDial _ deadline _ => if tickNow ≥ deadline then some .pendingDialExpired else none
  | .draining since _ => if tickNow - since > drainingTimeout then some .drainingToDead else none
  | .restoring since => if tickNow - since > restoringTimeout then some .restoringToDead else none
  -- a session is idle from the last bytes its pipe has received
  | .connected .. =>
    match e.pipe with
    | some pipe =>
      if tickNow - io.last pipe.lastRxAt > connectedIdleDeadline then some .connectedWedged else none
    | none => none
  | _ => none

/-- Carries a decision out. -/
def tickApply (tickNow systemNow : ℕ) (action : TickAction) (w : Edit) : Edit :=
  match action with
  | .startConnect attempt => w.beginConnect tickNow attempt
  | .pendingDialExpired => w.beginConnect tickNow 0
  | .drainingToDead =>
    -- after our own hang-up, what came meanwhile has it dialled again
    if w.entry.resumeAfterDrain then w.resumeDrainedEntry tickNow
    else (w.modify fun e => { e with targetEndpoint := none }).setPhase (.dead .drained tickNow)
  | .restoringToDead =>
    (w.modify fun e => { e with targetEndpoint := none }).setPhase (.dead .drained tickNow)
  | .connectedWedged =>
    -- the channel is read before the drain takes it
    let channel := match w.entry.phase with
      | .connected _ channel _ _ => some channel
      | _ => none
    let lifecycleId := w.entry.lifecycleId
    let w := w.drainToDraining tickNow systemNow .linkDead
    (w.closeChannel channel lifecycleId .linkDead).push (.emitMetric "connected_pipe_wedged")

/-! ## Teardown -/

/-- The application, or the scan pump for a device whose hint has moved, gives the device up. -/
def forget (now : ℕ) (w : Edit) : Edit :=
  let channel := w.entry.phase.channel?
  let lifecycleId := w.entry.lifecycleId
  let w := (w.modify fun e => { e with pipe := none }).abandonOutstanding
  let w := w.failPending .connectionAborted
  let w := w.modify fun e => { e with rxBacklog := [], targetEndpoint := none }
  (w.setPhase (.dead .forgotten now)).closeChannel channel lifecycleId .localClose

/-- A pipe has ended: a live session drains. -/
def stalled (now systemNow : ℕ) (cause : StallCause) (w : Edit) : Edit :=
  match w.entry.phase with
  | .connected _ channel _ _ =>
    let lifecycleId := w.entry.lifecycleId
    let reason : DisconnectReason := match cause with
      | .linkDead => .linkDead
      | .localClose => .localClose
    let w := w.drainToDraining now systemNow reason
    -- only our own hang-up may be followed by another dial
    let w := w.modify fun e => { e with resumeAfterDrain := decide (cause = .localClose) }
    w.closeChannel (some channel) lifecycleId reason
  | _ => w

/-- Every sender is told. -/
def shutdown (w : Edit) : Edit := w.abandonOutstanding.failPending .connectionAborted

/-- The peer speaks another version: its session ends and the entry is dead. -/
def protocolVersionMismatch (now systemNow lifecycleId : ℕ) (got want : UInt8) (w : Edit) : Edit :=
  if w.entry.lifecycleId ≠ lifecycleId then w
  else
    let channel := w.entry.phase.channel?
    let w := w.drainToDraining now systemNow .protocolMismatch
    let w := w.modify fun e => { e with targetEndpoint := none }
    (w.setPhase (.dead (.protocolMismatch got want) now)).closeChannel channel lifecycleId
      .protocolMismatch

/-! ## Pipes and L2CAP -/

/-- Offer the held fragments in order; a refused one is lost and ends the loop. -/
def flushBacklog (io : Io) (tx : Sender) : List Bytes → Edit → Edit
  | [], w => w.modify fun e => { e with rxBacklog := [] }
  | bytes :: rest, w =>
    let result := w.nextTry io
    let w := w.attempted (.inbound tx bytes result)
    if result = .ok then flushBacklog io tx rest w
    else w.modify fun e => { e with rxBacklog := rest }

/-- The pipe is there: what was waiting goes into its channels in order. A pipe of an earlier
generation is ignored. -/
def dataPipeReady (io : Io) (txGen : ℕ) (handles : PipeHandles) (w : Edit) : Edit :=
  if w.entry.txGen ≠ txGen then w
  else
    let w := flushBacklog io handles.inboundTx w.entry.rxBacklog w
    let w := (flushSends io handles.outboundTx w.entry.pendingSends w).1
    w.modify fun e => { e with pipe := some handles, targetEndpoint := none }

/-- The phase of an entry that moves to `path` and is no longer upgrading. -/
def setPath (path : ConnectPath) (w : Edit) : Edit :=
  match w.entry.phase with
  | .connected since channel txGen _ =>
    w.setPhase (.connected since { channel with path } txGen false)
  | _ => w

/-- The upgrade has an L2CAP channel: a handshake starts its session on it, a live GATT session is
handed over. -/
def openL2capSucceeded (now lifecycleId upgradeGen : ℕ) (channel : L2capChannel) (w : Edit) : Edit :=
  -- an answer to an earlier request
  if w.entry.lifecycleId ≠ lifecycleId ∨ w.entry.upgradeGen ≠ upgradeGen then w
  else
    match w.entry.phase with
    -- the handshake has waited for it: the session starts on L2CAP
    | .handshaking _ gatt =>
      let w := w.modify fun e => { e with l2capChannel := none, subscribedChars := ∅ }
      (w.enterConnected now ⟨gatt.id, .l2cap⟩).startDataPipe w.entry.role .l2cap (some channel)
    -- the session runs on GATT: its pipe gets the channel as well
    | .connected _ _ _ true =>
      match w.entry.pipe with
      | some handles =>
        (w.setPath .l2cap).push (.swapPipeToL2cap w.entry.deviceId channel handles.swapTx)
      | none => (w.modify fun e => { e with l2capUpgradeFailed := true }).setUpgrading false
    | _ => w

/-- The upgrade failed and is not tried again for this session. A handshake falls back on GATT. -/
def openL2capFailed (now lifecycleId upgradeGen : ℕ) (error : String) (w : Edit) : Edit :=
  if w.entry.lifecycleId ≠ lifecycleId ∨ w.entry.upgradeGen ≠ upgradeGen then w
  else
    -- the handshake falls back on GATT
    match w.entry.phase with
    | .handshaking _ channel =>
      let w := w.modify fun e => { e with l2capUpgradeFailed := true, subscribedChars := ∅ }
      ((w.enterConnected now channel).startDataPipe w.entry.role .gatt none).push
        (.emitMetric ("l2cap_fallback_to_gatt:" ++ error))
    | .connected _ _ _ true =>
      (w.modify fun e => { e with l2capUpgradeFailed := true }).setUpgrading false
    | _ => w

/-- The pipe has gone back to GATT. -/
def l2capHandoverTimeout (w : Edit) : Edit :=
  (w.modify fun e => { e with l2capUpgradeFailed := true }).setPath .gatt

/-- An accepted channel of a device without an entry: `w` holds the new entry. -/
def inboundL2capChannelFresh (now : ℕ) (channel : L2capChannel) (w : Edit) : Edit :=
  let w := w.modify fun e =>
    { e with role := .peripheral, txGen := 1, phase := .connected now ⟨0, .l2cap⟩ 1 false }
  w.startDataPipe .peripheral .l2cap (some channel)

/-- The peer opened an L2CAP channel: a running pipe is swapped onto it, otherwise a session
starts on it. -/
def inboundL2capChannel (now : ℕ) (channel : L2capChannel) (w : Edit) : Edit :=
  match w.entry.pipe with
  | some handles =>
    match w.entry.phase with
    -- it is on L2CAP already
    | .connected _ ⟨_, .l2cap⟩ _ _ => w.push (.emitMetric "l2cap_duplicate_accept")
    | .connected _ ⟨_, .gatt⟩ _ _ =>
      ((w.setPath .l2cap).push (.emitMetric "l2cap_late_accept_swapped")).push
        (.swapPipeToL2cap w.entry.deviceId channel handles.swapTx)
    | _ => w.push (.emitMetric "l2cap_late_accept_after_gatt")
  -- no pipe yet: the session starts on this channel
  | none =>
    let w := w.abandonOutstanding.modify fun e => { e with l2capChannel := none }
    (w.enterConnected now ⟨0, .l2cap⟩).startDataPipe w.entry.role .l2cap (some channel)

end Edit

end IrohBle
