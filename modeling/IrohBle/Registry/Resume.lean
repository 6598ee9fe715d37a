import IrohBle.Registry.Fifo

/-! # Registry.Resume: a drain that was asked for

A pipe that is hung up on from this side drains like any other, but its peer is not taken for gone:
the entry keeps what is sent meanwhile and comes back once the drain is over.

* `DrainStep`: what one function does to the part of an entry that a drain is about.
* `drainedBy`, `duringDrain`: which command put the entry into `Draining`, and what has been handled
  since, read off the history.
* `resumes_of_run`: the entry comes back with its sends, unless a pipe becomes ready or the node
  shuts down in between.
* `shutdown_takes_sends`: a `Shutdown` takes them away. The actor exits after it.
-/

namespace IrohBle

open Lib Reliable Registry

/-- The entry drains. -/
def PeerPhase.isDraining : PeerPhase → Bool
  | .draining .. => true
  | _ => false

/-- In the form the case splits leave it. -/
theorem PeerPhase.isDraining_of_ne {phase : PeerPhase}
    (h : ∀ since reason, phase ≠ .draining since reason) : phase.isDraining = false := by
  cases phase with
  | draining since reason => exact absurd rfl (h since reason)
  | _ => rfl

/-- The entry waits for a datagram. -/
def PeerPhase.isDiscovered : PeerPhase → Bool
  | .discovered _ => true
  | _ => false

namespace PeerCommand

/-- A pipe of `d` is ready, and takes the queue. -/
def readies (d : DeviceId) : PeerCommand → Bool
  | .dataPipeReady d' .. => decide (d' = d)
  | _ => false

/-- The commands that take from the queue of `d` while it drains. -/
def takesSends (d : DeviceId) : PeerCommand → Bool
  | .shutdown => true
  | cmd => cmd.readies d

/-- The drain of `d` that began at `since` is over. -/
def endsDrain (d : DeviceId) (since : ℕ) : PeerCommand → Bool
  | .centralDisconnected d' _ => decide (d' = d)
  | .tick tickNow => decide (tickNow - since > drainingTimeout)
  | _ => false

end PeerCommand

/-- The part of an entry that a drain is about. -/
structure DrainState where
  phase : PeerPhase
  resume : Bool
  sends : List PendingSend

/-- What a drain is about: the phase, whether to come back, and what was sent meanwhile. -/
def PeerEntry.drain (e : PeerEntry) : DrainState := ⟨e.phase, e.resumeAfterDrain, e.pendingSends⟩

/-- What a function that a command runs on the entry of `d` may do about a drain. -/
inductive DrainStep (cmd : PeerCommand) (d : DeviceId) (s s' : DrainState) : Prop where
  /-- The entry is not `Draining` after it. -/
  | outside (phase : s'.phase.isDraining = false)
  /-- A drain goes on, and one that is to be resumed keeps what is sent. -/
  | stays (phase : s'.phase = s.phase) (resume : s'.resume = s.resume)
      (sends : s.phase.isDraining = true → s.resume = true → cmd.takesSends d = false →
        s'.sends = s.sends ++ cmd.sendsTo d)
  | begins (phase : s.phase.isDraining = false)
      (resume : s'.resume = true ↔ cmd = .stalled d .localClose) (sends : s'.sends = [])
  /-- A drain that is not to be resumed begins again. -/
  | again (phase : s.phase.isDraining = true) (before : s.resume = false)
      (after : s'.resume = false)

/-- If the entry is `Draining`, the command has just put it there. -/
def DrainState.Begun (cmd : PeerCommand) (d : DeviceId) (s : DrainState) : Prop :=
  s.phase.isDraining = true →
    (s.resume = true ↔ cmd = .stalled d .localClose) ∧ (s.resume = true → s.sends = [])

namespace DrainStep

variable {cmd : PeerCommand} {d : DeviceId} {s s' : DrainState}

/-- A function that changes none of it, where the command is no send. -/
theorem same (h : s' = s) (hsends : cmd.sendsTo d = []) : DrainStep cmd d s s' := by
  subst h
  apply stays
  · rfl
  · rfl
  · intro _ _ _
    rw [hsends, List.append_nil]

/-- A drain that goes on is resumed as before, and keeps what is sent if it is. -/
theorem goesOn (h : DrainStep cmd d s s') (hs : s.phase.isDraining = true)
    (hs' : s'.phase.isDraining = true) :
    s'.resume = s.resume ∧
      (s.resume = true → cmd.takesSends d = false → s'.sends = s.sends ++ cmd.sendsTo d) := by
  cases h with
  | outside phase =>
      rw [phase] at hs'
      cases hs'
  | stays phase resume sends => exact ⟨resume, sends hs⟩
  | begins phase resume sends =>
      rw [phase] at hs
      cases hs
  | again phase before after =>
      refine ⟨after.trans before.symm, ?_⟩
      intro hresume
      rw [before] at hresume
      cases hresume

/-- A drain that the command has begun still looks begun after its next function. -/
theorem begun (h : DrainStep cmd d s s') (hs : s.Begun cmd d) : s'.Begun cmd d := by
  intro hdraining
  cases h with
  | outside phase =>
      rw [phase] at hdraining
      cases hdraining
  | stays phase resume sends =>
      rw [phase] at hdraining
      obtain ⟨hiff, hempty⟩ := hs hdraining
      rw [resume]
      refine ⟨hiff, ?_⟩
      intro hresume
      -- the command that has put it there sends nothing
      obtain rfl := hiff.mp hresume
      have hnone : PeerCommand.sendsTo d (.stalled d .localClose) = [] := rfl
      rw [sends hdraining hresume rfl, hnone, List.append_nil]
      exact hempty hresume
  | begins phase resume sends => exact ⟨resume, fun _ => sends⟩
  | again phase before after =>
      obtain ⟨hiff, -⟩ := hs phase
      rw [before] at hiff
      rw [after]
      refine ⟨hiff, ?_⟩
      intro hresume
      cases hresume

/-- `drain_to_draining` on an entry that is not `Draining`, for any other reason. -/
theorem drained (w : Edit) (now systemNow : ℕ) (reason : DisconnectReason)
    (hphase : s.phase.isDraining = false) (hcmd : cmd ≠ .stalled d .localClose) :
    DrainStep cmd d s (w.drainToDraining now systemNow reason).entry.drain := by
  apply begins hphase
  · rw [Edit.drainToDraining_entry]
    constructor
    · intro hresume
      cases hresume
    · intro heq
      exact absurd heq hcmd
  · rw [Edit.drainToDraining_entry]
    rfl

/-- An entry that is armed for a dial does not drain. -/
theorem armForDial (w : Edit) (now : ℕ) (deferPrefix : Option KeyPrefix) :
    DrainStep cmd d s (w.armForDial now deferPrefix).entry.drain := by
  obtain ⟨phase, _, _, he, hphase⟩ := Edit.armForDial_entry w now deferPrefix
  apply outside
  rw [he]
  rcases hphase with rfl | ⟨p, rfl⟩ | rfl <;> rfl

theorem dialFailed (w : Edit) (now attempt : ℕ) (metric : String) (reason : DisconnectReason) :
    DrainStep cmd d s (w.dialFailed now attempt metric reason).entry.drain := by
  apply outside
  rw [Edit.dialFailed_entry]
  split <;> rfl

/-- A flag of a `Connected` phase is no matter of a drain. -/
theorem setUpgrading (w : Edit) (upgrading : Bool) (hsends : cmd.sendsTo d = []) :
    DrainStep cmd d w.entry.drain (w.setUpgrading upgrading).entry.drain := by
  obtain ⟨phase, he, hphase⟩ := Edit.setUpgrading_entry w upgrading
  rw [he]
  rcases hphase with ⟨since, channel, txGen, up, -, rfl⟩ | ⟨-, rfl⟩
  · exact outside rfl
  · exact same rfl hsends

/-- A path change is for live sessions. -/
theorem setPath (w : Edit) (path : ConnectPath) (hsends : cmd.sendsTo d = []) :
    DrainStep cmd d w.entry.drain (w.setPath path).entry.drain := by
  obtain ⟨phase, he, hphase⟩ := Edit.setPath_entry w path
  rw [he]
  rcases hphase with ⟨since, channel, txGen, up, -, rfl⟩ | ⟨-, rfl⟩
  · exact outside rfl
  · exact same rfl hsends

/-! ## The handlers -/

/-- A subscription may end a drain by a session. -/
theorem peripheralClientSubscribed (w : Edit) (now : ℕ) (c : Uuid) (p : Option KeyPrefix)
    (verified : Option EndpointId) (hsends : cmd.sendsTo d = []) :
    DrainStep cmd d w.entry.drain (w.peripheralClientSubscribed now c p verified).entry.drain := by
  obtain ⟨_, _, _, _, he⟩ := Edit.noteSubscriber_entry w now c p verified
  have hnoted : (w.noteSubscriber now c p verified).entry.drain = w.entry.drain := by
    rw [he]
    rfl
  unfold Edit.peripheralClientSubscribed
  dsimp only
  split
  · split
    · exact same hnoted hsends
    · exact outside rfl
  · exact same hnoted hsends
  · exact same hnoted hsends
  · exact outside rfl

/-- The last subscription begins a drain that is not to be resumed. -/
theorem peripheralClientUnsubscribed (w : Edit) (now systemNow : ℕ) (c : Uuid) :
    DrainStep (.peripheralClientUnsubscribed d c) d w.entry.drain
      (w.peripheralClientUnsubscribed now systemNow c).entry.drain := by
  unfold Edit.peripheralClientUnsubscribed
  dsimp only
  split
  · exact same rfl rfl
  · rename_i hlive
    -- the entry is `Connected` or `Handshaking`
    refine drained _ now systemNow _ (PeerPhase.isDraining_of_ne ?_) (by simp)
    intro since reason hp
    have hphase : w.entry.phase = .draining since reason := hp
    simp [hphase, PeerPhase.isConnected, PeerPhase.isHandshaking] at hlive

/-- A draining entry is not dialled for an advertisement. -/
theorem advertised (w : Edit) (now : ℕ) (p : KeyPrefix) (deferPrefix : Option KeyPrefix)
    (hsends : cmd.sendsTo d = []) :
    DrainStep cmd d w.entry.drain (w.advertised now p deferPrefix).entry.drain := by
  unfold Edit.advertised
  dsimp only
  split
  · exact armForDial _ now deferPrefix
  · split
    · exact same rfl hsends
    · exact armForDial _ now deferPrefix
  · exact armForDial _ now deferPrefix
  · exact armForDial _ now deferPrefix
  · split
    · exact outside rfl
    · exact same rfl hsends
  · exact same rfl hsends

/-- Only a send to an entry that drains to come back is kept. -/
theorem sendDatagram (w : Edit) (io : Io) (target : Option EndpointId) (txGen : ℕ)
    (datagram : Bytes) (waker : Waker) :
    DrainStep (.sendDatagram d target txGen datagram waker) d w.entry.drain
      (w.sendDatagram io target ⟨txGen, datagram, waker⟩).entry.drain := by
  cases hp : w.entry.phase with
  -- the entry drains: kept if it is to be resumed, refused otherwise
  | draining since reason =>
      have hdecide : Edit.sendDecision txGen w.entry =
          if w.entry.resumeAfterDrain then .buffer else .reject := by
        unfold Edit.sendDecision
        rw [hp]
      unfold Edit.sendDatagram
      rw [hdecide]
      cases hresume : w.entry.resumeAfterDrain with
      | true =>
          apply stays
          · rfl
          · rfl
          · intro _ _ _
            simp [PeerCommand.sendsTo, Edit.buffer, PeerEntry.drain]
      | false =>
          apply stays
          · rfl
          · rfl
          · intro _ hyes _
            change w.entry.resumeAfterDrain = true at hyes
            rw [hresume] at hyes
            cases hyes
  | _ =>
      apply outside
      unfold Edit.sendDatagram
      cases Edit.sendDecision txGen w.entry with
      | enqueue =>
          obtain ⟨_, _, he, -⟩ := Edit.enqueue_entry w io ⟨txGen, datagram, waker⟩
          simp [he, PeerEntry.drain, hp, PeerPhase.isDraining]
      | reject => simp [PeerEntry.drain, hp, PeerPhase.isDraining]
      | buffer => simp [Edit.buffer, PeerEntry.drain, hp, PeerPhase.isDraining]
      | startAndEnqueue => rfl

/-- The success of a dial is not for a draining entry. -/
theorem connectSucceeded (w : Edit) (now lifecycleId : ℕ) (channel : ChannelHandle)
    (upgrade : PeerEntry → Bool) (hsends : cmd.sendsTo d = []) :
    DrainStep cmd d w.entry.drain
      (w.connectSucceeded now lifecycleId channel upgrade).entry.drain := by
  unfold Edit.connectSucceeded
  split
  · exact same rfl hsends
  · dsimp only
    split
    · exact outside rfl
    · exact outside rfl

theorem connectFailed (w : Edit) (now lifecycleId : ℕ) (error : String)
    (hsends : cmd.sendsTo d = []) :
    DrainStep cmd d w.entry.drain (w.connectFailed now lifecycleId error).entry.drain := by
  unfold Edit.connectFailed
  split
  · exact same rfl hsends
  · split
    · exact dialFailed _ now _ error .timeout
    · exact same rfl hsends

/-- A fragment ends a drain by a session. -/
theorem inboundGattFragment (w : Edit) (io : Io) (source : FragmentSource) (bytes : Bytes)
    (hsends : cmd.sendsTo d = []) :
    DrainStep cmd d w.entry.drain (w.inboundGattFragment io source bytes).entry.drain := by
  unfold Edit.inboundGattFragment
  dsimp only
  split
  · exact outside rfl
  · split
    · exact same rfl hsends
    · split
      · exact outside rfl
      · exact same rfl hsends
  · exact same rfl hsends
  · exact outside rfl

/-- The link's end, which a drain waits for: it is resumed, or begins again. -/
theorem centralDisconnected (w : Edit) (now systemNow : ℕ) (cause : DisconnectCause) :
    DrainStep (.centralDisconnected d cause) d w.entry.drain
      (w.centralDisconnected now systemNow cause).entry.drain := by
  unfold Edit.centralDisconnected
  dsimp only
  split
  · rw [Edit.refreshOn133_entry]
    exact dialFailed _ now _ _ _
  · rename_i hp
    split
    · exact armForDial _ now none
    · rename_i hno
      rw [Edit.refreshOn133_entry, Edit.drainToDraining_entry]
      refine again ?_ (Bool.eq_false_iff.mpr hno) rfl
      simp [PeerEntry.drain, hp, PeerPhase.isDraining]
  · rename_i hdraining
    rw [Edit.refreshOn133_entry, Edit.closeChannel_entry]
    exact drained w now systemNow _ (PeerPhase.isDraining_of_ne hdraining) (by simp)

/-- The adapter's return is not for a draining entry. -/
theorem adapterOn (w : Edit) (now : ℕ) (hsends : cmd.sendsTo d = []) :
    DrainStep cmd d w.entry.drain (w.adapterOn now).entry.drain := by
  unfold Edit.adapterOn
  split
  · exact outside rfl
  · exact same rfl hsends

/-- The timeout of a drain resumes it or buries the entry. -/
theorem tickApply {io : Io} {tickNow : ℕ} {action : Edit.TickAction} (w : Edit) (systemNow : ℕ)
    (hdecide : Edit.tickDecision io tickNow w.entry = some action) :
    DrainStep (.tick tickNow) d w.entry.drain
      (w.tickApply tickNow systemNow action).entry.drain := by
  cases action with
  | startConnect attempt => exact outside rfl
  | pendingDialExpired => exact outside rfl
  | drainingToDead =>
      unfold Edit.tickApply
      dsimp only
      split
      · exact armForDial _ tickNow none
      · exact outside rfl
  | restoringToDead => exact outside rfl
  | connectedWedged =>
      unfold Edit.tickApply
      dsimp only
      rw [Edit.push_entry, Edit.closeChannel_entry]
      refine drained w tickNow systemNow _ (PeerPhase.isDraining_of_ne ?_) (by simp)
      intro since reason hp
      have hphase : w.entry.phase = .draining since reason := hp
      unfold Edit.tickDecision at hdecide
      rw [hphase] at hdecide
      dsimp only at hdecide
      split at hdecide <;> cases hdecide

theorem forget (w : Edit) (now : ℕ) : DrainStep cmd d s (w.forget now).entry.drain := by
  apply outside
  simp [Edit.forget, PeerEntry.drain, PeerPhase.isDraining]

/-- The one function that sets the flag. -/
theorem stalled (w : Edit) (now systemNow : ℕ) (cause : StallCause) :
    DrainStep (.stalled d cause) d w.entry.drain
      (w.stalled now systemNow cause).entry.drain := by
  unfold Edit.stalled
  split
  · rename_i hp
    dsimp only
    -- the flag is set after the drain has cleared it
    rw [Edit.closeChannel_entry, Edit.modify_entry, Edit.drainToDraining_entry]
    apply begins
    · simp [PeerEntry.drain, hp, PeerPhase.isDraining]
    · simp [PeerEntry.drain]
    · rfl
  · exact same rfl rfl

theorem protocolVersionMismatch (w : Edit) (now systemNow lifecycleId : ℕ) (got want : UInt8)
    (hsends : cmd.sendsTo d = []) :
    DrainStep cmd d w.entry.drain
      (w.protocolVersionMismatch now systemNow lifecycleId got want).entry.drain := by
  unfold Edit.protocolVersionMismatch
  split
  · exact same rfl hsends
  · dsimp only
    rw [Edit.closeChannel_entry]
    exact outside rfl

/-- The queue goes to the pipe. -/
theorem dataPipeReady (w : Edit) (io : Io) (txGen : ℕ) (handles : PipeHandles) :
    DrainStep (.dataPipeReady d txGen handles) d w.entry.drain
      (w.dataPipeReady io txGen handles).entry.drain := by
  apply stays
  · exact Edit.dataPipeReady_phase w io txGen handles
  · by_cases hgen : w.entry.txGen = txGen
    · obtain ⟨_, _, he⟩ := Edit.dataPipeReady_entry w io txGen handles hgen
      rw [he]
      rfl
    · rw [Edit.dataPipeReady, if_pos hgen]
  · intro _ _ htakes
    simp [PeerCommand.takesSends, PeerCommand.readies] at htakes

/-- The answers to an upgrade are for live sessions. -/
theorem openL2capSucceeded (w : Edit) (now lifecycleId upgradeGen : ℕ) (channel : L2capChannel)
    (hsends : cmd.sendsTo d = []) :
    DrainStep cmd d w.entry.drain
      (w.openL2capSucceeded now lifecycleId upgradeGen channel).entry.drain := by
  unfold Edit.openL2capSucceeded
  split
  · exact same rfl hsends
  · split
    · exact outside rfl
    · split
      · exact setPath w .l2cap hsends
      · exact setUpgrading (w.modify fun e => { e with l2capUpgradeFailed := true }) false hsends
    · exact same rfl hsends

/-- The failed ones too. -/
theorem openL2capFailed (w : Edit) (now lifecycleId upgradeGen : ℕ) (error : String)
    (hsends : cmd.sendsTo d = []) :
    DrainStep cmd d w.entry.drain
      (w.openL2capFailed now lifecycleId upgradeGen error).entry.drain := by
  unfold Edit.openL2capFailed
  split
  · exact same rfl hsends
  · split
    · exact outside rfl
    · exact setUpgrading (w.modify fun e => { e with l2capUpgradeFailed := true }) false hsends
    · exact same rfl hsends

/-- A channel of the peer's ends a drain by a session. -/
theorem inboundL2capChannel (w : Edit) (now : ℕ) (channel : L2capChannel)
    (hsends : cmd.sendsTo d = []) :
    DrainStep cmd d w.entry.drain (w.inboundL2capChannel now channel).entry.drain := by
  unfold Edit.inboundL2capChannel
  split
  · split
    · exact same rfl hsends
    · exact setPath w .l2cap hsends
    · exact same rfl hsends
  · exact outside rfl

end DrainStep

/-- Every function a command may run does one of these. -/
theorem Turn.Touch.drainStep {io : Io} {cmd : PeerCommand} {d : DeviceId} {f : Edit → Edit}
    {w : Edit} (hf : Touch io cmd d w.entry f) :
    DrainStep cmd d w.entry.drain (f w).entry.drain := by
  cases hf with
  | stampExact => exact .same rfl rfl
  | stampVerified => exact .same rfl rfl
  | cancelDial h =>
      -- a pending dial is not an entry that drains
      refine .drained w _ _ _ (PeerPhase.isDraining_of_ne ?_) (by simp)
      intro since reason hp
      have hphase : w.entry.phase = .draining since reason := hp
      simp [isPendingDialFor, hphase] at h
  | drainLoser h =>
      -- nor is a live one
      refine .drained w _ _ _ (PeerPhase.isDraining_of_ne ?_) (by simp)
      intro since reason hp
      have hphase : w.entry.phase = .draining since reason := hp
      simp [liveFor, hphase, PeerPhase.isConnected] at h
  | requestUpgrade => exact .setUpgrading w true rfl
  | subscribed => exact .peripheralClientSubscribed w _ _ _ _ rfl
  | unsubscribed => exact .peripheralClientUnsubscribed w _ _ _
  | advertisedSuppressed => exact .same rfl rfl
  | advertised => exact .advertised w _ _ _ rfl
  | sendDatagram => exact .sendDatagram w _ _ _ _ _
  | connectSucceeded => exact .connectSucceeded w _ _ _ _ rfl
  | connectFailed => exact .connectFailed w _ _ _ rfl
  | fragment => exact .inboundGattFragment w _ _ _ rfl
  | centralDisconnected => exact .centralDisconnected w _ _ _
  | adapterOff => exact .outside rfl
  | adapterOn => exact .adapterOn w _ rfl
  | tick h => exact .tickApply w _ h
  | forget => exact .forget w _
  | stalled => exact .stalled w _ _ _
  | shutdown =>
      apply DrainStep.stays
      · rfl
      · rfl
      · intro _ _ htakes
        cases htakes
  | dataPipeReady => exact .dataPipeReady w _ _ _
  | openL2capSucceeded => exact .openL2capSucceeded w _ _ _ _ rfl
  | openL2capFailed => exact .openL2capFailed w _ _ _ _ rfl
  | inboundL2capChannel => exact .inboundL2capChannel w _ _ rfl
  | protocolVersionMismatch => exact .protocolVersionMismatch w _ _ _ _ _ rfl
  | handoverTimeout =>
      exact .setPath (w.modify fun e => { e with l2capUpgradeFailed := true }) .gatt rfl

/-! ## The end of a drain -/

namespace Edit

variable {w : Edit} {now : ℕ}

/-- Coming back keeps what was sent meanwhile. -/
theorem resumeDrainedEntry_sends :
    (w.resumeDrainedEntry now).entry.pendingSends = w.entry.pendingSends := by
  obtain ⟨_, _, _, he, -⟩ := armForDial_entry w.clearConnectionState now none
  unfold resumeDrainedEntry
  rw [he]
  rfl

/-- Without anything sent the entry waits. -/
theorem resumeDrainedEntry_idle (h : w.entry.pendingSends = []) :
    (w.resumeDrainedEntry now).entry.phase = .discovered now := by
  have hempty : w.clearConnectionState.entry.pendingSends.isEmpty = true := by
    rw [show w.clearConnectionState.entry.pendingSends = [] from h]
    rfl
  unfold resumeDrainedEntry armForDial
  rw [if_pos hempty]
  rfl

/-- Otherwise it dials at once. -/
theorem resumeDrainedEntry_dials (now : ℕ) (h : w.entry.pendingSends ≠ []) :
    (w.resumeDrainedEntry now).entry.phase = .connecting 0 now .gatt ∧
      ∃ l, .startConnect w.entry.deviceId 0 l ∈ (w.resumeDrainedEntry now).orders := by
  have hsome : ¬ w.clearConnectionState.entry.pendingSends.isEmpty = true := by
    intro hempty
    exact h (List.isEmpty_iff.mp hempty)
  unfold resumeDrainedEntry armForDial
  rw [if_neg hsome]
  refine ⟨rfl, w.nextLifecycle + 1, ?_⟩
  refine List.mem_filter.mpr ⟨?_, rfl⟩
  exact List.mem_append_right _ List.mem_cons_self

end Edit

namespace Registry

open Turn

/-! ## One command -/

section Handle

variable {r : Registry} {io : Io} {cmd : PeerCommand} {d : DeviceId} {e e' : PeerEntry}

/-- A drain that begins is to be resumed if it was asked for, and its queue is empty then. -/
theorem handle_beginsDrain (hidle : ∀ e, r.peer d = some e → e.phase.isDraining = false)
    (he' : (r.handle io cmd).reg.peer d = some e') : e'.drain.Begun cmd d := by
  refine (handle_steps io cmd r).all (P := fun e => e.drain.Begun cmd d) ?_ ?_ ?_ ?_ e' he'
  · intro n hdraining
    cases hdraining
  · intro f w hf hw
    exact hf.drainStep.begun hw
  · intro f w n hf hw hdraining
    cases hf with
    | fragment => cases hdraining
    | inboundL2capChannel => cases hdraining
  · intro e he hdraining
    have hno : e.drain.phase.isDraining = false := hidle e he
    rw [hno] at hdraining
    cases hdraining

/-- A verified endpoint does nothing about a drain. -/
theorem verified_keepsDrain {endpoint : EndpointId} {token : Option ℕ} (he : r.peer d = some e)
    (hdraining : e.phase.isDraining = true)
    (he' : (r.handle io (.verifiedEndpoint endpoint token)).reg.peer d = some e') :
    e'.drain = e.drain := by
  refine (handle_steps io (.verifiedEndpoint endpoint token) r).track_entry
    (Q := fun x => x.drain = e.drain) ?_ he he' rfl
  intro w f hf hw
  have hphase : w.entry.phase = e.phase := congrArg DrainState.phase hw
  rw [← hphase] at hdraining
  cases hp : w.entry.phase with
  | draining since reason =>
      refine Eq.trans ?_ hw
      cases hf with
      | stampExact => rfl
      | stampVerified => rfl
      | cancelDial h => simp [isPendingDialFor, hp] at h
      | drainLoser h => simp [liveFor, hp, PeerPhase.isConnected] at h
      | requestUpgrade _ _ h =>
          rw [hp] at h
          cases h
  | _ =>
      rw [hp] at hdraining
      cases hdraining

/-- What a command does about the drain of an entry that is `Draining`. -/
theorem handle_drainStep (hset : r.Settled) (he : r.peer d = some e)
    (hdraining : e.phase.isDraining = true)
    (he' : (r.handle io cmd).reg.peer d = some e') : DrainStep cmd d e.drain e'.drain := by
  by_cases hverified : ∃ endpoint token, cmd = .verifiedEndpoint endpoint token
  · obtain ⟨endpoint, token, rfl⟩ := hverified
    exact .same (verified_keepsDrain he hdraining he') rfl
  · -- a send does reach the entry, whatever comes of it
    by_cases hsend : ∃ target txGen datagram waker,
        cmd = .sendDatagram d target txGen datagram waker
    · obtain ⟨target, txGen, datagram, waker, rfl⟩ := hsend
      obtain ⟨w, hw, hpeer⟩ :=
        peer_handle_sendDatagram r io d target txGen datagram waker
      rw [he] at hw
      obtain rfl := Option.some.inj (he'.symm.trans hpeer)
      have hsent := DrainStep.sendDatagram (d := d) w io target txGen datagram waker
      rw [hw] at hsent
      exact hsent
    · have honce : Once io cmd d e (r.handle io cmd) :=
        handle_entry hset (fun endpoint token heq => hverified ⟨endpoint, token, heq⟩) he
      rcases honce e' he' with rfl | ⟨f, w, rfl, hf, rfl, -⟩
      · apply DrainStep.same rfl
        cases cmd with
        | sendDatagram d' target txGen datagram waker =>
            have hne : d' ≠ d := by
              rintro rfl
              exact hsend ⟨target, txGen, datagram, waker, rfl⟩
            rw [PeerCommand.sendsTo, if_neg hne]
        | _ => rfl
      · exact hf.drainStep

/-- An entry that is to be resumed comes back at the end of its drain. -/
theorem handle_endsDrain {since : ℕ} {reason : DisconnectReason} (hset : r.Settled)
    (he : r.peer d = some e) (hphase : e.phase = .draining since reason)
    (hresume : e.resumeAfterDrain = true) (hends : cmd.endsDrain d since = true) :
    ∃ (w : Edit) (now : ℕ), w.entry = e ∧
      (r.handle io cmd).reg.peer d = some (w.resumeDrainedEntry now).entry ∧
      (w.resumeDrainedEntry now).orders ⊆ (r.handle io cmd).orders := by
  -- two commands end a drain: the end of the link, and the tick after its time is up
  cases cmd with
  | centralDisconnected d' cause =>
      obtain rfl : d' = d := of_decide_eq_true hends
      have hresumes : ((start r).focus e).centralDisconnected io.now io.systemNow cause =
          ((start r).focus e).resumeDrainedEntry io.now := by
        have hfocus : ((start r).focus e).entry = e := rfl
        unfold Edit.centralDisconnected
        rw [hfocus, hphase]
        dsimp only
        rw [if_pos hresume]
      refine ⟨(start r).focus e, io.now, rfl, ?_, ?_⟩
      · rw [peer_handle_centralDisconnected he, hresumes]
      · rw [← hresumes]
        change _ ⊆ (Turn.handleCentralDisconnected io d' cause (start r)).orders
        -- the entry is not given up, so it stays on the list
        have hstart : (start r).reg.peer d' = some e := he
        have hpruned : ∀ t : Turn, (t.pruneIfGivenUp d' (r.peer d')).orders = t.orders := by
          intro t
          unfold Turn.pruneIfGivenUp
          split <;> rfl
        rw [Turn.handleCentralDisconnected, peer_start, hpruned, edit_of_some hstart]
        exact List.Subset.refl _
  | tick tickNow =>
      have hover : tickNow - since > drainingTimeout := of_decide_eq_true hends
      have hdecide : Edit.tickDecision io tickNow e = some .drainingToDead := by
        unfold Edit.tickDecision
        rw [hphase]
        dsimp only
        rw [if_pos hover]
      have hresumes : ∀ w : Edit, w.entry = e →
          w.tickApply tickNow io.systemNow .drainingToDead = w.resumeDrainedEntry tickNow := by
        intro w hw
        unfold Edit.tickApply
        dsimp only
        rw [hw, if_pos hresume]
      have halive : ∀ w : Edit, w.entry = e →
          (w.tickApply tickNow io.systemNow .drainingToDead).entry.phase.isDead = false := by
        intro w hw
        obtain ⟨phase, _, _, harmed, hkind⟩ :=
          Edit.armForDial_entry w.clearConnectionState tickNow none
        rw [hresumes w hw, Edit.resumeDrainedEntry, harmed]
        rcases hkind with rfl | ⟨p, rfl⟩ | rfl <;> rfl
      obtain ⟨w, hw, hpeer, horders⟩ := peer_handle_tick hset he hdecide halive
      rw [hresumes w hw] at hpeer horders
      exact ⟨w, tickNow, hw, hpeer, horders⟩
  | _ => cases hends

end Handle

/-! ## Runs -/

/-- The entry of `d` is `Draining`. -/
def drains (r : Registry) (d : DeviceId) : Bool := (r.peer d).any fun e => e.phase.isDraining

/-- The command of a step. -/
def Label.command? : Label → Option PeerCommand
  | .reorder _ => none
  | .command _ cmd => some cmd

/-- The last command that found the entry of `d` elsewhere. Of an entry that is `Draining`, it is
the one that put it there. -/
def drainedBy (d : DeviceId) (h : List (Registry × Label)) : Option PeerCommand :=
  h.foldl (fun last x => if x.1.drains d then last else x.2.command?) none

/-- The commands handled since then. -/
def duringDrain (d : DeviceId) (h : List (Registry × Label)) : List PeerCommand :=
  h.foldl (fun cmds x => if x.1.drains d then cmds ++ x.2.command?.toList else []) []

/-- The command before the drain is the last one before the entry drained. -/
theorem drainedBy_append (d : DeviceId) (h : List (Registry × Label)) (x : Registry × Label) :
    drainedBy d (h ++ [x]) = if x.1.drains d then drainedBy d h else x.2.command? := by
  unfold drainedBy
  rw [List.foldl_append]
  rfl

/-- What is handled during the drain is what comes after it. -/
theorem duringDrain_append (d : DeviceId) (h : List (Registry × Label)) (x : Registry × Label) :
    duringDrain d (h ++ [x]) =
      if x.1.drains d then duringDrain d h ++ x.2.command?.toList else [] := by
  unfold duringDrain
  rw [List.foldl_append]
  rfl

/-- Whether a device drains can be read off its entry. -/
theorem drains_of_peer {r : Registry} {d : DeviceId} {e : PeerEntry} (he : r.peer d = some e) :
    r.drains d = e.phase.isDraining := by
  unfold drains
  rw [he]
  rfl

/-- What the history says of a drain. -/
def Recorded (d : DeviceId) (h : List (Registry × Label)) (e : PeerEntry) : Prop :=
  (e.resumeAfterDrain = true ↔ drainedBy d h = some (.stalled d .localClose)) ∧
    (e.resumeAfterDrain = true → (∀ cmd ∈ duringDrain d h, cmd.takesSends d = false) →
      e.pendingSends = (duringDrain d h).flatMap (PeerCommand.sendsTo d))

/-- The step lemma: `x` is handled in a state in which the record is right. -/
theorem recorded_step {h : List (Registry × Label)} {r : Registry} {io : Io} {cmd : PeerCommand}
    {d : DeviceId} {e' : PeerEntry} (hset : r.Settled)
    (hold : ∀ e, r.peer d = some e → e.phase.isDraining = true → Recorded d h e)
    (he' : (r.handle io cmd).reg.peer d = some e') (hdraining : e'.phase.isDraining = true) :
    Recorded d (h ++ [(r, .command io cmd)]) e' := by
  unfold Recorded
  rw [drainedBy_append, duringDrain_append]
  dsimp only [Label.command?]
  cases hdrains : r.drains d with
  | false =>
      -- the drain begins here
      have hidle : ∀ e, r.peer d = some e → e.phase.isDraining = false := by
        intro e he
        rw [← drains_of_peer he]
        exact hdrains
      obtain ⟨hiff, hempty⟩ := handle_beginsDrain hidle he' hdraining
      rw [if_neg Bool.false_ne_true, if_neg Bool.false_ne_true, Option.some_inj]
      exact ⟨hiff, fun hresume _ => hempty hresume⟩
  | true =>
      -- the drain goes on
      obtain ⟨e, he, hbefore⟩ := (Option.any_eq_true _ _).mp hdrains
      obtain ⟨hresume, hsends⟩ :=
        (handle_drainStep hset he hbefore he').goesOn hbefore hdraining
      obtain ⟨hiff, hkept⟩ := hold e he hbefore
      have hresume' : e'.resumeAfterDrain = e.resumeAfterDrain := hresume
      rw [if_pos rfl, if_pos rfl, hresume']
      refine ⟨hiff, ?_⟩
      intro hyes htakes
      have hbeforeSends := hkept hyes fun c hc => htakes c (List.mem_append_left _ hc)
      have hnow := hsends hyes (htakes cmd (List.mem_append_right _ List.mem_cons_self))
      calc e'.pendingSends = e.pendingSends ++ cmd.sendsTo d := hnow
        _ = (duringDrain d h ++ [cmd]).flatMap (PeerCommand.sendsTo d) := by
          rw [hbeforeSends, List.flatMap_append, List.flatMap_singleton]

/-- In every run a draining entry is what the history says of its drain. -/
theorem recorded_of_run {h : List (Registry × Label)} {r : Registry} (hrun : system.Run h r)
    {d : DeviceId} {e : PeerEntry} (he : r.peer d = some e) (hdraining : e.phase.isDraining = true) :
    Recorded d h e := by
  induction hrun generalizing e with
  | init hs =>
      obtain ⟨policy, endpoint, rfl⟩ := hs
      cases he
  | @step h r r' l hrun hs ih =>
      cases l with
      | reorder ks =>
          rw [peer_reorder hs] at he
          have hdrains : r.drains d = true := (drains_of_peer he).trans hdraining
          have hold := ih he hdraining
          unfold Recorded at hold ⊢
          rw [drainedBy_append, duringDrain_append, if_pos hdrains, if_pos hdrains]
          dsimp only [Label.command?]
          rw [Option.toList_none, List.append_nil]
          exact hold
      | command io cmd =>
          obtain rfl := Option.some.inj hs
          exact recorded_step (settled_of_run hrun) (fun e he => ih he) he hdraining

/-- A drain of `d` is resumed if it was asked for: the entry comes back at its end, with what was
sent meanwhile, unless a command in `spoils` came in between. -/
def Resumes (spoils : PeerCommand → Bool) (d : DeviceId) (h : List (Registry × Label))
    (r : Registry) : Prop :=
  ∀ e since reason, r.peer d = some e → e.phase = .draining since reason →
    (e.resumeAfterDrain = true ↔ drainedBy d h = some (.stalled d .localClose)) ∧
    (e.resumeAfterDrain = true → ∀ io cmd, cmd.endsDrain d since = true →
      ∃ e', (r.handle io cmd).reg.peer d = some e' ∧
        (e'.phase.isDiscovered = true ∨ e'.phase.isConnecting = true) ∧
        ((∀ c ∈ duringDrain d h, spoils c = false) →
          e'.pendingSends = (duringDrain d h).flatMap (PeerCommand.sendsTo d) ∧
          ((duringDrain d h).flatMap (PeerCommand.sendsTo d) ≠ [] →
            ∃ l, .startConnect d 0 l ∈ (r.handle io cmd).actions)))

/-- In every run a drain that was asked for brings the entry back, with the sends it got while it
drained if no pipe became ready and the node was not shut down meanwhile. -/
theorem resumes_of_run {h : List (Registry × Label)} {r : Registry} (hrun : system.Run h r)
    (d : DeviceId) : Resumes (PeerCommand.takesSends d) d h r := by
  intro e since reason he hphase
  have hdraining : e.phase.isDraining = true := by
    rw [hphase]
    rfl
  obtain ⟨hiff, hkept⟩ := recorded_of_run hrun he hdraining
  refine ⟨hiff, ?_⟩
  intro hresume io cmd hends
  obtain ⟨w, now, hw, hpeer, horders⟩ :=
    handle_endsDrain (settled_of_run hrun) he hphase hresume hends
  have hid : e.deviceId = d := keyed_of_run hrun d e he
  -- coming back loses no send
  have hsends : (w.resumeDrainedEntry now).entry.pendingSends = e.pendingSends := by
    rw [Edit.resumeDrainedEntry_sends, hw]
  refine ⟨_, hpeer, ?_, ?_⟩
  · by_cases hempty : w.entry.pendingSends = []
    · left
      rw [Edit.resumeDrainedEntry_idle hempty]
      rfl
    · right
      rw [(Edit.resumeDrainedEntry_dials now hempty).1]
      rfl
  · intro htakes
    have hqueue := hkept hresume htakes
    refine ⟨hsends.trans hqueue, ?_⟩
    intro hsome
    have hne : w.entry.pendingSends ≠ [] := by
      rw [hw, hqueue]
      exact hsome
    obtain ⟨-, l, hdial⟩ := Edit.resumeDrainedEntry_dials now hne
    rw [hw, hid] at hdial
    exact ⟨l, List.mem_of_mem_filter (horders hdial)⟩

/-- A session of the peer is hung up on, and a datagram for it waits for the drain to end. -/
def hungUpRun : List Label :=
  [.command (ioAt 0) (.advertised peerPrefix "peer" none),
    .command (ioAt 1) (.sendDatagram "peer" none 0 [1] 0),
    .command (ioAt 2) (.connectSucceeded "peer" 2 ⟨5, .gatt⟩),
    .command (ioAt 3) (.stalled "peer" .localClose),
    .command (ioAt 4) (.sendDatagram "peer" none 1 [2] 1)]

/-- On a run: a pipe is hung up, a datagram is sent, the link ends, and the device is dialled with
the datagram. -/
theorem resumes_of_run_hungUpRun :
    ∃ h r, system.Run h r ∧ h.map Prod.snd = hungUpRun ∧
      ∃ e', (r.handle (ioAt 5) (.centralDisconnected "peer" .localClose)).reg.peer "peer" = some e' ∧
        e'.pendingSends = [⟨1, [2], 1⟩] ∧
        ∃ l, .startConnect "peer" 0 l ∈
          (r.handle (ioAt 5) (.centralDisconnected "peer" .localClose)).actions := by
  obtain ⟨h, r, hrun, hl, hpeer, hspoils, hsends⟩ := System.Run.of_trace
    (P := fun h (r : Registry) =>
      (r.peer "peer").map (fun e => (e.phase, e.resumeAfterDrain)) =
        some (.draining 3 .localClose, true) ∧
      (∀ c ∈ duringDrain "peer" h, c.takesSends "peer" = false) ∧
      (duringDrain "peer" h).flatMap (PeerCommand.sendsTo "peer") = [⟨1, [2], 1⟩])
    hungUpRun (init_new .disabled localEndpoint) (by decide +kernel)
  obtain ⟨e, he, hf⟩ := Option.map_eq_some_iff.mp hpeer
  obtain ⟨hphase, hresume⟩ := Prod.mk.inj hf
  obtain ⟨-, hback⟩ := resumes_of_run hrun "peer" e 3 .localClose he hphase
  obtain ⟨e', he', -, hqueue⟩ :=
    hback hresume (ioAt 5) (.centralDisconnected "peer" .localClose) rfl
  obtain ⟨hkept, hdial⟩ := hqueue hspoils
  rw [hsends] at hkept hdial
  exact ⟨h, r, hrun, hl, e', he', hkept, hdial (List.cons_ne_nil _ _)⟩

/-- A `Shutdown` while the entry drains fails the send that waits: it is not there any more when
the entry comes back. -/
theorem shutdown_takes_sends :
    ∃ h r, system.Run h r ∧ h.map Prod.snd = hungUpRun ++ [.command (ioAt 5) .shutdown] ∧
      ¬ Resumes (PeerCommand.readies "peer") "peer" h r := by
  obtain ⟨h, r, hrun, hl, hpeer, hspoils, hsends, hafter⟩ := System.Run.of_trace
    (P := fun h (r : Registry) =>
      (r.peer "peer").map (fun e => (e.phase, e.resumeAfterDrain)) =
        some (.draining 3 .localClose, true) ∧
      (∀ c ∈ duringDrain "peer" h, c.readies "peer" = false) ∧
      (duringDrain "peer" h).flatMap (PeerCommand.sendsTo "peer") = [⟨1, [2], 1⟩] ∧
      ((r.handle (ioAt 6) (.centralDisconnected "peer" .localClose)).reg.peer "peer").map
        PeerEntry.pendingSends = some [])
    (hungUpRun ++ [.command (ioAt 5) .shutdown]) (init_new .disabled localEndpoint)
    (by decide +kernel)
  refine ⟨h, r, hrun, hl, ?_⟩
  intro hresumes
  obtain ⟨e, he, hf⟩ := Option.map_eq_some_iff.mp hpeer
  obtain ⟨hphase, hresume⟩ := Prod.mk.inj hf
  obtain ⟨-, hback⟩ := hresumes e 3 .localClose he hphase
  obtain ⟨e', he', -, hqueue⟩ :=
    hback hresume (ioAt 6) (.centralDisconnected "peer" .localClose) rfl
  obtain ⟨hkept, -⟩ := hqueue hspoils
  rw [hsends] at hkept
  rw [he', Option.map_some, hkept] at hafter
  cases hafter

end Registry

end IrohBle
