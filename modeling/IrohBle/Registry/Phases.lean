import IrohBle.Registry.Once

/-! # Registry.Phases: what a command does to a phase

Attempts are counted and deadlines are kept in the phase. `Phases` says once for all functions of
the registry what they make of it: a phase is kept, or the new one is entered at the reading of
the clock that the command is handled by, so that it is not past its deadline then.
-/

namespace IrohBle

open Lib Reliable Registry

/-- The phases that carry the number of an attempt. -/
def PeerPhase.isDialling : PeerPhase → Bool
  | .connecting .. | .reconnecting .. => true
  | _ => false

/-- An L2CAP channel is being opened. -/
def PeerPhase.isUpgrading : PeerPhase → Bool
  | .connected _ _ _ upgrading => upgrading
  | _ => false

/-- The last reading of the clock at which a phase may still be there. -/
def PeerPhase.dueAt : PeerPhase → Option ℕ
  | .reconnecting _ nextAt _ => some nextAt
  | .pendingDial _ deadline _ => some deadline
  | .draining since _ => some (since + drainingTimeout)
  | .restoring since => some (since + restoringTimeout)
  | .dead _ diedAt => some (diedAt + deadGcTtl)
  | _ => none

/-- When a tick dials. -/
def PeerPhase.dialAt : PeerPhase → Option ℕ
  | .reconnecting _ nextAt _ => some nextAt
  | .pendingDial _ deadline _ => some deadline
  | _ => none

/-- The phase was entered in time: it is not past its deadline, and no deadline is further away
than that of a restore. -/
def PeerPhase.Timely (clock : ℕ) (phase : PeerPhase) : Prop :=
  ∀ t ∈ phase.dueAt, clock ≤ t ∧ t ≤ clock + restoringTimeout

/-- The reading of the clock that a command is handled by. -/
def PeerCommand.clock (io : Io) : PeerCommand → ℕ
  | .tick now => now
  | _ => io.now

/-- The commands that report a failed dial of `d`. -/
def PeerCommand.failsDial (d : DeviceId) : PeerCommand → Bool
  | .connectFailed d' _ _ | .centralDisconnected d' _ => d' == d
  | _ => false

/-- The commands that start a dial, `CentralDisconnected` apart. -/
def PeerCommand.startsDial : PeerCommand → Bool
  | .advertised .. | .sendDatagram .. | .tick _ => true
  | _ => false

/-- The commands that may ask for an L2CAP channel. -/
def PeerCommand.mayUpgrade : PeerCommand → Bool
  | .connectSucceeded .. | .verifiedEndpoint .. => true
  | _ => false

/-- What a function does to the phase of an entry of `d`. -/
inductive Phases (io : Io) (cmd : PeerCommand) (d : DeviceId) (p : PeerPhase) : PeerPhase → Prop
  where
  | same : Phases io cmd d p p
  | leaves {p' : PeerPhase} (after : p'.isDialling = false)
      (upgrades : p'.isUpgrading = true → cmd.mayUpgrade = true)
      (due : p'.Timely (cmd.clock io)) : Phases io cmd d p p'
  | dials {attempt started : ℕ}
      (due : attempt = 0 ∨ ∃ nextAt reason, p = .reconnecting attempt nextAt reason ∧
        nextAt ≤ cmd.clock io)
      (before : p.isConnecting = false)
      (starts : cmd.startsDial = true ∨ ∃ cause, cmd = .centralDisconnected d cause) :
      Phases io cmd d p (.connecting attempt started .gatt)
  | fails {attempt started : ℕ} {path : ConnectPath} {reason : DisconnectReason}
      (before : p = .connecting attempt started path) (bound : attempt + 1 < maxConnectAttempts)
      (reports : cmd.failsDial d = true) : Phases io cmd d p
        (.reconnecting (attempt + 1) (io.now + reconnectBackoff (attempt + 1)) reason)
  | returns {since : ℕ} (before : p = .restoring since) (powered : cmd = .adapterStateChanged true) :
      Phases io cmd d p (.reconnecting 0 io.now .adapterOff)

namespace Turn

section Phases

variable {io : Io} {cmd : PeerCommand} {d : DeviceId} {w : Edit}

/-- A phase without a deadline that is entered from anywhere. -/
theorem phases_untimed {p p' : PeerPhase} (after : p'.isDialling = false)
    (hup : p'.isUpgrading = false) (hdue : p'.dueAt = none) : Phases io cmd d p p' := by
  refine .leaves after ?_ ?_
  · intro h
    rw [hup] at h
    cases h
  · intro t ht
    rw [hdue] at ht
    cases ht

/-- An entry dies at the reading of the clock. -/
theorem phases_dead {now : ℕ} (hclock : cmd.clock io = now) (reason : DeadReason) {p : PeerPhase} :
    Phases io cmd d p (.dead reason now) := by
  refine .leaves rfl (fun h => nomatch h) fun t ht => ?_
  have hle : deadGcTtl ≤ restoringTimeout := by decide
  rw [← Option.some.inj ht, hclock]
  omega

/-- An entry starts to drain at the reading of the clock. -/
theorem phases_draining {now : ℕ} (hclock : cmd.clock io = now) (reason : DisconnectReason)
    {p : PeerPhase} : Phases io cmd d p (.draining now reason) := by
  refine .leaves rfl (fun h => nomatch h) fun t ht => ?_
  have hle : drainingTimeout ≤ restoringTimeout := by decide
  rw [← Option.some.inj ht, hclock]
  omega

/-- An entry waits for the radio from the reading of the clock on. -/
theorem phases_restoring {now : ℕ} (hclock : cmd.clock io = now) {p : PeerPhase} :
    Phases io cmd d p (.restoring now) := by
  refine .leaves rfl (fun h => nomatch h) fun t ht => ?_
  rw [← Option.some.inj ht, hclock]
  omega

/-- A deferred dial is due within the fairness window and its jitter. -/
theorem pendingDialDeadline_bounds (now : ℕ) (p : KeyPrefix) :
    now < pendingDialDeadline now p ∧ pendingDialDeadline now p < now + secs 1 := by
  have hwindow : 0 < fairnessWindow - fairnessJitter := by decide
  have hspan : 0 < 2 * fairnessJitter := by decide
  have hlimit : fairnessWindow - fairnessJitter + 2 * fairnessJitter ≤ secs 1 := by decide
  unfold pendingDialDeadline
  dsimp only
  generalize List.foldl _ _ _ = seed
  have hseed := Nat.mod_lt seed hspan
  omega

/-- A dial that is armed counts from zero. -/
theorem phases_armForDial (w : Edit) {now : ℕ} (hclock : cmd.clock io = now)
    (deferPrefix : Option KeyPrefix) {p : PeerPhase} (before : p.isConnecting = false)
    (starts : cmd.startsDial = true ∨ ∃ cause, cmd = .centralDisconnected d cause) :
    Phases io cmd d p (w.armForDial now deferPrefix).entry.phase := by
  obtain ⟨phase, _, _, hentry, hphase⟩ := Edit.armForDial_entry w now deferPrefix
  rw [hentry]
  rcases hphase with rfl | ⟨q, rfl⟩ | rfl
  · exact phases_untimed rfl rfl rfl
  · refine .leaves rfl (fun h => nomatch h) fun t ht => ?_
    have hle : secs 1 ≤ restoringTimeout := by decide
    have hbounds := pendingDialDeadline_bounds now q
    rw [← Option.some.inj ht, hclock]
    omega
  · exact .dials (.inl rfl) before starts

/-- A failed attempt is followed by the next one, or by none. -/
theorem phases_dialFailed (w : Edit) (metric : String) (reason : DisconnectReason)
    {attempt started : ℕ} {path : ConnectPath} (hclock : cmd.clock io = io.now)
    (reports : cmd.failsDial d = true) : Phases io cmd d (.connecting attempt started path)
      (w.dialFailed io.now attempt metric reason).entry.phase := by
  rw [Edit.dialFailed_entry]
  split
  · exact phases_dead hclock _
  · rename_i hbound
    exact .fails rfl (Nat.lt_of_not_le hbound) reports

/-- A live session has no attempt to count. -/
theorem phases_of_connected {phase p : PeerPhase} (h : phase.isConnected = true)
    (hup : phase.isUpgrading = true → cmd.mayUpgrade = true) : Phases io cmd d p phase := by
  cases phase with
  | connected since channel txGen up => exact .leaves rfl hup fun _ ht => nomatch ht
  | _ => cases h

theorem phases_restart (w : Edit) (now : ℕ) (bytes : Option Bytes) (c : Option Uuid)
    {p : PeerPhase} : Phases io cmd d p (w.restartPeripheralGattPipe now bytes c).entry.phase :=
  phases_untimed rfl rfl rfl

theorem phases_drain (w : Edit) {now : ℕ} (hclock : cmd.clock io = now) (systemNow : ℕ)
    (reason : DisconnectReason) {p : PeerPhase} :
    Phases io cmd d p (w.drainToDraining now systemNow reason).entry.phase := by
  rw [Edit.drainToDraining_entry]
  exact phases_draining hclock reason

/-- Only commands about an upgrade make a session upgrade. -/
theorem phases_setUpgrading (w : Edit) {upgrading : Bool}
    (hup : upgrading = true → cmd.mayUpgrade = true) :
    Phases io cmd d w.entry.phase (w.setUpgrading upgrading).entry.phase := by
  obtain ⟨phase, hentry, ⟨since, channel, txGen, up, -, hphase⟩ | ⟨-, hphase⟩⟩ :=
    Edit.setUpgrading_entry w upgrading
  · rw [hentry, hphase]
    exact phases_of_connected rfl hup
  · rw [hentry, hphase]
    exact .same

theorem phases_setPath (w : Edit) (path : ConnectPath) :
    Phases io cmd d w.entry.phase (w.setPath path).entry.phase := by
  obtain ⟨phase, hentry, ⟨since, channel, txGen, up, -, hphase⟩ | ⟨-, hphase⟩⟩ :=
    Edit.setPath_entry w path
  · rw [hentry, hphase]
    exact phases_untimed rfl rfl rfl
  · rw [hentry, hphase]
    exact .same

/-- An advertisement starts a dial, or wakes a dead entry's. -/
theorem phases_advertised {p : KeyPrefix} {rssi : Option Int} (deferPrefix : Option KeyPrefix) :
    Phases io (.advertised p d rssi) d w.entry.phase
      (w.advertised io.now p deferPrefix).entry.phase := by
  unfold Edit.advertised
  dsimp only [Edit.modify]
  cases hphase : w.entry.phase with
  | unknown => exact phases_armForDial _ rfl _ rfl (.inl rfl)
  | discovered since =>
      dsimp only
      split
      · exact .same
      · exact phases_armForDial _ rfl _ rfl (.inl rfl)
  | dead reason diedAt =>
      cases reason with
      | maxRetries => exact phases_armForDial _ rfl _ rfl (.inl rfl)
      | drained => exact phases_armForDial _ rfl _ rfl (.inl rfl)
      | _ => exact .same
  | reconnecting attempt nextAt reason =>
      dsimp only
      split
      · rename_i hdue
        exact .dials (.inr ⟨nextAt, reason, rfl, hdue⟩) rfl (.inl rfl)
      · exact .same
  | _ => exact .same

/-- A datagram starts a dial where there is no session. -/
theorem phases_sendDatagram {target : Option EndpointId} {txGen : ℕ} {datagram : Bytes}
    {waker : Waker} : Phases io (.sendDatagram d target txGen datagram waker) d w.entry.phase
      (w.sendDatagram io target ⟨txGen, datagram, waker⟩).entry.phase := by
  unfold Edit.sendDatagram
  split
  · rename_i henqueue
    -- a send is enqueued only where the entry is live
    unfold Edit.sendDecision at henqueue
    obtain ⟨_, _, hentry, -⟩ := Edit.enqueue_entry w io ⟨txGen, datagram, waker⟩
    rw [hentry]
    exact .same
  · exact .same
  · exact .same
  · rename_i hstart
    refine .dials (.inl rfl) ?_ (.inl rfl)
    unfold Edit.sendDecision at hstart
    cases hphase : w.entry.phase with
    | connecting attempt started path =>
        rw [hphase] at hstart
        cases hstart
    | _ => rfl

/-- The end of a link drains what it was under. -/
theorem phases_centralDisconnected {cause : DisconnectCause} :
    Phases io (.centralDisconnected d cause) d w.entry.phase
      (w.centralDisconnected io.now io.systemNow cause).entry.phase := by
  unfold Edit.centralDisconnected
  dsimp only
  split
  · rename_i attempt started path hphase
    rw [hphase, Edit.refreshOn133_entry]
    exact phases_dialFailed _ _ _ rfl (beq_self_eq_true d)
  · rename_i since reason hphase
    split
    · rw [hphase]
      exact phases_armForDial _ rfl _ rfl (.inr ⟨cause, rfl⟩)
    · rw [Edit.refreshOn133_entry]
      exact phases_drain _ rfl _ _
  · rw [Edit.refreshOn133_entry, Edit.closeChannel_entry]
    exact phases_drain _ rfl _ _

/-- A fragment starts a session where there was none. -/
theorem phases_fragment {source : FragmentSource} {bytes : Bytes} :
    Phases io (.inboundGattFragment d source bytes) d w.entry.phase
      (w.inboundGattFragment io source bytes).entry.phase := by
  unfold Edit.inboundGattFragment
  dsimp only [Edit.modify]
  cases hphase : w.entry.phase with
  | connected since channel txGen up =>
      dsimp only
      split
      · exact .same
      · split
        · exact phases_restart _ _ _ _
        · exact .same
  | handshaking since channel => exact phases_untimed rfl rfl rfl
  | restoring since =>
      dsimp only
      exact .same
  | _ =>
      dsimp only
      unfold Edit.reviveByFragment
      exact phases_untimed rfl rfl rfl

/-- What a tick moves on enters its phase at that tick. -/
theorem phases_tick {tickNow : ℕ} {action : Edit.TickAction}
    (h : Edit.tickDecision io tickNow w.entry = some action) :
    Phases io (.tick tickNow) d w.entry.phase
      (w.tickApply tickNow io.systemNow action).entry.phase := by
  unfold Edit.tickDecision at h
  -- the decision says which deadline has passed
  cases hphase : w.entry.phase with
  | reconnecting attempt nextAt reason =>
      rw [hphase] at h
      dsimp only at h
      split at h
      · rename_i hdue
        obtain rfl := Option.some.inj h
        exact .dials (.inr ⟨nextAt, reason, rfl, hdue⟩) rfl (.inl rfl)
      · cases h
  | pendingDial since deadline p =>
      rw [hphase] at h
      dsimp only at h
      split at h
      · obtain rfl := Option.some.inj h
        exact .dials (.inl rfl) rfl (.inl rfl)
      · cases h
  | draining since reason =>
      rw [hphase] at h
      dsimp only at h
      split at h
      · obtain rfl := Option.some.inj h
        unfold Edit.tickApply
        dsimp only
        split
        · exact phases_armForDial _ rfl _ rfl (.inl rfl)
        · exact phases_dead rfl _
      · cases h
  | restoring since =>
      rw [hphase] at h
      dsimp only at h
      split at h
      · obtain rfl := Option.some.inj h
        exact phases_dead rfl _
      · cases h
  | connected since channel txGen up =>
      rw [hphase] at h
      dsimp only at h
      split at h
      · split at h
        · obtain rfl := Option.some.inj h
          unfold Edit.tickApply
          dsimp only
          rw [Edit.push_entry, Edit.closeChannel_entry]
          exact phases_drain _ rfl _ _
        · cases h
      · cases h
  | _ =>
      rw [hphase] at h
      cases h

/-- Every function a command may run is one of these. -/
theorem Touch.phases {f : Edit → Edit} (hf : Touch io cmd d w.entry f) :
    Phases io cmd d w.entry.phase (f w).entry.phase := by
  cases hf with
  | stampExact => exact .same
  | stampVerified _ => exact .same
  | cancelDial _ => exact phases_drain _ rfl _ _
  | drainLoser _ => exact phases_drain _ rfl _ _
  | requestUpgrade _ _ _ => exact phases_setUpgrading w fun _ => rfl
  | @subscribed _ c p _ verified =>
      -- who the device is does not touch the phase
      have hsame : (w.noteSubscriber io.now c p verified).entry.phase = w.entry.phase := by
        obtain ⟨_, _, _, _, hentry⟩ := Edit.noteSubscriber_entry w io.now c p verified
        rw [hentry]
      unfold Edit.peripheralClientSubscribed
      dsimp only
      split
      · split
        · rw [hsame]
          exact .same
        · exact phases_restart _ _ _ _
      · rw [hsame]
        exact .same
      · rw [hsame]
        exact .same
      · exact phases_restart _ _ _ _
  | unsubscribed =>
      unfold Edit.peripheralClientUnsubscribed
      dsimp only
      split
      · exact .same
      · exact phases_drain _ rfl _ _
  | advertisedSuppressed => exact .same
  | advertised => exact phases_advertised _
  | sendDatagram => exact phases_sendDatagram
  | connectSucceeded _ =>
      unfold Edit.connectSucceeded
      split
      · exact .same
      · dsimp only
        split
        · -- the session waits for its upgrade
          refine phases_of_connected ?_ fun _ => rfl
          obtain ⟨phase, hentry, ⟨since, channel, txGen, up, -, hphase⟩ | ⟨hnot, -⟩⟩ :=
            Edit.setUpgrading_entry _ true
          · change (Edit.setUpgrading true _).entry.phase.isConnected = true
            rw [hentry, hphase]
            rfl
          · cases hnot
        · exact phases_untimed rfl rfl rfl
  | connectFailed =>
      unfold Edit.connectFailed
      split
      · exact .same
      · split
        · rename_i attempt started path hphase
          rw [hphase]
          exact phases_dialFailed _ _ _ rfl (beq_self_eq_true d)
        · exact .same
  | fragment => exact phases_fragment
  | centralDisconnected => exact phases_centralDisconnected
  | adapterOff => exact phases_restoring rfl
  | adapterOn =>
      unfold Edit.adapterOn
      split
      · rename_i since hphase
        rw [hphase]
        exact .returns rfl rfl
      · exact .same
  | tick h => exact phases_tick h
  | forget =>
      unfold Edit.forget
      dsimp only
      rw [Edit.closeChannel_entry]
      exact phases_dead rfl _
  | stalled =>
      unfold Edit.stalled
      split
      · dsimp only
        -- the session drains from now on, and its channel is closed
        rw [Edit.closeChannel_entry, Edit.modify_entry, Edit.drainToDraining_entry]
        exact phases_draining rfl _
      · exact .same
  | shutdown => exact .same
  | dataPipeReady =>
      rw [Edit.dataPipeReady_phase]
      exact .same
  | openL2capSucceeded =>
      unfold Edit.openL2capSucceeded
      split
      · exact .same
      · split
        · exact phases_untimed rfl rfl rfl
        · split
          · exact phases_setPath w .l2cap
          · exact phases_setUpgrading (w.modify fun e => { e with l2capUpgradeFailed := true }) nofun
        · exact .same
  | openL2capFailed =>
      unfold Edit.openL2capFailed
      split
      · exact .same
      · split
        · exact phases_untimed rfl rfl rfl
        · exact phases_setUpgrading (w.modify fun e => { e with l2capUpgradeFailed := true }) nofun
        · exact .same
  | inboundL2capChannel =>
      unfold Edit.inboundL2capChannel
      split
      · split
        · exact .same
        · exact phases_setPath w .l2cap
        · exact .same
      · exact phases_untimed rfl rfl rfl
  | protocolVersionMismatch =>
      unfold Edit.protocolVersionMismatch
      split
      · exact .same
      · dsimp only
        rw [Edit.closeChannel_entry]
        exact phases_dead rfl _
  | handoverTimeout =>
      exact phases_setPath (w.modify fun e => { e with l2capUpgradeFailed := true }) .gatt

/-- An attempt under way is not started again. -/
theorem phase_of_startsDial {f : Edit → Edit} (hf : Touch io cmd d w.entry f)
    (hcmd : cmd.startsDial = true) (hdial : w.entry.phase.isConnecting = true) :
    (f w).entry.phase = w.entry.phase := by
  obtain ⟨attempt, started, path, hphase⟩ : ∃ attempt started path,
      w.entry.phase = .connecting attempt started path := by
    cases hphase : w.entry.phase with
    | connecting attempt started path => exact ⟨attempt, started, path, rfl⟩
    | _ =>
        rw [hphase] at hdial
        cases hdial
  cases hf with
  | advertisedSuppressed => rfl
  | advertised =>
      unfold Edit.advertised
      dsimp only [Edit.modify]
      rw [hphase]
  | sendDatagram =>
      unfold Edit.sendDatagram Edit.sendDecision
      rw [hphase]
      exact hphase
  | tick h =>
      unfold Edit.tickDecision at h
      rw [hphase] at h
      cases h
  | _ => cases hcmd

end Phases

end Turn

end IrohBle
