import IrohBle.Registry.EntrySpec
import IrohBle.Registry.Steps

/-! # Registry.Session: generations and the pipes started for them

Every function of `Registry.Entry` either keeps the entry's session (`Kept`) or starts
the next one (`Started`): the generation goes up by one exactly when a `StartDataPipe`
for it is pushed, and an entry becomes `Connected` only in a generation that has just
been started.
-/

namespace IrohBle

open Lib Reliable Registry

/-- The generation of a live session. -/
def PeerPhase.liveGen? : PeerPhase → Option ℕ
  | .connected _ _ txGen _ => some txGen
  | _ => none

/-- The session goes on or ends, and no pipe is started. -/
structure Kept (w w' : Edit) : Prop where
  deviceId : w'.entry.deviceId = w.entry.deviceId
  txGen : w'.entry.txGen = w.entry.txGen
  live : w'.entry.phase.liveGen? = w.entry.phase.liveGen? ∨ w'.entry.phase.liveGen? = none
  shaking : w'.entry.phase.isHandshaking = true → w.entry.phase.isHandshaking = true
  starts : w'.starts = w.starts

/-- The next generation is entered and its pipe started. A pipe that starts on L2CAP is
given its channel. -/
structure Started (w w' : Edit) : Prop where
  deviceId : w'.entry.deviceId = w.entry.deviceId
  txGen : w'.entry.txGen = w.entry.txGen + 1
  live : w'.entry.phase.liveGen? = some w'.entry.txGen
  starts : ∃ role path l2cap, (path = .l2cap → l2cap.isSome = true) ∧ w'.starts = w.starts ++
    [.startDataPipe w'.entry.deviceId w'.entry.lifecycleId w'.entry.txGen role
      w'.entry.targetEndpoint path l2cap]

/-- What any function does to the entry's session. -/
inductive Session (w w' : Edit) : Prop where
  | kept (h : Kept w w')
  | started (h : Started w w')

namespace Kept

variable {w w₁ w' : Edit}

theorem refl (w : Edit) : Kept w w := ⟨rfl, rfl, Or.inl rfl, id, rfl⟩

/-- The session is kept all the way. -/
theorem trans (h₁ : Kept w w₁) (h₂ : Kept w₁ w') : Kept w w' where
  deviceId := h₂.deviceId.trans h₁.deviceId
  txGen := h₂.txGen.trans h₁.txGen
  live := by
    rcases h₂.live with h | h
    · rw [h]
      exact h₁.live
    · exact Or.inr h
  shaking := h₁.shaking ∘ h₂.shaking
  starts := h₂.starts.trans h₁.starts

/-- An edit that changes neither the phase nor the generation and starts nothing. -/
theorem same (deviceId : w'.entry.deviceId = w.entry.deviceId)
    (txGen : w'.entry.txGen = w.entry.txGen) (phase : w'.entry.phase = w.entry.phase)
    (starts : w'.starts = w.starts) : Kept w w' where
  deviceId := deviceId
  txGen := txGen
  live := Or.inl (by rw [phase])
  shaking := by
    rw [phase]
    exact id
  starts := starts

/-- An edit that ends outside `Connected` and `Handshaking` and starts nothing. -/
theorem ended (deviceId : w'.entry.deviceId = w.entry.deviceId)
    (txGen : w'.entry.txGen = w.entry.txGen) (live : w'.entry.phase.liveGen? = none)
    (shaking : w'.entry.phase.isHandshaking = false) (starts : w'.starts = w.starts) :
    Kept w w' where
  deviceId := deviceId
  txGen := txGen
  live := Or.inr live
  shaking h := by
    rw [shaking] at h
    cases h
  starts := starts

/-- Edits before it that touch neither generation nor phase. -/
theorem after (h : Kept w₁ w') (deviceId : w₁.entry.deviceId = w.entry.deviceId)
    (txGen : w₁.entry.txGen = w.entry.txGen) (phase : w₁.entry.phase = w.entry.phase)
    (starts : w₁.starts = w.starts) : Kept w w' :=
  (same deviceId txGen phase starts).trans h

theorem push (w : Edit) {a : PeerAction} (ha : a.isStartDataPipe = false) : Kept w (w.push a) :=
  same rfl rfl rfl (by simp [ha])

theorem closeChannel (w : Edit) (channel : Option ChannelHandle) (lifecycleId : ℕ)
    (reason : DisconnectReason) : Kept w (w.closeChannel channel lifecycleId reason) :=
  same (by simp) (by simp) (by simp) (by simp)

theorem refreshOn133 (w : Edit) (reason : DisconnectReason) (lifecycleId : ℕ) :
    Kept w (w.refreshOn133 reason lifecycleId) :=
  same (by simp) (by simp) (by simp) (by simp)

theorem beginConnect (w : Edit) (now attempt : ℕ) : Kept w (w.beginConnect now attempt) :=
  ended rfl rfl rfl rfl (by simp)

theorem armForDial (w : Edit) (now : ℕ) (deferPrefix : Option KeyPrefix) :
    Kept w (w.armForDial now deferPrefix) := by
  rcases Edit.armForDial_entry w now deferPrefix with ⟨phase, l, u, he, hphase⟩
  refine ended (by rw [he]) (by rw [he]) ?_ ?_ (by simp) <;>
  · rw [he]
    rcases hphase with rfl | ⟨p, rfl⟩ | rfl <;> rfl

theorem clearConnectionState (w : Edit) : Kept w w.clearConnectionState :=
  same rfl rfl rfl (by simp)

theorem resumeDrainedEntry (w : Edit) (now : ℕ) : Kept w (w.resumeDrainedEntry now) :=
  (clearConnectionState w).trans (armForDial _ now none)

theorem drainToDraining (w : Edit) (now systemNow : ℕ) (reason : DisconnectReason) :
    Kept w (w.drainToDraining now systemNow reason) :=
  ended (by simp) (by simp) (by simp [PeerPhase.liveGen?]) (by simp [PeerPhase.isHandshaking])
    (by simp)

theorem dialFailed (w : Edit) (now attempt : ℕ) (metric : String) (reason : DisconnectReason) :
    Kept w (w.dialFailed now attempt metric reason) := by
  have he := Edit.dialFailed_entry w now attempt metric reason
  refine ended ?_ ?_ ?_ ?_ (by simp) <;>
  · rw [he]
    split <;> rfl

/-- A change of a `Connected` phase that keeps its generation. -/
theorem rephase {phase : PeerPhase} (he : w'.entry = { w.entry with phase })
    (hs : w'.starts = w.starts)
    (hphase : (∃ since channel txGen up since' channel' up',
        w.entry.phase = .connected since channel txGen up ∧
          phase = .connected since' channel' txGen up') ∨ phase = w.entry.phase) : Kept w w' := by
  rcases hphase with ⟨since, channel, txGen, up, since', channel', up', hw, rfl⟩ | rfl
  · refine ⟨by rw [he], by rw [he], Or.inl ?_, fun h => ?_, hs⟩
    · rw [he, hw]
      rfl
    · rw [he] at h
      cases h
  · exact same (by rw [he]) (by rw [he]) (by rw [he]) hs

theorem setUpgrading (w : Edit) (upgrading : Bool) : Kept w (w.setUpgrading upgrading) := by
  rcases Edit.setUpgrading_entry w upgrading with ⟨phase, he, hphase⟩
  refine rephase he (by simp) ?_
  rcases hphase with ⟨since, channel, txGen, up, hw, rfl⟩ | ⟨-, rfl⟩
  · exact Or.inl ⟨_, _, _, _, _, _, _, hw, rfl⟩
  · exact Or.inr rfl

theorem setPath (w : Edit) (path : ConnectPath) : Kept w (w.setPath path) := by
  rcases Edit.setPath_entry w path with ⟨phase, he, hphase⟩
  refine rephase he (by simp) ?_
  rcases hphase with ⟨since, channel, txGen, up, hw, rfl⟩ | ⟨-, rfl⟩
  · exact Or.inl ⟨_, _, _, _, _, _, _, hw, rfl⟩
  · exact Or.inr rfl

theorem requestUpgrade (w : Edit) : Kept w w.requestUpgrade :=
  (setUpgrading w true).trans (same rfl rfl rfl (by simp [Edit.requestUpgrade, PeerAction.isStartDataPipe]))

theorem enqueue (w : Edit) (io : Io) (send : PendingSend) : Kept w (w.enqueue io send) := by
  rcases Edit.enqueue_entry w io send with ⟨l, p, he, -⟩
  exact same (by rw [he]) (by rw [he]) (by rw [he]) (by simp)

/-! ## The handlers that start no pipe -/

theorem peripheralClientUnsubscribed (w : Edit) (now systemNow : ℕ) (c : Uuid) :
    Kept w (w.peripheralClientUnsubscribed now systemNow c) := by
  unfold Edit.peripheralClientUnsubscribed
  dsimp only
  split
  · exact same rfl rfl rfl rfl
  · exact after (drainToDraining _ now systemNow .remoteClose) rfl rfl rfl rfl

/-- An advertisement starts dials, not pipes. -/
theorem advertised (w : Edit) (now : ℕ) (p : KeyPrefix) (deferPrefix : Option KeyPrefix) :
    Kept w (w.advertised now p deferPrefix) := by
  unfold Edit.advertised
  dsimp only
  split
  · exact after (armForDial _ now deferPrefix) rfl rfl rfl rfl
  · split
    · exact same rfl rfl rfl rfl
    · exact after (armForDial _ now deferPrefix) rfl rfl rfl rfl
  · exact after (armForDial _ now deferPrefix) rfl rfl rfl (by simp)
  · exact after (armForDial _ now deferPrefix) rfl rfl rfl (by simp)
  · rename_i attempt _ _ _
    split
    · exact after (beginConnect _ now attempt) rfl rfl rfl rfl
    · exact same rfl rfl rfl rfl
  · exact same rfl rfl rfl rfl

theorem sendDatagram (w : Edit) (io : Io) (target : Option EndpointId) (send : PendingSend) :
    Kept w (w.sendDatagram io target send) := by
  unfold Edit.sendDatagram
  split
  · exact enqueue _ _ _
  · exact push w rfl
  · exact after (push _ rfl) rfl rfl rfl rfl
  · exact after (beginConnect _ io.now 0) rfl rfl rfl rfl

/-- No session comes of a failed dial. -/
theorem connectFailed (w : Edit) (now lifecycleId : ℕ) (error : String) :
    Kept w (w.connectFailed now lifecycleId error) := by
  unfold Edit.connectFailed
  split
  · exact refl _
  · split
    · rename_i attempt _ _ _
      exact after (dialFailed _ now attempt error .timeout) rfl rfl rfl
        (by simp [PeerAction.isStartDataPipe])
    · exact refl _

/-- A broken link starts no pipe. -/
theorem centralDisconnected (w : Edit) (now systemNow : ℕ) (cause : DisconnectCause) :
    Kept w (w.centralDisconnected now systemNow cause) := by
  unfold Edit.centralDisconnected
  dsimp only
  split
  · rename_i attempt _ _ _
    refine trans ?_ (refreshOn133 _ _ _)
    exact after (dialFailed _ now attempt _ _) rfl rfl rfl (by simp)
  · split
    · exact resumeDrainedEntry _ _
    · exact (drainToDraining _ now systemNow _).trans (refreshOn133 _ _ _)
  · exact ((drainToDraining _ now systemNow _).trans (closeChannel _ _ _ _)).trans
      (refreshOn133 _ _ _)

theorem adapterOff (w : Edit) (now : ℕ) : Kept w (w.adapterOff now) :=
  ended rfl rfl rfl rfl (by simp [Edit.adapterOff])

theorem adapterOn (w : Edit) (now : ℕ) : Kept w (w.adapterOn now) := by
  unfold Edit.adapterOn
  split
  · exact ended rfl rfl rfl rfl rfl
  · exact refl _

/-- A tick starts no pipe. -/
theorem tickApply (w : Edit) (tickNow systemNow : ℕ) (action : Edit.TickAction) :
    Kept w (w.tickApply tickNow systemNow action) := by
  cases action with
  | startConnect attempt => exact beginConnect _ _ _
  | pendingDialExpired => exact beginConnect _ _ _
  | drainingToDead =>
      unfold Edit.tickApply
      dsimp only
      split
      · exact resumeDrainedEntry _ _
      · exact ended rfl rfl rfl rfl rfl
  | restoringToDead => exact ended rfl rfl rfl rfl rfl
  | connectedWedged =>
      exact ((drainToDraining w tickNow systemNow .linkDead).trans (closeChannel _ _ _ _)).trans
        (push _ rfl)

theorem forget (w : Edit) (now : ℕ) : Kept w (w.forget now) :=
  ended (by simp [Edit.forget]) (by simp [Edit.forget]) (by simp [Edit.forget, PeerPhase.liveGen?])
    (by simp [Edit.forget, PeerPhase.isHandshaking]) (by simp [Edit.forget])

/-- The session of the pipe that ended is over. -/
theorem stalled (w : Edit) (now systemNow : ℕ) (cause : StallCause) :
    Kept w (w.stalled now systemNow cause) := by
  unfold Edit.stalled
  split
  · exact ended (by simp) (by simp) (by simp [PeerPhase.liveGen?]) (by simp [PeerPhase.isHandshaking])
      (by simp)
  · exact refl _

theorem shutdown (w : Edit) : Kept w w.shutdown := same rfl rfl rfl (by simp [Edit.shutdown])

theorem protocolVersionMismatch (w : Edit) (now systemNow lifecycleId : ℕ) (got want : UInt8) :
    Kept w (w.protocolVersionMismatch now systemNow lifecycleId got want) := by
  unfold Edit.protocolVersionMismatch
  split
  · exact refl _
  · exact ended (by simp) (by simp) (by simp [PeerPhase.liveGen?]) (by simp [PeerPhase.isHandshaking])
      (by simp)

/-- A pipe that arrives was started before. -/
theorem dataPipeReady (w : Edit) (io : Io) (txGen : ℕ) (handles : PipeHandles) :
    Kept w (w.dataPipeReady io txGen handles) := by
  by_cases h : w.entry.txGen = txGen
  · rcases Edit.dataPipeReady_entry w io txGen handles h with ⟨l, l', he⟩
    refine same (by rw [he]) (by rw [he]) (by rw [he]) ?_
    simp [Edit.dataPipeReady, h]
  · have hsame : w.dataPipeReady io txGen handles = w := by
      simp [Edit.dataPipeReady, h]
    rw [hsame]
    exact refl _

theorem l2capHandoverTimeout (w : Edit) : Kept w w.l2capHandoverTimeout :=
  after (setPath _ .gatt) rfl rfl rfl rfl

end Kept

/-- The commands that may start a pipe. -/
def PeerCommand.mayStart : PeerCommand → Bool
  | .connectSucceeded .. | .inboundGattFragment .. | .inboundL2capChannel ..
  | .peripheralClientSubscribed .. | .openL2capSucceeded .. | .openL2capFailed .. => true
  | _ => false

/-- Every other command starts none. -/
theorem Turn.Touch.kept {io : Io} {cmd : PeerCommand} {d : DeviceId} {e : PeerEntry}
    {f : Edit → Edit} (hf : Touch io cmd d e f) (hcmd : cmd.mayStart = false) (w : Edit) :
    Kept w (f w) := by
  -- the functions of the commands that may start a session are excluded by `hcmd`
  cases hf with
  | stampExact => exact .same rfl rfl rfl rfl
  | stampVerified => exact .same rfl rfl rfl rfl
  | cancelDial => exact .drainToDraining _ _ _ _
  | drainLoser => exact .drainToDraining _ _ _ _
  | requestUpgrade => exact .requestUpgrade _
  | unsubscribed => exact .peripheralClientUnsubscribed _ _ _ _
  | advertisedSuppressed => exact .same rfl rfl rfl rfl
  | advertised => exact .advertised _ _ _ _
  | sendDatagram => exact .sendDatagram _ _ _ _
  | connectFailed => exact .connectFailed _ _ _ _
  | centralDisconnected => exact .centralDisconnected _ _ _ _
  | adapterOff => exact .adapterOff _ _
  | adapterOn => exact .adapterOn _ _
  | tick => exact .tickApply _ _ _ _
  | forget => exact .forget _ _
  | stalled => exact .stalled _ _ _ _
  | shutdown => exact .shutdown _
  | dataPipeReady => exact .dataPipeReady _ _ _ _
  | protocolVersionMismatch => exact .protocolVersionMismatch _ _ _ _ _ _
  | handoverTimeout => exact .l2capHandoverTimeout _
  | subscribed => cases hcmd
  | connectSucceeded => cases hcmd
  | fragment => cases hcmd
  | openL2capSucceeded => cases hcmd
  | openL2capFailed => cases hcmd
  | inboundL2capChannel => cases hcmd

namespace Session

variable {w w₁ w' : Edit}

theorem refl (w : Edit) : Session w w := .kept (.refl w)

/-- An edit that leaves the phase alone, followed by another one. -/
theorem after (h : Session w₁ w') (deviceId : w₁.entry.deviceId = w.entry.deviceId)
    (txGen : w₁.entry.txGen = w.entry.txGen) (phase : w₁.entry.phase = w.entry.phase)
    (starts : w₁.starts = w.starts) : Session w w' := by
  cases h with
  | kept hk => exact .kept (hk.after deviceId txGen phase starts)
  | started hs =>
      refine .started ⟨hs.deviceId.trans deviceId, by rw [hs.txGen, txGen], hs.live, ?_⟩
      rw [← starts]
      exact hs.starts

/-- An edit followed by one that asks for an upgrade. -/
theorem thenRequestUpgrade (h : Session w w₁) : Session w w₁.requestUpgrade := by
  have hk := Kept.requestUpgrade w₁
  cases h with
  | kept h₁ => exact .kept (h₁.trans hk)
  | started hs =>
      rcases Edit.setUpgrading_entry w₁ true with ⟨phase, he, hphase⟩
      have hentry : w₁.requestUpgrade.entry =
          { w₁.entry with phase, upgradeGen := w₁.entry.upgradeGen + 1 } := by
        simp [Edit.requestUpgrade, he]
      refine .started ⟨hk.deviceId.trans hs.deviceId, hk.txGen.trans hs.txGen, ?_, ?_⟩
      · rw [hentry]
        dsimp only
        rw [← hs.live]
        rcases hphase with ⟨since, channel, txGen, up, hw, rfl⟩ | ⟨-, rfl⟩
        · rw [hw]
          rfl
        · rfl
      · rw [hk.starts, hentry]
        exact hs.starts

/-- Metrics and the like may follow. -/
theorem thenPush (h : Session w w₁) {a : PeerAction} (ha : a.isStartDataPipe = false) :
    Session w (w₁.push a) := by
  cases h with
  | kept h₁ => exact .kept (h₁.trans (.push w₁ ha))
  | started hs =>
      refine .started ⟨hs.deviceId, hs.txGen, hs.live, ?_⟩
      rw [(Kept.push w₁ ha).starts]
      exact hs.starts

/-- Enter `Connected` in the next generation and start its pipe. -/
theorem enterConnected (w : Edit) (now : ℕ) (channel : ChannelHandle) (role : ConnectRole)
    (path : ConnectPath) (l2cap : Option L2capChannel)
    (hpath : path = .l2cap → l2cap.isSome = true) :
    Session w ((w.enterConnected now channel).startDataPipe role path l2cap) :=
  .started ⟨rfl, rfl, rfl, role, path, l2cap, hpath, by simp⟩

theorem restartPeripheralGattPipe (w : Edit) (now : ℕ) (first : Option Bytes) (char : Option Uuid) :
    Session w (w.restartPeripheralGattPipe now first char) :=
  .started ⟨rfl, rfl, rfl, .peripheral, .gatt, none, by simp,
    by simp [Edit.restartPeripheralGattPipe]⟩

/-! ## The handlers that may start a pipe -/

/-- A second characteristic keeps the session. -/
theorem peripheralClientSubscribed (w : Edit) (now : ℕ) (c : Uuid) (p : Option KeyPrefix)
    (verified : Option EndpointId) :
    Session w (w.peripheralClientSubscribed now c p verified) := by
  unfold Edit.peripheralClientSubscribed
  dsimp only
  rcases Edit.noteSubscriber_entry w now c p verified with ⟨cs, kp, v, va, he⟩
  generalize hw₁ : w.noteSubscriber now c p verified = w₁ at he
  have hs : w₁.starts = w.starts := by
    rw [← hw₁, Edit.noteSubscriber_starts]
  suffices h : Session w₁ _ from h.after (by rw [he]) (by rw [he]) (by rw [he]) hs
  split
  · split
    · exact refl _
    · exact restartPeripheralGattPipe _ _ _ _
  · exact refl _
  · exact refl _
  · exact restartPeripheralGattPipe _ _ _ _

/-- Without an upgrade to wait for, the dial starts its session; a stale success starts nothing.
-/
theorem connectSucceeded (w : Edit) (now lifecycleId : ℕ) (channel : ChannelHandle)
    (upgrade : PeerEntry → Bool) :
    Session w (w.connectSucceeded now lifecycleId channel upgrade) := by
  unfold Edit.connectSucceeded
  split
  · exact refl _
  · dsimp only
    have hstart : Session w (((w.modify fun e => { e with
        consecutiveFailures := 0, subscribedChars := ∅ }).push
        (.readVersion w.entry.deviceId lifecycleId)).enterConnected now channel |>.startDataPipe
        w.entry.role .gatt none) :=
      after (enterConnected _ now channel w.entry.role .gatt none (by simp)) rfl rfl rfl
        (by simp [PeerAction.isStartDataPipe])
    split
    · exact hstart.thenRequestUpgrade
    · exact hstart

/-- The entry comes back to life with a session. -/
theorem reviveByFragment (w : Edit) (now : ℕ) (source : FragmentSource) (bytes : Bytes) :
    Session w (w.reviveByFragment now source bytes) := by
  unfold Edit.reviveByFragment
  dsimp only
  split
  · exact after (enterConnected _ now _ _ .gatt none (by simp)) rfl rfl rfl rfl
  · exact after (enterConnected _ now _ _ .gatt none (by simp)) rfl rfl rfl (by simp)

/-- A fragment is delivered, kept or dropped in its session, or starts the next one. -/
theorem inboundGattFragment (w : Edit) (io : Io) (source : FragmentSource) (bytes : Bytes) :
    Session w (w.inboundGattFragment io source bytes) := by
  unfold Edit.inboundGattFragment
  dsimp only
  split
  · exact after (enterConnected _ io.now _ _ .gatt none (by simp)) rfl rfl rfl rfl
  · split
    · exact .kept (.same rfl rfl rfl rfl)
    · split
      · exact after (restartPeripheralGattPipe _ io.now (some bytes) none) rfl rfl rfl rfl
      · exact .kept (.same rfl rfl rfl rfl)
  · exact .kept (.same rfl rfl rfl rfl)
  · exact after (reviveByFragment _ io.now source bytes) rfl rfl rfl rfl

/-- A handshake starts its session on the channel; a live session is kept. -/
theorem openL2capSucceeded (w : Edit) (now lifecycleId upgradeGen : ℕ) (channel : L2capChannel) :
    Session w (w.openL2capSucceeded now lifecycleId upgradeGen channel) := by
  unfold Edit.openL2capSucceeded
  split
  · exact refl _
  · split
    · exact after (enterConnected _ now _ _ .l2cap (some channel) (by simp)) rfl rfl rfl rfl
    · split
      · exact .kept ((Kept.setPath w .l2cap).trans (.push _ rfl))
      · exact .kept (.after (.setUpgrading _ false) rfl rfl rfl rfl)
    · exact refl _

/-- The handshake's session starts on GATT. -/
theorem openL2capFailed (w : Edit) (now lifecycleId upgradeGen : ℕ) (error : String) :
    Session w (w.openL2capFailed now lifecycleId upgradeGen error) := by
  unfold Edit.openL2capFailed
  split
  · exact refl _
  · split
    · refine thenPush ?_ rfl
      exact after (enterConnected _ now _ _ .gatt none (by simp)) rfl rfl rfl rfl
    · exact .kept (.after (.setUpgrading _ false) rfl rfl rfl rfl)
    · exact refl _

/-- A live pipe is kept; without one a session starts. -/
theorem inboundL2capChannel (w : Edit) (now : ℕ) (channel : L2capChannel) :
    Session w (w.inboundL2capChannel now channel) := by
  unfold Edit.inboundL2capChannel
  split
  · split
    · exact .kept (.push w rfl)
    · exact .kept (((Kept.setPath w .l2cap).trans (.push _ rfl)).trans (.push _ rfl))
    · exact .kept (.push w rfl)
  · exact after (enterConnected _ now _ _ .l2cap (some channel) (by simp)) rfl rfl rfl (by simp)

end Session

/-- Every function a command may run keeps the session or starts the next one. -/
theorem Turn.Touch.session {io : Io} {cmd : PeerCommand} {d : DeviceId} {e : PeerEntry}
    {f : Edit → Edit} (hf : Touch io cmd d e f) (w : Edit) : Session w (f w) := by
  by_cases hcmd : cmd.mayStart = true
  · cases hf with
    | subscribed => exact .peripheralClientSubscribed _ _ _ _ _
    | connectSucceeded => exact .connectSucceeded _ _ _ _ _
    | fragment => exact .inboundGattFragment _ _ _ _
    | openL2capSucceeded => exact .openL2capSucceeded _ _ _ _ _
    | openL2capFailed => exact .openL2capFailed _ _ _ _ _
    | inboundL2capChannel => exact .inboundL2capChannel _ _ _
    | _ => cases hcmd
  · exact .kept (hf.kept (by simpa using hcmd) w)

end IrohBle
