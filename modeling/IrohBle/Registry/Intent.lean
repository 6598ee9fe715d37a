import IrohBle.Registry.Close
import IrohBle.Registry.Once

/-! # Registry.Intent: the endpoint a dial is meant for

A send may name the endpoint that it is meant for. The entry keeps the target of the latest such
send that it buffers, over every retry, and gives it to the pipe that is started in the end, so
that the driver binds the right reservation to it. It must not outlive the attempt: a pipe that is
ready clears it, and so does everything that leads to `Dead`.

* `Aims`: a function keeps the target, or clears it and leaves the entry `Dead`.
* `intent`: the target of the latest buffered send since the last clearance, read off the history.
* `intent_of_run`: every pipe that is started carries it, and a `Dead` entry has no target.
-/

namespace IrohBle

open Lib Reliable Registry

/-- The target is kept, and the entry is not `Dead` unless it was; or it is cleared, and the entry
is `Dead`. -/
inductive Aims (w w' : Edit) : Prop where
  | keeps (target : w'.entry.targetEndpoint = w.entry.targetEndpoint)
      (dead : w'.entry.phase.isDead = true → w.entry.phase.isDead = true)
  | clears (target : w'.entry.targetEndpoint = none) (dead : w'.entry.phase.isDead = true)

namespace Aims

variable {w w₁ w' : Edit}

theorem refl (w : Edit) : Aims w w := .keeps rfl id

theorem same (target : w'.entry.targetEndpoint = w.entry.targetEndpoint)
    (phase : w'.entry.phase = w.entry.phase) : Aims w w' :=
  .keeps target fun hdead => phase ▸ hdead

/-- The entry that is left is not `Dead`. -/
theorem alive (target : w'.entry.targetEndpoint = w.entry.targetEndpoint)
    (alive : w'.entry.phase.isDead = false) : Aims w w' :=
  .keeps target fun hdead => by rw [alive] at hdead; cases hdead

/-- A function that leaves target and phase alone, before another one. -/
theorem after (h : Aims w₁ w') (target : w₁.entry.targetEndpoint = w.entry.targetEndpoint)
    (phase : w₁.entry.phase = w.entry.phase) : Aims w w' := by
  cases h with
  | keeps htarget hdead => exact .keeps (htarget.trans target) fun h => phase ▸ hdead h
  | clears htarget hdead => exact .clears htarget hdead

/-- The same, where the entry between them is not `Dead`. -/
theorem after_alive (h : Aims w₁ w') (target : w₁.entry.targetEndpoint = w.entry.targetEndpoint)
    (alive : w₁.entry.phase.isDead = false) : Aims w w' := by
  cases h with
  | keeps htarget hdead =>
      refine .keeps (htarget.trans target) ?_
      intro hw'
      have hw₁ := hdead hw'
      rw [alive] at hw₁
      cases hw₁
  | clears htarget hdead => exact .clears htarget hdead

/-- A function that leaves target and phase alone, after another one. -/
theorem before (h : Aims w w₁) (target : w'.entry.targetEndpoint = w₁.entry.targetEndpoint)
    (phase : w'.entry.phase = w₁.entry.phase) : Aims w w' := by
  cases h with
  | keeps htarget hdead => exact .keeps (target.trans htarget) fun h => hdead (phase ▸ h)
  | clears htarget hdead => exact .clears (target.trans htarget) (phase ▸ hdead)

/-- A drained entry keeps its target: it may dial again. -/
theorem drainToDraining (w : Edit) (now systemNow : ℕ) (reason : DisconnectReason) :
    Aims w (w.drainToDraining now systemNow reason) := by
  apply alive
  · rw [Edit.drainToDraining_entry]
  · rw [Edit.drainToDraining_entry]
    rfl

/-- A dial that is armed keeps the target it is for. -/
theorem armForDial (w : Edit) (now : ℕ) (deferPrefix : Option KeyPrefix) :
    Aims w (w.armForDial now deferPrefix) := by
  obtain ⟨phase, _, _, he, hphase⟩ := Edit.armForDial_entry w now deferPrefix
  apply alive
  · rw [he]
  · rw [he]
    rcases hphase with rfl | ⟨p, rfl⟩ | rfl <;> rfl

/-- A revived entry was dead, and had none. -/
theorem clearAndArm (w : Edit) (now : ℕ) (deferPrefix : Option KeyPrefix) :
    Aims w (w.clearConnectionState.armForDial now deferPrefix) := by
  obtain ⟨phase, _, _, he, hphase⟩ :=
    Edit.armForDial_entry w.clearConnectionState now deferPrefix
  apply alive
  · rw [he]
    rfl
  · rw [he]
    rcases hphase with rfl | ⟨p, rfl⟩ | rfl <;> rfl

/-- The next attempt is for the same target; giving up clears it. -/
theorem dialFailed (w : Edit) (now attempt : ℕ) (metric : String) (reason : DisconnectReason) :
    Aims w (w.dialFailed now attempt metric reason) := by
  have he := Edit.dialFailed_entry w now attempt metric reason
  split at he
  · apply clears
    · rw [he]
    · rw [he]
      rfl
  · apply alive
    · rw [he]
    · rw [he]
      rfl

/-- An entry that is `Connected` stays so. -/
theorem setUpgrading (w : Edit) (upgrading : Bool) : Aims w (w.setUpgrading upgrading) := by
  obtain ⟨phase, he, hphase⟩ := Edit.setUpgrading_entry w upgrading
  rcases hphase with ⟨since, channel, txGen, up, -, rfl⟩ | ⟨-, rfl⟩
  · apply alive
    · rw [he]
    · rw [he]
      rfl
  · exact same (by rw [he]) (by rw [he])

/-- The path of a session is not about the target. -/
theorem setPath (w : Edit) (path : ConnectPath) : Aims w (w.setPath path) := by
  obtain ⟨phase, he, hphase⟩ := Edit.setPath_entry w path
  rcases hphase with ⟨since, channel, txGen, up, -, rfl⟩ | ⟨-, rfl⟩
  · apply alive
    · rw [he]
    · rw [he]
      rfl
  · exact same (by rw [he]) (by rw [he])

theorem requestUpgrade (w : Edit) : Aims w w.requestUpgrade :=
  (setUpgrading w true).before rfl rfl

theorem closeChannel (h : Aims w w₁) (channel : Option ChannelHandle) (lifecycleId : ℕ)
    (reason : DisconnectReason) : Aims w (w₁.closeChannel channel lifecycleId reason) := by
  have he := Edit.closeChannel_entry w₁ channel lifecycleId reason
  exact h.before (by rw [he]) (by rw [he])

theorem refreshOn133 (h : Aims w w₁) (reason : DisconnectReason) (lifecycleId : ℕ) :
    Aims w (w₁.refreshOn133 reason lifecycleId) := by
  have he := Edit.refreshOn133_entry w₁ reason lifecycleId
  exact h.before (by rw [he]) (by rw [he])

/-! ## The handlers -/

/-- A session that the peer starts leaves the target where it is. -/
theorem peripheralClientSubscribed (w : Edit) (now : ℕ) (c : Uuid) (p : Option KeyPrefix)
    (verified : Option EndpointId) : Aims w (w.peripheralClientSubscribed now c p verified) := by
  obtain ⟨_, _, _, _, he⟩ := Edit.noteSubscriber_entry w now c p verified
  unfold Edit.peripheralClientSubscribed
  dsimp only
  generalize w.noteSubscriber now c p verified = w₁ at he
  suffices h : Aims w₁ _ from h.after (by rw [he]) (by rw [he])
  split
  · split
    · exact refl _
    · exact alive rfl rfl
  · exact refl _
  · exact refl _
  · exact alive rfl rfl

theorem peripheralClientUnsubscribed (w : Edit) (now systemNow : ℕ) (c : Uuid) :
    Aims w (w.peripheralClientUnsubscribed now systemNow c) := by
  unfold Edit.peripheralClientUnsubscribed
  dsimp only
  split
  · exact same rfl rfl
  · exact (drainToDraining _ now systemNow _).after rfl rfl

theorem advertised (w : Edit) (now : ℕ) (p : KeyPrefix) (deferPrefix : Option KeyPrefix) :
    Aims w (w.advertised now p deferPrefix) := by
  unfold Edit.advertised
  dsimp only
  split
  · exact (armForDial _ now deferPrefix).after rfl rfl
  · split
    · exact same rfl rfl
    · exact (armForDial _ now deferPrefix).after rfl rfl
  · exact (clearAndArm _ now deferPrefix).after rfl rfl
  · exact (clearAndArm _ now deferPrefix).after rfl rfl
  · split
    · exact alive rfl rfl
    · exact same rfl rfl
  · exact same rfl rfl

theorem connectSucceeded (w : Edit) (now lifecycleId : ℕ) (channel : ChannelHandle)
    (upgrade : PeerEntry → Bool) : Aims w (w.connectSucceeded now lifecycleId channel upgrade) := by
  unfold Edit.connectSucceeded
  split
  · exact refl w
  · dsimp only
    split
    · exact (requestUpgrade _).after_alive rfl rfl
    · exact alive rfl rfl

theorem connectFailed (w : Edit) (now lifecycleId : ℕ) (error : String) :
    Aims w (w.connectFailed now lifecycleId error) := by
  unfold Edit.connectFailed
  split
  · exact refl w
  · split
    · exact (dialFailed _ now _ error .timeout).after rfl rfl
    · exact refl w

/-- A fragment keeps the target, whatever session it starts. -/
theorem inboundGattFragment (w : Edit) (io : Io) (source : FragmentSource) (bytes : Bytes) :
    Aims w (w.inboundGattFragment io source bytes) := by
  unfold Edit.inboundGattFragment
  dsimp only
  split
  · exact alive rfl rfl
  · split
    · exact same rfl rfl
    · split
      · exact alive rfl rfl
      · exact same rfl rfl
  · exact same rfl rfl
  · unfold Edit.reviveByFragment
    dsimp only
    split <;> exact alive rfl rfl

/-- A broken link keeps the target, or gives it up with the dial. -/
theorem centralDisconnected (w : Edit) (now systemNow : ℕ) (cause : DisconnectCause) :
    Aims w (w.centralDisconnected now systemNow cause) := by
  unfold Edit.centralDisconnected
  dsimp only
  split
  · rename_i attempt _ _ _
    apply refreshOn133
    exact (dialFailed _ now attempt _ _).after rfl rfl
  · split
    · exact clearAndArm w now none
    · apply refreshOn133
      exact drainToDraining w now systemNow _
  · apply refreshOn133
    apply closeChannel
    exact drainToDraining w now systemNow _

/-- The dial is taken up again for the same target. -/
theorem adapterOn (w : Edit) (now : ℕ) : Aims w (w.adapterOn now) := by
  unfold Edit.adapterOn
  split
  · exact alive rfl rfl
  · exact refl w

/-- An entry that dies in a tick loses its target. -/
theorem tickApply (w : Edit) (tickNow systemNow : ℕ) (action : Edit.TickAction) :
    Aims w (w.tickApply tickNow systemNow action) := by
  cases action with
  | startConnect attempt => exact alive rfl rfl
  | pendingDialExpired => exact alive rfl rfl
  | drainingToDead =>
      unfold Edit.tickApply
      dsimp only
      split
      · exact clearAndArm w tickNow none
      · exact clears rfl rfl
  | restoringToDead => exact clears rfl rfl
  | connectedWedged =>
      have hdrain := drainToDraining w tickNow systemNow .linkDead
      exact (hdrain.closeChannel _ _ _).before rfl rfl

/-- A forgotten one too. -/
theorem forget (w : Edit) (now : ℕ) : Aims w (w.forget now) := by
  apply clears
  · simp [Edit.forget]
  · simp [Edit.forget, PeerPhase.isDead]

/-- A pipe's end keeps it for the sends to come. -/
theorem stalled (w : Edit) (now systemNow : ℕ) (cause : StallCause) :
    Aims w (w.stalled now systemNow cause) := by
  unfold Edit.stalled
  split
  · dsimp only
    apply closeChannel
    exact (drainToDraining w now systemNow _).before rfl rfl
  · exact refl w

/-- The entry dies without a target. -/
theorem protocolVersionMismatch (w : Edit) (now systemNow lifecycleId : ℕ) (got want : UInt8) :
    Aims w (w.protocolVersionMismatch now systemNow lifecycleId got want) := by
  unfold Edit.protocolVersionMismatch
  split
  · exact refl w
  · dsimp only
    apply closeChannel
    exact clears rfl rfl

/-- An upgrade is of a session, whose pipe had the target. -/
theorem openL2capSucceeded (w : Edit) (now lifecycleId upgradeGen : ℕ) (channel : L2capChannel) :
    Aims w (w.openL2capSucceeded now lifecycleId upgradeGen channel) := by
  unfold Edit.openL2capSucceeded
  split
  · exact refl w
  · split
    · exact alive rfl rfl
    · split
      · exact (setPath w .l2cap).before rfl rfl
      · exact (setUpgrading _ false).after rfl rfl
    · exact refl w

theorem openL2capFailed (w : Edit) (now lifecycleId upgradeGen : ℕ) (error : String) :
    Aims w (w.openL2capFailed now lifecycleId upgradeGen error) := by
  unfold Edit.openL2capFailed
  split
  · exact refl w
  · split
    · exact alive rfl rfl
    · exact (setUpgrading _ false).after rfl rfl
    · exact refl w

theorem inboundL2capChannel (w : Edit) (now : ℕ) (channel : L2capChannel) :
    Aims w (w.inboundL2capChannel now channel) := by
  unfold Edit.inboundL2capChannel
  split
  · split
    · exact same rfl rfl
    · exact (setPath w .l2cap).before rfl rfl
    · exact same rfl rfl
  · exact alive rfl rfl

end Aims

/-- The commands that tell the entry of `d` what it is to aim at. -/
def PeerCommand.retargets (d : DeviceId) : PeerCommand → Bool
  | .sendDatagram d' .. | .dataPipeReady d' .. => decide (d' = d)
  | _ => false

/-- Every function of another command keeps the target, or clears it with the entry. -/
theorem Turn.Touch.aims {io : Io} {cmd : PeerCommand} {d : DeviceId} {e : PeerEntry}
    {f : Edit → Edit} (hf : Touch io cmd d e f) (hcmd : cmd.retargets d = false) (w : Edit) :
    Aims w (f w) := by
  -- only the two excluded commands set a target
  cases hf with
  | stampExact => exact .same rfl rfl
  | stampVerified => exact .same rfl rfl
  | cancelDial => exact .drainToDraining w _ _ _
  | drainLoser => exact .drainToDraining w _ _ _
  | requestUpgrade => exact .requestUpgrade w
  | subscribed => exact .peripheralClientSubscribed w _ _ _ _
  | unsubscribed => exact .peripheralClientUnsubscribed w _ _ _
  | advertisedSuppressed => exact .same rfl rfl
  | advertised => exact .advertised w _ _ _
  | sendDatagram => simp [PeerCommand.retargets] at hcmd
  | connectSucceeded => exact .connectSucceeded w _ _ _ _
  | connectFailed => exact .connectFailed w _ _ _
  | fragment => exact .inboundGattFragment w _ _ _
  | centralDisconnected => exact .centralDisconnected w _ _ _
  | adapterOff => exact .alive rfl rfl
  | adapterOn => exact .adapterOn w _
  | tick => exact .tickApply w _ _ _
  | forget => exact .forget w _
  | stalled => exact .stalled w _ _ _
  | shutdown => exact .same rfl rfl
  | dataPipeReady => simp [PeerCommand.retargets] at hcmd
  | openL2capSucceeded => exact .openL2capSucceeded w _ _ _ _
  | openL2capFailed => exact .openL2capFailed w _ _ _ _
  | inboundL2capChannel => exact .inboundL2capChannel w _ _
  | protocolVersionMismatch => exact .protocolVersionMismatch w _ _ _ _ _
  | handoverTimeout => exact (Aims.setPath _ .gatt).after rfl rfl

/-- A fresh entry has no target to lose. -/
theorem Turn.TouchFresh.aims {io : Io} {cmd : PeerCommand} {d : DeviceId} {f : Edit → Edit}
    (hf : TouchFresh io cmd d f) (w : Edit) : Aims w (f w) := by
  cases hf with
  | fragment => exact .alive rfl rfl
  | inboundL2capChannel => exact .alive rfl rfl

/-! ## Sends and pipes that are ready -/

/-- The send is kept in the entry's queue. -/
def Edit.SendDecision.holds : Edit.SendDecision → Bool
  | .buffer | .startAndEnqueue => true
  | _ => false

namespace Edit

/-- A send that is held names the target, if it names one. -/
theorem sendDatagram_target (w : Edit) (io : Io) (target : Option EndpointId) (send : PendingSend) :
    (w.sendDatagram io target send).entry.targetEndpoint =
      if (sendDecision send.txGen w.entry).holds then target.or w.entry.targetEndpoint
      else w.entry.targetEndpoint := by
  unfold sendDatagram
  cases sendDecision send.txGen w.entry with
  | enqueue =>
      obtain ⟨_, _, he, -⟩ := enqueue_entry w io send
      rw [he]
      rfl
  | reject => rfl
  | buffer => rfl
  | startAndEnqueue => rfl

/-- A send does not kill the entry. -/
theorem sendDatagram_dead (w : Edit) (io : Io) (target : Option EndpointId) (send : PendingSend)
    (hdead : (w.sendDatagram io target send).entry.phase.isDead = true) :
    w.entry.phase.isDead = true ∧ (sendDecision send.txGen w.entry).holds = false := by
  have hphase : w.entry.phase.isDead = true := by
    unfold sendDatagram at hdead
    cases hdecide : sendDecision send.txGen w.entry with
    | enqueue =>
        obtain ⟨_, _, he, -⟩ := enqueue_entry w io send
        rw [hdecide] at hdead
        dsimp only at hdead
        rw [he] at hdead
        exact hdead
    | reject =>
        rw [hdecide] at hdead
        exact hdead
    | buffer =>
        rw [hdecide] at hdead
        exact hdead
    | startAndEnqueue =>
        rw [hdecide] at hdead
        cases hdead
  refine ⟨hphase, ?_⟩
  unfold sendDecision
  cases hp : w.entry.phase with
  | dead reason diedAt => rfl
  | _ =>
      rw [hp] at hphase
      cases hphase

/-- The pipe of the current generation has taken the target along. -/
theorem dataPipeReady_target (w : Edit) (io : Io) (txGen : ℕ) (handles : PipeHandles) :
    (w.dataPipeReady io txGen handles).entry.targetEndpoint =
      if w.entry.txGen = txGen then none else w.entry.targetEndpoint := by
  by_cases hgen : w.entry.txGen = txGen
  · obtain ⟨_, _, he⟩ := dataPipeReady_entry w io txGen handles hgen
    rw [he, if_pos hgen]
  · rw [dataPipeReady, if_pos hgen, if_neg hgen]

end Edit

namespace Registry

open Turn

/-! ## Dead entries -/

/-- Every function leaves a `Dead` entry without a target, if it finds it so. -/
theorem touch_dead {io : Io} {cmd : PeerCommand} {d : DeviceId} {f : Edit → Edit} {w : Edit}
    (hf : Touch io cmd d w.entry f)
    (hold : w.entry.phase.isDead = true → w.entry.targetEndpoint = none)
    (hdead : (f w).entry.phase.isDead = true) : (f w).entry.targetEndpoint = none := by
  cases hcmd : cmd.retargets d with
  | false =>
      cases hf.aims hcmd w with
      | keeps htarget hback => exact htarget.trans (hold (hback hdead))
      | clears htarget _ => exact htarget
  | true =>
      cases hf with
      | sendDatagram =>
          obtain ⟨hbefore, hdecide⟩ := Edit.sendDatagram_dead _ _ _ _ hdead
          rw [Edit.sendDatagram_target, hdecide]
          exact hold hbefore
      | dataPipeReady =>
          rw [Edit.dataPipeReady_phase] at hdead
          rw [Edit.dataPipeReady_target]
          split
          · rfl
          · exact hold hdead
      | _ => cases hcmd

/-- In every run a dead entry has no target. -/
theorem dead_untargeted {h : List (Registry × Label)} {r : Registry} (hrun : system.Run h r)
    (d : DeviceId) (e : PeerEntry) (he : r.peer d = some e) (hdead : e.phase.isDead = true) :
    e.targetEndpoint = none := by
  refine all_of_run (P := fun e => e.phase.isDead = true → e.targetEndpoint = none) ?_ ?_ ?_ hrun d e
    he hdead
  · intro n d hnew
    rfl
  · intro io cmd d f w hf hold hdead
    exact touch_dead hf hold hdead
  · intro io cmd d f w n hf hw hdead
    cases hf.aims w with
    | keeps htarget _ =>
        rw [htarget, hw]
        rfl
    | clears htarget _ => exact htarget

/-! ## The intent of a history -/

/-- The target of the entry of `d`, if there is one. -/
def targetOf (r : Registry) (d : DeviceId) : Option EndpointId :=
  (r.peer d).bind PeerEntry.targetEndpoint

/-- The target that a send to `d` names, if the entry keeps the send. -/
def named (r : Registry) (d : DeviceId) : PeerCommand → Option EndpointId
  | .sendDatagram d' target txGen _ _ =>
    if d' = d ∧
        (Edit.sendDecision txGen ((r.peer d).getD (newEntry r.nextLifecycle d))).holds = true then
      target
    else none
  | _ => none

/-- The pipe of the entry's generation is ready. -/
def readied (r : Registry) (d : DeviceId) : PeerCommand → Bool
  | .dataPipeReady d' txGen _ => decide (d' = d) && (r.peer d).any fun e => e.txGen == txGen
  | _ => false

/-- The entry of `d` is `Dead`, forgotten or collected. -/
def gone (r : Registry) (d : DeviceId) : Bool := (r.peer d).all fun e => e.phase.isDead

/-- What is aimed at after a step. -/
def aimed (d : DeviceId) (intent : Option EndpointId) (x : Registry × Label) : Option EndpointId :=
  match x.2 with
  | .reorder _ => intent
  | .command io cmd =>
    if x.1.readied d cmd || (x.1.handle io cmd).reg.gone d then none
    else (x.1.named d cmd).or intent

/-- The target of the latest send to `d` that named one and was kept, unless it was cleared
since. -/
def intent (d : DeviceId) (h : List (Registry × Label)) : Option EndpointId := h.foldl (aimed d) none

/-- The history is read command by command. -/
theorem intent_append (d : DeviceId) (h : List (Registry × Label)) (x : Registry × Label) :
    intent d (h ++ [x]) = aimed d (intent d h) x := by
  unfold intent
  rw [List.foldl_append]
  rfl

section Handle

variable {r : Registry} {io : Io} {cmd : PeerCommand} {d : DeviceId}

/-- The target of a device is that of its entry. -/
theorem targetOf_of_peer {e : PeerEntry} (he : r.peer d = some e) :
    r.targetOf d = e.targetEndpoint := by
  unfold targetOf
  rw [he]
  rfl

/-- An entry that is inserted while another command is handled has no target. -/
theorem steps_untargeted {t t' : Turn} (hcmd : cmd.retargets d = false) (hsteps : Steps io cmd t t')
    (hnone : ∀ e, t.reg.peer d = some e → e.targetEndpoint = none) :
    ∀ e, t'.reg.peer d = some e → e.targetEndpoint = none := by
  refine hsteps.all (fun n => rfl) ?_ ?_ hnone
  · intro f w hf hw
    cases hf.aims hcmd w with
    | keeps htarget _ => exact htarget.trans hw
    | clears htarget _ => exact htarget
  · intro f w n hf hw
    cases hf.aims w with
    | keeps htarget _ =>
        rw [htarget, hw]
        rfl
    | clears htarget _ => exact htarget

/-- A verified endpoint changes no target. -/
theorem verified_keepsTarget {endpoint : EndpointId} {token : Option ℕ} {e e' : PeerEntry}
    (he : r.peer d = some e)
    (he' : (r.handle io (.verifiedEndpoint endpoint token)).reg.peer d = some e') :
    e'.targetEndpoint = e.targetEndpoint := by
  refine (handle_steps io (.verifiedEndpoint endpoint token) r).track
    (Q := fun _ x => x.targetEndpoint = e.targetEndpoint) ?_ ?_ he he' rfl
  · intro t x f _ hf hx
    refine Eq.trans ?_ hx
    cases hf with
    | stampExact => rfl
    | stampVerified => rfl
    | cancelDial =>
        rw [Edit.drainToDraining_entry]
        rfl
    | drainLoser =>
        rw [Edit.drainToDraining_entry]
        rfl
    | requestUpgrade =>
        obtain ⟨phase, hx, -⟩ := Edit.setUpgrading_entry (t.focus x) true
        change ((t.focus x).setUpgrading true).entry.targetEndpoint = _
        rw [hx]
        rfl
  · intro t t' x _ _ _ hx
    exact hx

/-- A command that is not about the target keeps it, unless it leaves a `Dead` entry. -/
theorem handle_keepsTarget (hset : r.Settled) (hcmd : cmd.retargets d = false) {e' : PeerEntry}
    (he' : (r.handle io cmd).reg.peer d = some e') (hlive : e'.phase.isDead = false) :
    e'.targetEndpoint = r.targetOf d := by
  cases he : r.peer d with
  | none =>
      rw [targetOf, he]
      refine steps_untargeted hcmd (handle_steps io cmd r) ?_ e' he'
      intro e hsome
      rw [peer_start, he] at hsome
      cases hsome
  | some e =>
      rw [targetOf_of_peer he]
      -- every other command runs one function on the entry at most
      by_cases hverified : ∃ endpoint token, cmd = .verifiedEndpoint endpoint token
      · obtain ⟨endpoint, token, rfl⟩ := hverified
        exact verified_keepsTarget he he'
      · have honce : Once io cmd d e (r.handle io cmd) :=
          handle_entry hset (fun endpoint token heq => hverified ⟨endpoint, token, heq⟩) he
        rcases honce e' he' with rfl | ⟨f, w, rfl, hf, rfl, -⟩
        · rfl
        · cases hf.aims hcmd w with
          | keeps htarget _ => exact htarget
          | clears _ hdead =>
              rw [hlive] at hdead
              cases hdead

/-- What the history says a send does is what it does to the entry. -/
theorem sendDatagram_aimed (target : Option EndpointId) (txGen : ℕ) (datagram : Bytes)
    (waker : Waker) {w : Edit} (hw : w.entry = (r.peer d).getD (newEntry r.nextLifecycle d)) :
    (w.sendDatagram io target ⟨txGen, datagram, waker⟩).entry.targetEndpoint =
      (r.named d (.sendDatagram d target txGen datagram waker)).or (r.targetOf d) := by
  have hbefore : w.entry.targetEndpoint = r.targetOf d := by
    rw [hw, targetOf]
    cases r.peer d <;> rfl
  rw [Edit.sendDatagram_target, hbefore]
  unfold named
  rw [← hw]
  simp only [true_and]
  split
  · rfl
  · rfl

/-- The target after a pipe has become ready. -/
theorem dataPipeReady_aimed (txGen : ℕ) (handles : PipeHandles) {e' : PeerEntry}
    (he' : (r.handle io (.dataPipeReady d txGen handles)).reg.peer d = some e') :
    e'.targetEndpoint = if r.readied d (.dataPipeReady d txGen handles) = true then none
      else (r.named d (.dataPipeReady d txGen handles)).or (r.targetOf d) := by
  change (Turn.edit d _ (start r)).reg.peer d = some e' at he'
  cases he : r.peer d with
  | none =>
      rw [edit_of_none (t := start r) he, peer_start, he] at he'
      cases he'
  | some e =>
      have hstart : (start r).reg.peer d = some e := he
      rw [edit_of_some hstart, peer_store hstart, if_pos rfl] at he'
      obtain rfl := Option.some.inj he'
      rw [Edit.dataPipeReady_target, targetOf_of_peer he]
      simp only [readied, he, decide_true, Bool.true_and, Option.any_some, beq_iff_eq]
      rfl

/-- Two commands set or clear a target outside of death. -/
theorem retargets_cases (hcmd : cmd.retargets d = true) :
    (∃ target txGen datagram waker, cmd = .sendDatagram d target txGen datagram waker) ∨
      ∃ txGen handles, cmd = .dataPipeReady d txGen handles := by
  cases cmd with
  | sendDatagram d' target txGen datagram waker =>
      obtain rfl : d' = d := of_decide_eq_true hcmd
      exact .inl ⟨target, txGen, datagram, waker, rfl⟩
  | dataPipeReady d' txGen handles =>
      obtain rfl : d' = d := of_decide_eq_true hcmd
      exact .inr ⟨txGen, handles, rfl⟩
  | _ => cases hcmd

/-- No other names one. -/
theorem named_of_not_retargets (hcmd : cmd.retargets d = false) : r.named d cmd = none := by
  cases cmd with
  | sendDatagram d' target txGen datagram waker =>
      have hd : d' ≠ d := of_decide_eq_false hcmd
      simp only [named, hd, false_and, if_false]
  | _ => rfl

theorem readied_of_not_retargets (hcmd : cmd.retargets d = false) : r.readied d cmd = false := by
  cases cmd with
  | dataPipeReady d' txGen handles =>
      have hd : d' ≠ d := of_decide_eq_false hcmd
      simp only [readied, hd, decide_false, Bool.false_and]
  | _ => rfl

/-- The target moves along with what is aimed at. -/
theorem handle_targetOf (hset : r.Settled)
    (hdead : ∀ e', (r.handle io cmd).reg.peer d = some e' → e'.phase.isDead = true →
      e'.targetEndpoint = none) :
    (r.handle io cmd).reg.targetOf d = aimed d (r.targetOf d) (r, .command io cmd) := by
  unfold aimed
  dsimp only
  cases he' : (r.handle io cmd).reg.peer d with
  | none =>
      have hgone : (r.handle io cmd).reg.gone d = true := by
        rw [gone, he']
        rfl
      rw [hgone, Bool.or_true, if_pos rfl, targetOf, he']
      rfl
  | some e' =>
      have hgone : (r.handle io cmd).reg.gone d = e'.phase.isDead := by
        rw [gone, he']
        rfl
      rw [targetOf_of_peer he', hgone]
      cases hlive : e'.phase.isDead with
      | true =>
          rw [Bool.or_true, if_pos rfl]
          exact hdead e' he' hlive
      | false =>
          -- the entry is alive: what counts is whether the command is about its target
          rw [Bool.or_false]
          cases hcmd : cmd.retargets d with
          | false =>
              rw [readied_of_not_retargets hcmd, named_of_not_retargets hcmd]
              exact handle_keepsTarget hset hcmd he' hlive
          | true =>
              rcases retargets_cases hcmd with ⟨target, txGen, datagram, waker, rfl⟩ |
                ⟨txGen, handles, rfl⟩
              · obtain ⟨w, hw, hpeer⟩ :=
                  peer_handle_sendDatagram r io d target txGen datagram waker
                obtain rfl := Option.some.inj (he'.symm.trans hpeer)
                exact sendDatagram_aimed target txGen datagram waker hw
              · exact dataPipeReady_aimed txGen handles he'

end Handle

/-! ## The pipes that are started -/

section Starts

variable {t : Turn} {d₀ : DeviceId} {f : Edit → Edit}

/-- A fresh entry has none. -/
theorem targetOf_ensure (t : Turn) (d₀ d : DeviceId) :
    (t.ensure d₀).reg.targetOf d = t.reg.targetOf d := by
  cases hd₀ : t.reg.peer d₀ with
  | some e => rw [ensure_of_some hd₀]
  | none =>
      rw [ensure_of_none hd₀, targetOf, peer_insertNew]
      split
      · rename_i hd
        subst hd
        rw [targetOf, hd₀]
        rfl
      · rfl

/-- The pipe that is started for an entry gets the entry's target. -/
theorem starts_edit (hkeyed : t.reg.Keyed) (hstarts : t.starts = [])
    (hf : ∀ e, t.reg.peer d₀ = some e →
      Session (t.focus e) (f (t.focus e)) ∧ Aims (t.focus e) (f (t.focus e)))
    {d : DeviceId} {l g : ℕ} {role : ConnectRole} {target : Option EndpointId} {path : ConnectPath}
    {l2cap : Option L2capChannel}
    (hmem : .startDataPipe d l g role target path l2cap ∈ (t.edit d₀ f).starts) :
    target = t.reg.targetOf d := by
  cases he : t.reg.peer d₀ with
  | none =>
      rw [edit_of_none he, hstarts] at hmem
      cases hmem
  | some e =>
      rw [edit_of_some he] at hmem
      obtain ⟨hsession, haims⟩ := hf e he
      have hfocus : (t.focus e).starts = [] := hstarts
      change _ ∈ (f (t.focus e)).starts at hmem
      cases hsession with
      | kept hk =>
          rw [hk.starts, hfocus] at hmem
          cases hmem
      | started hst =>
          obtain ⟨role', path', l2cap', -, hs⟩ := hst.starts
          rw [hs, hfocus, List.nil_append, List.mem_singleton] at hmem
          obtain ⟨hd, -, -, -, htarget, -, -⟩ := PeerAction.startDataPipe.inj hmem
          have hdevice : d = d₀ := hd.trans (hst.deviceId.trans (hkeyed d₀ e he))
          rw [htarget, hdevice, targetOf_of_peer he]
          cases haims with
          | keeps hkeeps _ => exact hkeeps
          | clears _ hdead =>
              -- the entry has just become `Connected`
              have hlive := hst.live
              cases hp : (f (t.focus e)).entry.phase with
              | connected since channel txGen up =>
                  rw [hp] at hdead
                  cases hdead
              | _ =>
                  rw [hp] at hlive
                  cases hlive

end Starts

/-- A pipe is started with the target that the entry had before the command. -/
theorem handle_startTarget {r : Registry} (hkeyed : r.Keyed) (io : Io) (cmd : PeerCommand)
    {d : DeviceId} {l g : ℕ} {role : ConnectRole} {target : Option EndpointId} {path : ConnectPath}
    {l2cap : Option L2capChannel}
    (hmem : .startDataPipe d l g role target path l2cap ∈ (r.handle io cmd).actions) :
    target = r.targetOf d := by
  have hstart : .startDataPipe d l g role target path l2cap ∈ (r.handle io cmd).starts :=
    List.mem_filter.mpr ⟨hmem, rfl⟩
  clear hmem
  -- a command that starts a pipe runs one function on one entry, which it may have to insert
  by_cases hcmd : cmd.mayStart = true
  · have hedit : ∀ {d₀ : DeviceId} {f : Edit → Edit}, (∀ d, cmd.retargets d = false) →
        (∀ e, Touch io cmd d₀ e f) →
        .startDataPipe d l g role target path l2cap ∈ ((start r).edit d₀ f).starts →
        target = r.targetOf d := by
      intro d₀ f hno hf hmem
      exact starts_edit (t := start r) hkeyed rfl
        (fun e _ => ⟨(hf e).session _, (hf e).aims (hno d₀) _⟩) hmem
    have hfresh : ∀ {d₀ : DeviceId} {f : Edit → Edit}, TouchFresh io cmd d₀ f →
        r.peer d₀ = none →
        .startDataPipe d l g role target path l2cap ∈ (((start r).ensure d₀).edit d₀ f).starts →
        target = r.targetOf d := by
      intro d₀ f hf hd₀ hmem
      have hnone : (start r).reg.peer d₀ = none := hd₀
      refine Eq.trans ?_ (targetOf_ensure (start r) d₀ d)
      rw [ensure_of_none hnone] at hmem ⊢
      refine starts_edit (keyed_insertNew (t := start r) hkeyed d₀) rfl ?_ hmem
      intro e he
      rw [peer_insertNew, if_pos rfl] at he
      obtain rfl := Option.some.inj he
      exact ⟨hf.session rfl, hf.aims _⟩
    cases cmd with
    | connectSucceeded d₀ l channel =>
        exact hedit (fun _ => rfl) (fun e => .connectSucceeded (failed_of_wantsUpgrade _ d₀)) hstart
    | openL2capSucceeded d₀ l u channel =>
        exact hedit (fun _ => rfl) (fun e => .openL2capSucceeded) hstart
    | openL2capFailed d₀ l u error =>
        exact hedit (fun _ => rfl) (fun e => .openL2capFailed) hstart
    | inboundGattFragment d₀ source bytes =>
        cases hd : r.peer d₀ with
        | none =>
            rw [handle_fragment_of_none hd] at hstart
            exact hfresh .fragment hd hstart
        | some e =>
            rw [handle_fragment_of_some hd] at hstart
            exact hedit (fun _ => rfl) (fun e => .fragment) hstart
    | inboundL2capChannel d₀ channel =>
        cases hd : r.peer d₀ with
        | none =>
            rw [handle_l2cap_of_none hd] at hstart
            exact hfresh .inboundL2capChannel hd hstart
        | some e =>
            rw [handle_l2cap_of_some hd] at hstart
            exact hedit (fun _ => rfl) (fun e => .inboundL2capChannel) hstart
    | peripheralClientSubscribed d₀ c p =>
        have hsteps : Steps io (.centralConnected d₀) (start r) ((start r).ensure d₀) :=
          Steps.ensure rfl d₀
        refine Eq.trans ?_ (targetOf_ensure (start r) d₀ d)
        refine starts_edit (keyed_steps hkeyed hsteps) (starts_steps rfl hsteps) ?_ hstart
        intro e _
        exact ⟨.peripheralClientSubscribed _ _ _ _ _, .peripheralClientSubscribed _ _ _ _ _⟩
    | _ => cases hcmd
  · have hcmd' : cmd.mayStart = false := Bool.eq_false_iff.mpr hcmd
    rw [starts_steps hcmd' (handle_steps io cmd r)] at hstart
    cases hstart

/-! ## Runs -/

/-- The target of an entry is what its history aims at. -/
theorem targetOf_of_run {h : List (Registry × Label)} {r : Registry} (hrun : system.Run h r)
    (d : DeviceId) : r.targetOf d = intent d h := by
  induction hrun with
  | init hs =>
      obtain ⟨policy, endpoint, rfl⟩ := hs
      rfl
  | @step h r r' l hrun hs ih =>
      rw [intent_append, ← ih]
      have hdead := dead_untargeted (hrun.step hs) d
      cases l with
      | reorder ks =>
          unfold targetOf
          rw [peer_reorder hs]
          rfl
      | command io cmd =>
          obtain rfl := Option.some.inj hs
          exact handle_targetOf (settled_of_run hrun) hdead

/-- Every pipe is started with the target of the latest send that named one and was kept since the
last clearance, and a `Dead` entry has no target. -/
theorem intent_of_run {h : List (Registry × Label)} {r : Registry} (hrun : system.Run h r) :
    (∀ io cmd d l g role target path l2cap,
      .startDataPipe d l g role target path l2cap ∈ (r.handle io cmd).actions →
        target = intent d h) ∧
      ∀ d e, r.peer d = some e → e.phase.isDead = true → e.targetEndpoint = none := by
  constructor
  · intro io cmd d l g role target path l2cap hmem
    rw [← targetOf_of_run hrun d]
    exact handle_startTarget (keyed_of_run hrun) io cmd hmem
  · intro d e he hdead
    exact dead_untargeted hrun d e he hdead

/-- The peer advertises, a send for the higher endpoint dials it, and a second one that names no
endpoint waits. -/
def aimedRun : List Label :=
  [.command (ioAt 0) (.advertised peerPrefix "peer" none),
    .command (ioAt 1) (.sendDatagram "peer" (some peerEndpoint) 0 [1] 0),
    .command (ioAt 2) (.sendDatagram "peer" none 0 [2] 1)]

/-- On a run: the pipe that the dial leads to carries the endpoint the datagram was for. -/
theorem intent_of_run_aimedRun :
    ∃ h r, system.Run h r ∧ h.map Prod.snd = aimedRun ∧
      ∃ target,
        .startDataPipe "peer" 2 1 .central target .gatt none ∈
          (r.handle (ioAt 3) (.connectSucceeded "peer" 2 ⟨5, .gatt⟩)).actions ∧
        target = some peerEndpoint := by
  obtain ⟨h, r, hrun, hl, hstart, hintent⟩ := System.Run.of_trace
    (P := fun h (r : Registry) =>
      PeerAction.startDataPipe "peer" 2 1 .central (r.targetOf "peer") .gatt none ∈
        (r.handle (ioAt 3) (.connectSucceeded "peer" 2 ⟨5, .gatt⟩)).actions ∧
      intent "peer" h = some peerEndpoint)
    aimedRun (init_new .disabled localEndpoint) (by decide +kernel)
  refine ⟨h, r, hrun, hl, r.targetOf "peer", hstart, ?_⟩
  exact ((intent_of_run hrun).1 _ _ _ _ _ _ _ _ _ hstart).trans hintent

end Registry

end IrohBle
