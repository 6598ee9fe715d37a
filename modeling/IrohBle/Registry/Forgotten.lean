import IrohBle.Registry.Command
import IrohBle.Registry.Dormant

/-! # Registry.Forgotten: where tombstones of forgotten peers come from

`Forget` turns the entry of a device into `Dead` with the reason `Forgotten`. An advertisement does
not undo that, and every datagram for the device is turned away as long as the tombstone stands.

* `runCommand_forgotten`: nothing but a `Forget` of the device, the command or the one that
  `run` puts before a verified endpoint, leaves such a tombstone.
* `handle_advertised_forgotten`: an advertisement neither makes nor removes one.
* `turnsAway_iff`: a datagram for a forgotten device gets an error and nothing else.
-/

namespace IrohBle

open Lib Reliable Registry

/-- `Dead` with the reason `Forgotten`. -/
def PeerPhase.isForgotten : PeerPhase → Bool
  | .dead .forgotten _ => true
  | _ => false

/-- A forgotten peer is one of the dormant. -/
theorem PeerPhase.isDormant_of_isForgotten {phase : PeerPhase} (h : phase.isForgotten = true) :
    phase.isDormant = true := by
  cases phase with
  | dead reason diedAt =>
      cases reason with
      | forgotten => rfl
      | _ => cases h
  | _ => cases h

namespace Edit

/-- An entry that is armed for a dial is not forgotten. -/
theorem armForDial_isForgotten (w : Edit) (now : ℕ) (deferPrefix : Option KeyPrefix) :
    (w.armForDial now deferPrefix).entry.phase.isForgotten = false := by
  unfold armForDial
  split
  · rfl
  · split <;> rfl

/-- Giving a dial up is another death. -/
theorem dialFailed_isForgotten (w : Edit) (now attempt : ℕ) (metric : String)
    (reason : DisconnectReason) :
    (w.dialFailed now attempt metric reason).entry.phase.isForgotten = false := by
  unfold dialFailed
  dsimp only
  split
  · split <;> rfl
  · rfl

/-- A path change is for live sessions. -/
theorem setPath_isForgotten (w : Edit) (path : ConnectPath) :
    (w.setPath path).entry.phase.isForgotten = w.entry.phase.isForgotten := by
  unfold setPath
  split
  · rename_i hp
    rw [hp]
    rfl
  · rfl

theorem setUpgrading_isForgotten (w : Edit) (upgrading : Bool) :
    (w.setUpgrading upgrading).entry.phase.isForgotten = w.entry.phase.isForgotten := by
  unfold setUpgrading
  split
  · rename_i hp
    rw [hp]
    rfl
  · rfl

theorem requestUpgrade_isForgotten (w : Edit) :
    w.requestUpgrade.entry.phase.isForgotten = w.entry.phase.isForgotten :=
  setUpgrading_isForgotten w true

end Edit

namespace Turn

variable {io : Io} {cmd : PeerCommand} {d : DeviceId} {f : Edit → Edit} {w : Edit}

/-- No function but that of a `Forget` makes an entry `Forgotten`. -/
theorem Touch.isForgotten (hf : Touch io cmd d w.entry f) (hcmd : cmd ≠ .forget d)
    (h : (f w).entry.phase.isForgotten = true) : w.entry.phase.isForgotten = true := by
  cases hf with
  | stampExact => exact h
  | stampVerified _ => exact h
  | cancelDial _ =>
      rw [Edit.drainToDraining_entry] at h
      cases h
  | drainLoser _ =>
      rw [Edit.drainToDraining_entry] at h
      cases h
  | requestUpgrade _ _ _ =>
      rw [Edit.requestUpgrade_isForgotten] at h
      exact h
  -- a subscription that starts a session leaves a live entry
  | subscribed =>
      unfold Edit.peripheralClientSubscribed at h
      simp only [Edit.noteSubscriber_phase] at h
      split at h
      · split at h
        · rw [Edit.noteSubscriber_phase] at h
          exact h
        · cases h
      · rw [Edit.noteSubscriber_phase] at h
        exact h
      · rw [Edit.noteSubscriber_phase] at h
        exact h
      · cases h
  | unsubscribed =>
      unfold Edit.peripheralClientUnsubscribed at h
      dsimp only at h
      split at h
      · exact h
      · rw [Edit.drainToDraining_entry] at h
        cases h
  | advertisedSuppressed => exact h
  | advertised =>
      unfold Edit.advertised at h
      dsimp only at h
      split at h
      · rw [Edit.armForDial_isForgotten] at h
        cases h
      · split at h
        · exact h
        · rw [Edit.armForDial_isForgotten] at h
          cases h
      · rw [Edit.armForDial_isForgotten] at h
        cases h
      · rw [Edit.armForDial_isForgotten] at h
        cases h
      · split at h
        · cases h
        · exact h
      · exact h
  | @sendDatagram _ target txGen datagram waker =>
      unfold Edit.sendDatagram at h
      split at h
      · rcases Edit.enqueue_entry w io ⟨txGen, datagram, waker⟩ with ⟨_, _, he, -⟩
        rw [he] at h
        exact h
      · exact h
      · exact h
      · cases h
  | connectSucceeded _ =>
      unfold Edit.connectSucceeded at h
      split at h
      · exact h
      · dsimp only at h
        split at h
        · rw [Edit.requestUpgrade_isForgotten] at h
          cases h
        · cases h
  | connectFailed =>
      unfold Edit.connectFailed at h
      split at h
      · exact h
      · split at h
        · rw [Edit.dialFailed_isForgotten] at h
          cases h
        · exact h
  | fragment =>
      unfold Edit.inboundGattFragment at h
      dsimp only at h
      split at h
      · cases h
      · split at h
        · exact h
        · split at h
          · cases h
          · exact h
      · exact h
      · cases h
  | centralDisconnected =>
      unfold Edit.centralDisconnected at h
      dsimp only at h
      split at h
      · rw [Edit.refreshOn133_entry, Edit.dialFailed_isForgotten] at h
        cases h
      · split at h
        · rw [Edit.resumeDrainedEntry, Edit.armForDial_isForgotten] at h
          cases h
        · rw [Edit.refreshOn133_entry, Edit.drainToDraining_entry] at h
          cases h
      · rw [Edit.refreshOn133_entry, Edit.closeChannel_entry, Edit.drainToDraining_entry] at h
        cases h
  | adapterOff => cases h
  | adapterOn =>
      unfold Edit.adapterOn at h
      split at h
      · cases h
      · exact h
  | @tick _ _ _ action _ =>
      cases action with
      | startConnect attempt => cases h
      | pendingDialExpired => cases h
      | drainingToDead =>
          simp only [Edit.tickApply] at h
          split at h
          · rw [Edit.resumeDrainedEntry, Edit.armForDial_isForgotten] at h
            cases h
          · cases h
      | restoringToDead => cases h
      | connectedWedged =>
          simp only [Edit.tickApply, Edit.push_entry, Edit.closeChannel_entry,
            Edit.drainToDraining_entry] at h
          cases h
  | forget => exact absurd rfl hcmd
  | stalled =>
      unfold Edit.stalled at h
      split at h
      · simp only [Edit.closeChannel_entry, Edit.modify_entry, Edit.drainToDraining_entry] at h
        cases h
      · exact h
  | shutdown => exact h
  | dataPipeReady =>
      rw [Edit.dataPipeReady_phase] at h
      exact h
  | openL2capSucceeded =>
      unfold Edit.openL2capSucceeded at h
      split at h
      · exact h
      · split at h
        · cases h
        · split at h
          · rw [Edit.push_entry, Edit.setPath_isForgotten] at h
            exact h
          · rw [Edit.setUpgrading_isForgotten] at h
            exact h
        · exact h
  | openL2capFailed =>
      unfold Edit.openL2capFailed at h
      split at h
      · exact h
      · split at h
        · cases h
        · rw [Edit.setUpgrading_isForgotten] at h
          exact h
        · exact h
  | inboundL2capChannel =>
      unfold Edit.inboundL2capChannel at h
      split at h
      · split at h
        · exact h
        · rw [Edit.push_entry, Edit.push_entry, Edit.setPath_isForgotten] at h
          exact h
        · exact h
      · cases h
  | protocolVersionMismatch =>
      unfold Edit.protocolVersionMismatch at h
      split at h
      · exact h
      · rw [Edit.closeChannel_entry] at h
        cases h
  | handoverTimeout =>
      unfold Edit.l2capHandoverTimeout at h
      rw [Edit.setPath_isForgotten] at h
      exact h

end Turn

namespace Registry

open Turn

/-- The entry of `d` is the tombstone of a forgotten peer. -/
def forgotten (d : DeviceId) (r : Registry) : Bool :=
  (r.peer d).any fun e => e.phase.isForgotten

theorem forgotten_iff {d : DeviceId} {r : Registry} :
    r.forgotten d = true ↔ ∃ e, r.peer d = some e ∧ e.phase.isForgotten = true := by
  unfold forgotten
  rw [Option.any_eq_true]

end Registry

namespace Turn

open Registry

variable {io : Io} {cmd : PeerCommand} {d : DeviceId} {t t' : Turn}

/-- One small step: a tombstone that is there afterwards was there before, but for a `Forget`. -/
theorem Step.forgotten (hs : Step io cmd t t') (hcmd : cmd ≠ .forget d)
    (h : t'.reg.forgotten d = true) : t.reg.forgotten d = true := by
  rcases forgotten_iff.mp h with ⟨e', he', hphase⟩
  cases he : t.reg.peer d with
  | some e =>
      rcases hs.entry he with ⟨f, hf, rfl⟩ | hsame | ⟨-, hgone⟩
      · rw [peer_store he, if_pos rfl] at he'
        obtain rfl := Option.some.inj he'
        exact forgotten_iff.mpr ⟨e, he, Touch.isForgotten (w := t.focus e) hf hcmd hphase⟩
      · obtain rfl : e = e' := Option.some.inj (hsame.symm.trans he')
        exact forgotten_iff.mpr ⟨e, he, hphase⟩
      · rw [hgone] at he'
        cases he'
  | none =>
      -- an entry that is inserted is not dead
      exfalso
      cases hs with
      | @edit d' e f he₁ hf =>
          rw [peer_store he₁] at he'
          split at he'
          · rename_i heq
            rw [heq, he₁] at he
            cases he
          · rw [he] at he'
            cases he'
      | @insert d' _ _ =>
          rw [peer_insertNew] at he'
          split at he'
          · obtain rfl := Option.some.inj he'
            cases hphase
          · rw [he] at he'
            cases he'
      | @fresh d' f hd hf =>
          have hnew := peer_insertNew_self t d'
          rw [edit_of_some hnew, peer_store hnew, peer_insertNew] at he'
          split at he'
          · obtain rfl := Option.some.inj he'
            cases hf <;> cases hphase
          · rw [he] at he'
            cases he'
      | gcDead _ =>
          rw [peer_gcDead he'] at he
          cases he
      | verify p endpoint => cases he.symm.trans he'
      | prune => cases he.symm.trans he'
      | adapter state => cases he.symm.trans he'
      | restore b => cases he.symm.trans he'

/-- No chain of steps of another command makes a device forgotten. -/
theorem Steps.forgotten (hs : Steps io cmd t t') (hcmd : cmd ≠ .forget d)
    (h : t'.reg.forgotten d = true) : t.reg.forgotten d = true := by
  induction hs with
  | refl => exact h
  | tail _ hstep ih => exact ih (hstep.forgotten hcmd h)

end Turn

namespace Registry

open Turn

variable {r : Registry} {io : Io} {d : DeviceId}

/-- Nothing but a `Forget` of `d` leaves its tombstone. -/
theorem runCommand_forgotten {exact replaced : Option DeviceId} {cmd : PeerCommand}
    (h : (r.runCommand io exact replaced cmd).reg.forgotten d = true) :
    r.forgotten d = true ∨ cmd = .forget d ∨
      (∃ endpoint token, cmd = .verifiedEndpoint endpoint token) ∧ exact.isSome = true ∧
        replaced = some d := by
  by_cases hv : ∃ endpoint token, cmd = .verifiedEndpoint endpoint token
  · rcases hv with ⟨endpoint, token, rfl⟩
    have hverify : ∀ t : Turn, (t.handleVerifiedEndpoint io endpoint exact).reg.forgotten d = true →
        t.reg.forgotten d = true := by
      intro t ht
      have hsteps : Steps io (.verifiedEndpoint endpoint token) t _ :=
        handleVerifiedEndpoint_steps exact
      exact hsteps.forgotten PeerCommand.noConfusion ht
    unfold runCommand at h
    dsimp only at h
    split at h
    · rename_i exact' previous
      by_cases hd : previous = d
      · exact Or.inr (Or.inr ⟨⟨endpoint, token, rfl⟩, rfl, by rw [hd]⟩)
      · have hcmd : PeerCommand.forget previous ≠ .forget d := by
          intro heq
          exact hd (PeerCommand.forget.inj heq)
        exact Or.inl ((handle_steps io (.forget previous) r).forgotten hcmd (hverify _ h))
    · exact Or.inl (hverify _ h)
  · rw [runCommand_of_ne fun endpoint token heq => hv ⟨endpoint, token, heq⟩] at h
    by_cases hcmd : cmd = .forget d
    · exact Or.inr (Or.inl hcmd)
    · exact Or.inl ((handle_steps io cmd r).forgotten hcmd h)

/-- An advertisement leaves a tombstone where it is, and makes none. -/
theorem handle_advertised_forgotten (p : KeyPrefix) (rssi : Option Int) :
    (r.handle io (.advertised p d rssi)).reg.forgotten d = r.forgotten d := by
  have hsteps := handle_steps io (.advertised p d rssi) r
  rw [Bool.eq_iff_iff]
  constructor
  · intro h
    exact hsteps.forgotten PeerCommand.noConfusion h
  · intro h
    rcases forgotten_iff.mp h with ⟨e, he, hphase⟩
    have hsome : ((r.handle io (.advertised p d rssi)).reg.peer d).isSome = true := by
      refine hsteps.present rfl ?_
      exact Option.isSome_iff_exists.mpr ⟨e, he⟩
    rcases Option.isSome_iff_exists.mp hsome with ⟨e', he'⟩
    refine forgotten_iff.mpr ⟨e', he', ?_⟩
    refine hsteps.track_entry (Q := fun e => e.phase.isForgotten = true) ?_ he he' hphase
    intro w f hf hw
    rw [hf.dormant (PeerPhase.isDormant_of_isForgotten hw) rfl]
    exact hw

/-- A datagram for `d` is turned away because `d` is forgotten. -/
def TurnsAway (io : Io) (d : DeviceId) (target : Option EndpointId) (send : PendingSend)
    (r : Registry) : Prop :=
  r.forgotten d = true ∧
    .ackSend send.txGen send.waker (.err .wouldBlock) ∈
      (r.handle io (.sendDatagram d target send.txGen send.datagram send.waker)).actions

/-- A datagram is turned away exactly while the tombstone stands. -/
theorem turnsAway_iff {target : Option EndpointId} {send : PendingSend} :
    r.TurnsAway io d target send ↔ r.forgotten d = true := by
  constructor
  · intro h
    exact h.1
  · intro h
    refine ⟨h, ?_⟩
    rcases forgotten_iff.mp h with ⟨e, he, hphase⟩
    have hdecision : Edit.sendDecision send.txGen e = .reject := by
      unfold Edit.sendDecision
      cases hp : e.phase with
      | dead reason diedAt => rfl
      | _ =>
          rw [hp] at hphase
          cases hphase
    change _ ∈ (Turn.handleSendDatagram io d target send (start r)).actions
    have hpeer : (start r).reg.peer d = some e := he
    simp only [handleSendDatagram, ensure_of_some hpeer, edit_of_some hpeer]
    change _ ∈ (Edit.sendDatagram io target send ((start r).focus e)).actions
    have hfocus : Edit.sendDecision send.txGen ((start r).focus e).entry = .reject := hdecision
    simp only [Edit.sendDatagram, hfocus, Edit.push]
    exact List.mem_append_right _ (List.mem_singleton_self _)

end Registry

end IrohBle
