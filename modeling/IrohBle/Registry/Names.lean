import IrohBle.Registry.Identity
import IrohBle.Registry.Order

/-! # Names: the prefix that an entry is known by

An entry takes its prefix from an advertisement, from a subscription, or from the handshake of its
pipe; `keyPrefix_of_command` has it for each command that `Registry::run` handles.
-/

namespace IrohBle

open Lib Reliable Registry

/-- The command says that `d` is a peer with the prefix `p`. -/
def PeerCommand.Names (d : DeviceId) (p : KeyPrefix) : PeerCommand → Prop
  | .advertised q d' _ => d' = d ∧ q = p
  | .peripheralClientSubscribed d' _ q => d' = d ∧ q = some p
  | _ => False

namespace Registry

open Turn

section Command

variable {r : Registry} {io : Io} {cmd : PeerCommand} {d : DeviceId} {p : KeyPrefix}

/-- Outside a handshake an entry takes a prefix only from a command that names it. -/
theorem keyPrefix_of_handle (hcmd : ∀ endpoint token, cmd ≠ .verifiedEndpoint endpoint token)
    {e' : PeerEntry} (he' : (r.handle io cmd).reg.peer d = some e') (hp : e'.keyPrefix = some p) :
    (∃ e, r.peer d = some e ∧ e.keyPrefix = some p) ∨ cmd.Names d p := by
  refine Steps.all (P := fun e' => ∀ p, e'.keyPrefix = some p →
    (∃ e, r.peer d = some e ∧ e.keyPrefix = some p) ∨ cmd.Names d p) (handle_steps io cmd r)
    ?_ ?_ ?_ ?_ e' he' p hp
  · intro n p hp
    cases hp
  · intro f w hf hw p hp
    rcases hf.identity with
      hsame | ⟨endpoint, token, rfl, -⟩ | ⟨c, q, rfl, hnew⟩ | ⟨q, rssi, rfl, hnew⟩
    · have hold : (f w).entry.keyPrefix = w.entry.keyPrefix := congrArg Prod.fst hsame
      exact hw p (hold.symm.trans hp)
    · exact absurd rfl (hcmd endpoint token)
    · rw [hnew] at hp
      cases q with
      | none => exact hw p hp
      | some q => exact .inr ⟨rfl, hp⟩
    · have hnamed : (f w).entry.keyPrefix = some q := congrArg Prod.fst hnew
      exact .inr ⟨rfl, Option.some.inj (hnamed.symm.trans hp)⟩
  · intro f w n hf hw p hp
    have hnone : (f w).entry.keyPrefix = none := by
      cases hf with
      | fragment => exact congrArg PeerEntry.keyPrefix hw
      | inboundL2capChannel => exact congrArg PeerEntry.keyPrefix hw
    rw [hnone] at hp
    cases hp
  · intro e he p hp
    exact .inl ⟨e, he, hp⟩

/-- A handshake gives a prefix to the device of its pipe. -/
theorem keyPrefix_handleVerifiedEndpoint (io : Io) (endpoint : EndpointId) (exact : Option DeviceId)
    (t : Turn) (d : DeviceId) :
    ((t.handleVerifiedEndpoint io endpoint exact).reg.peer d).map PeerEntry.keyPrefix =
        (t.reg.peer d).map PeerEntry.keyPrefix ∨
      exact = some d ∧
        ((t.handleVerifiedEndpoint io endpoint exact).reg.peer d).map PeerEntry.keyPrefix =
          (t.reg.peer d).map fun _ => some (prefixFromEndpoint endpoint) := by
  have hdrain : ∀ w : Edit,
      (w.drainToDraining io.now io.systemNow .dedupLoser).entry.keyPrefix = w.entry.keyPrefix :=
    fun w => congrArg Prod.fst (identity_drain w io.now io.systemNow .dedupLoser)
  have hupgrade : ∀ w : Edit, w.requestUpgrade.entry.keyPrefix = w.entry.keyPrefix :=
    fun w => congrArg Prod.fst (identity_setUpgrading _ _)
  have hupgrades : ∀ t : Turn, ((t.requestUpgrades endpoint).reg.peer d).map PeerEntry.keyPrefix =
      (t.reg.peer d).map PeerEntry.keyPrefix := by
    intro t
    unfold Turn.requestUpgrades
    dsimp only
    split
    · exact keyPrefix_editAll hupgrade
    · rfl
  have hlosers : ∀ t : Turn, ((t.drainLosers io endpoint).reg.peer d).map PeerEntry.keyPrefix =
      (t.reg.peer d).map PeerEntry.keyPrefix := by
    intro t
    unfold Turn.drainLosers
    dsimp only
    split
    · exact keyPrefix_editAll hdrain
    · rfl
  have hstamps : ∀ (t : Turn) (ds : List DeviceId),
      ((t.editAll ds (Edit.stampVerified io.now endpoint)).reg.peer d).map PeerEntry.keyPrefix =
        (t.reg.peer d).map PeerEntry.keyPrefix :=
    fun t ds => keyPrefix_editAll fun w => rfl
  unfold Turn.handleVerifiedEndpoint Turn.cancelPendingDials Turn.stampVerified
  dsimp only
  rw [hupgrades, hlosers, keyPrefix_editAll hdrain, hstamps]
  cases exact with
  | none => exact .inl rfl
  | some d₀ =>
      dsimp only
      by_cases hd : d₀ = d
      · -- the stamp of the pipe's device
        subst hd
        refine .inr ⟨rfl, ?_⟩
        cases he : t.reg.peer d₀ with
        | none =>
            rw [edit_of_none (t := t.verify (prefixFromEndpoint endpoint) endpoint) he]
            exact congrArg (Option.map PeerEntry.keyPrefix) he
        | some e =>
            have hverify : (t.verify (prefixFromEndpoint endpoint) endpoint).reg.peer d₀ = some e := he
            rw [edit_of_some hverify, peer_store hverify, if_pos rfl]
            rfl
      · rw [peer_edit_ne (Ne.symm hd)]
        exact .inl rfl

/-- What an entry is known by after a command, it was known by before, or the command names it. -/
theorem keyPrefix_of_command {exact replaced : Option DeviceId} {e' : PeerEntry}
    (he' : (r.runCommand io exact replaced cmd).reg.peer d = some e') (hp : e'.keyPrefix = some p) :
    (∃ e, r.peer d = some e ∧ e.keyPrefix = some p) ∨ cmd.Names d p ∨
      ∃ endpoint token, cmd = .verifiedEndpoint endpoint token ∧ exact = some d ∧
        prefixFromEndpoint endpoint = p := by
  by_cases hverified : ∃ endpoint token, cmd = .verifiedEndpoint endpoint token
  · obtain ⟨endpoint, token, rfl⟩ := hverified
    -- where a hint was taken away, the device that had it was forgotten first
    have hfirst : ∀ t : Turn, (t = start r ∨ ∃ previous, t = r.handle io (.forget previous)) →
        ∀ e, t.reg.peer d = some e → e.keyPrefix = some p →
          ∃ e, r.peer d = some e ∧ e.keyPrefix = some p := by
      rintro t (rfl | ⟨previous, rfl⟩) e he hp
      · exact ⟨e, he, hp⟩
      · have hno : ∀ endpoint token, PeerCommand.forget previous ≠ .verifiedEndpoint endpoint token :=
          fun _ _ => PeerCommand.noConfusion
        rcases keyPrefix_of_handle hno he hp with hold | hnamed
        · exact hold
        · exact absurd hnamed id
    obtain ⟨t, ht, hcommand⟩ : ∃ t : Turn,
        (t = start r ∨ ∃ previous, t = r.handle io (.forget previous)) ∧
          r.runCommand io exact replaced (.verifiedEndpoint endpoint token) =
            t.handleVerifiedEndpoint io endpoint exact := by
      unfold runCommand
      dsimp only
      split
      · exact ⟨_, .inr ⟨_, rfl⟩, rfl⟩
      · exact ⟨_, .inl rfl, rfl⟩
    rw [hcommand] at he'
    rcases keyPrefix_handleVerifiedEndpoint io endpoint exact t d with hsame | ⟨hexact, hstamped⟩
    · rw [he'] at hsame
      obtain ⟨e, he, hkey⟩ := Option.map_eq_some_iff.mp hsame.symm
      exact .inl (hfirst t ht e he (hkey.trans hp))
    · rw [he'] at hstamped
      obtain ⟨e, -, hkey⟩ := Option.map_eq_some_iff.mp hstamped.symm
      exact .inr (.inr ⟨endpoint, token, rfl, hexact, Option.some.inj (hkey.trans hp)⟩)
  · have hcmd : ∀ endpoint token, cmd ≠ .verifiedEndpoint endpoint token :=
      fun endpoint token h => hverified ⟨endpoint, token, h⟩
    rw [runCommand_of_ne hcmd] at he'
    rcases keyPrefix_of_handle hcmd he' hp with hold | hnamed
    · exact .inl hold
    · exact .inr (.inl hnamed)

end Command

end Registry

end IrohBle
