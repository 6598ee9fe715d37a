import IrohBle.Registry.Command

/-! # Registry.History: one device along a run

What a command does to the entry of one device is followed along the chain of small steps
(`Steps.track`), and what a run does to it along the history (`incarnation`): an entry that
has been garbage-collected and comes back is a new one.
-/

namespace IrohBle

open Lib Reliable Registry

namespace Turn

variable {io : Io} {cmd : PeerCommand} {t t' : Turn} {d : DeviceId}

/-! ## Along a command -/

/-- A small step leaves an entry alone, runs a function on it or collects it. -/
theorem Step.entry {e : PeerEntry} (h : Step io cmd t t') (he : t.reg.peer d = some e) :
    (∃ f, Touch io cmd d e f ∧ t' = t.store d (f (t.focus e))) ∨ t'.reg.peer d = some e ∨
      (cmd.isTick = true ∧ t'.reg.peer d = none) := by
  cases h with
  | @edit d' e' f he' hf =>
      by_cases hd : d = d'
      · subst hd
        obtain rfl : e' = e := Option.some.inj (he'.symm.trans he)
        exact Or.inl ⟨f, hf, rfl⟩
      · -- a function that runs on another entry
        refine Or.inr (Or.inl ?_)
        rw [peer_store he', if_neg hd]
        exact he
  | @insert d' hcmd hd' =>
      refine Or.inr (Or.inl ?_)
      rw [peer_insertNew, if_neg]
      · exact he
      · rintro rfl
        rw [hd'] at he
        cases he
  | @fresh d' f hd' hf =>
      refine Or.inr (Or.inl ?_)
      have hne : d ≠ d' := by
        rintro rfl
        rw [hd'] at he
        cases he
      rw [peer_edit_ne hne, peer_insertNew, if_neg hne]
      exact he
  | verify p endpoint => exact Or.inr (Or.inl he)
  | prune => exact Or.inr (Or.inl he)
  | gcDead hcmd =>
      subst hcmd
      cases hgc : (t.gcDead _).reg.peer d with
      | none => exact Or.inr (Or.inr ⟨rfl, rfl⟩)
      | some e' =>
          obtain rfl : e' = e := Option.some.inj ((peer_gcDead hgc).symm.trans he)
          exact Or.inr (Or.inl rfl)
  | adapter state => exact Or.inr (Or.inl he)
  | restore b => exact Or.inr (Or.inl he)

/-- Where there is no entry, a small step inserts one or leaves it so; a tick leaves it so. -/
theorem Step.absent (h : Step io cmd t t') (hd : t.reg.peer d = none) (hcmd : cmd.isTick = true) :
    t'.reg.peer d = none := by
  cases h with
  | @edit d' e' f he' hf =>
      rw [peer_store he', if_neg]
      · exact hd
      · rintro rfl
        rw [hd] at he'
        cases he'
  | insert hno _ =>
      rw [hno] at hcmd
      cases hcmd
  | fresh _ hf => cases hf <;> cases hcmd
  | verify p endpoint => exact hd
  | prune => exact hd
  | gcDead _ =>
      cases hgc : (t.gcDead _).reg.peer d with
      | none => rfl
      | some e' =>
          rw [peer_gcDead hgc] at hd
          cases hd
  | adapter state => exact hd
  | restore b => exact hd

/-- Only a tick removes an entry. -/
theorem Steps.present (h : Steps io cmd t t') (hcmd : cmd.isTick = false)
    (hd : (t.reg.peer d).isSome = true) : (t'.reg.peer d).isSome = true := by
  induction h with
  | refl => exact hd
  | tail _ hs ih =>
      rcases Option.isSome_iff_exists.mp ih with ⟨e, he⟩
      rcases hs.entry he with ⟨f, -, rfl⟩ | hsame | ⟨htick, -⟩
      · rw [peer_store he, if_pos rfl]
        rfl
      · rw [hsame]
        rfl
      · rw [hcmd] at htick
        cases htick

/-- What is known of an entry and is kept by every function run on it, and by what happens
elsewhere, is known of it at the end: along one command an entry is never replaced. -/
theorem Steps.track {Q : Turn → PeerEntry → Prop} (h : Steps io cmd t t')
    (hedit : ∀ t e f, t.reg.peer d = some e → Touch io cmd d e f → Q t e →
      Q (t.store d (f (t.focus e))) (f (t.focus e)).entry)
    (hother : ∀ t t' e, Step io cmd t t' → t.reg.peer d = some e → t'.reg.peer d = some e →
      Q t e → Q t' e)
    {e e' : PeerEntry} (he : t.reg.peer d = some e) (he' : t'.reg.peer d = some e')
    (hQ : Q t e) : Q t' e' := by
  -- the entry goes only by a tick, and then it does not come back
  have hall : (∀ e', t'.reg.peer d = some e' → Q t' e') ∧
      (cmd.isTick = false → (t'.reg.peer d).isSome = true) := by
    clear he'
    induction h with
    | refl =>
        constructor
        · intro e' he'
          obtain rfl : e = e' := Option.some.inj (he.symm.trans he')
          exact hQ
        · intro _
          rw [he]
          rfl
    | @tail t₁ t₂ hsteps hs ih =>
        constructor
        · intro e' he'
          cases he₁ : t₁.reg.peer d with
          | none =>
              cases hcmd : cmd.isTick with
              | true =>
                  rw [hs.absent he₁ hcmd] at he'
                  cases he'
              | false =>
                  have hsome := ih.2 hcmd
                  rw [he₁] at hsome
                  cases hsome
          | some e₁ =>
              have hQ₁ := ih.1 e₁ he₁
              rcases hs.entry he₁ with ⟨f, hf, rfl⟩ | hsame | ⟨-, hgone⟩
              · rw [peer_store he₁, if_pos rfl] at he'
                obtain rfl := Option.some.inj he'
                exact hedit t₁ e₁ f he₁ hf hQ₁
              · obtain rfl : e₁ = e' := Option.some.inj (hsame.symm.trans he')
                exact hother t₁ t₂ e₁ hs he₁ hsame hQ₁
              · rw [hgone] at he'
                cases he'
        · intro hcmd
          refine Steps.present (hsteps.tail hs) hcmd ?_
          rw [he]
          rfl
  exact hall.1 e' he'

/-- The same for what is known of the entry alone. -/
theorem Steps.track_entry {Q : PeerEntry → Prop} (h : Steps io cmd t t')
    (hedit : ∀ w f, Touch io cmd d (Edit.entry w) f → Q w.entry → Q (f w).entry)
    {e e' : PeerEntry} (he : t.reg.peer d = some e) (he' : t'.reg.peer d = some e')
    (hQ : Q e) : Q e' := by
  refine Steps.track (Q := fun _ e => Q e) h ?_ ?_ he he' hQ
  · intro t e f _ hf hQ
    exact hedit (t.focus e) f hf hQ
  · intro t t' e _ _ _ hQ
    exact hQ

end Turn

namespace Registry

open Turn

/-! ## Along a run -/

/-- The actions a step emits. -/
def emitted (x : Registry × Label) : List PeerAction :=
  match x.2 with
  | .reorder _ => []
  | .command io cmd => (x.1.handle io cmd).actions

/-- The steps since `d` last had no entry, the one that inserted it included. -/
def incarnation (d : DeviceId) (h : List (Registry × Label)) : List (Registry × Label) :=
  h.foldl (fun acc x => if (x.1.peer d).isNone then [x] else acc ++ [x]) []

theorem incarnation_snoc (d : DeviceId) (h : List (Registry × Label)) (x : Registry × Label) :
    incarnation d (h ++ [x]) = if (x.1.peer d).isNone then [x] else incarnation d h ++ [x] := by
  simp [incarnation]

theorem incarnation_sublist (d : DeviceId) (h : List (Registry × Label)) :
    (incarnation d h).Sublist h := by
  induction h using List.reverseRecOn with
  | nil => exact List.Sublist.refl _
  | append_singleton h x ih =>
      rw [incarnation_snoc]
      split
      · exact List.sublist_append_right h [x]
      · exact ih.append (List.Sublist.refl _)

/-- In every run every entry is stored under its own device. -/
theorem keyed_of_run {h : List (Registry × Label)} {r : Registry} (hrun : system.Run h r) :
    r.Keyed := by
  refine run_invariant keyed_new ?_ ?_ hrun
  · intro r ks hperm hr d e he
    exact hr d e ((Map.lookup_reorder hperm d).symm.trans he)
  · intro io cmd t t' ht hs
    exact keyed_step ht hs

end Registry

end IrohBle
