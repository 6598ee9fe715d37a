import Mathlib.Data.List.Basic
import Mathlib.Data.List.Infix

/-! # Lib.Locked: tasks that make their calls under a lock

A task takes the lock, makes the calls of its body one after another, and releases the lock. Which
of the waiting tasks gets the lock is open. The log of the calls may be wiped at any time, also in
the middle of a body, and starts over then.

* `step_calls`: only taking the lock adds to the calls that are made or still have to be.
* `Whole`: the log consists of whole bodies, but for the rest of one that a wipe has cut.
* `Fresh`: it ends with a whole body.
-/

namespace Lib

universe u v w

/-- Tasks of type `κ` that make calls of type `γ`, each with an outcome of type `ω`. -/
structure Locked (κ : Type u) (γ : Type v) (ω : Type w) where
  waiting : List κ := []
  /-- The calls that the holder of the lock still has to make. -/
  holder : Option (List γ) := none
  log : List (γ × ω) := []

/-- A waiting task takes the lock, or the holder makes a call or releases it. -/
inductive LockedLabel (ω : Type w) where
  /-- The `i`th of the waiting tasks takes the lock. -/
  | acquire (i : ℕ)
  /-- The holder makes its next call. -/
  | call (outcome : ω)
  | release

namespace Locked

variable {κ : Type u} {γ : Type v} {ω : Type w} {body : κ → List γ}

/-- New tasks come to the lock. -/
def spawn (ks : List κ) (s : Locked κ γ ω) : Locked κ γ ω := { s with waiting := s.waiting ++ ks }

/-- The log starts over. -/
def wipe (s : Locked κ γ ω) : Locked κ γ ω := { s with log := [] }

/-- The task has its whole body before it. -/
def acquire (body : κ → List γ) (i : ℕ) (s : Locked κ γ ω) : Option (Locked κ γ ω) :=
  match s.holder, s.waiting[i]? with
  | none, some k => some { s with waiting := s.waiting.eraseIdx i, holder := some (body k) }
  | _, _ => none

/-- The next call is made, with whatever outcome, and logged. -/
def call (outcome : ω) (s : Locked κ γ ω) : Option (Locked κ γ ω) :=
  match s.holder with
  | some (c :: rest) => some { s with holder := some rest, log := s.log ++ [(c, outcome)] }
  | _ => none

/-- Only a body that is done releases the lock. -/
def release (s : Locked κ γ ω) : Option (Locked κ γ ω) :=
  match s.holder with
  | some [] => some { s with holder := none }
  | _ => none

/-- Every interleaving is possible. -/
def step (body : κ → List γ) : LockedLabel ω → Locked κ γ ω → Option (Locked κ γ ω)
  | .acquire i, s => s.acquire body i
  | .call outcome, s => s.call outcome
  | .release, s => s.release

/-! ## The calls that are made or still have to be -/

/-- What the holder still has to call. -/
def remaining (s : Locked κ γ ω) : List γ := s.holder.getD []

/-- The calls that were made, and those that are going to be. -/
def calls (s : Locked κ γ ω) : List γ := s.log.map Prod.fst ++ s.remaining

/-- The calls are those of whole bodies, but for the rest of a body at the front. -/
structure Whole (body : κ → List γ) (s : Locked κ γ ω) : Prop where
  calls : ∃ (cut : List γ) (ks : List κ),
    s.calls = cut ++ ks.flatMap body ∧ (cut = [] ∨ ∃ k, cut <:+ body k)
  remaining : s.remaining = [] ∨ ∃ k, s.remaining <:+ body k

/-- The last of the calls are those of a whole body. -/
def Fresh (body : κ → List γ) (s : Locked κ γ ω) : Prop := ∃ before k, s.calls = before ++ body k

section Steps

variable {s s' : Locked κ γ ω} {l : LockedLabel ω}

/-- A task that takes the lock has its whole body to call; nothing else changes what is called. -/
theorem step_calls (hs : step body l s = some s') :
    (s'.waiting = s.waiting ∧ s'.calls = s.calls ∧ s'.remaining <:+ s.remaining) ∨
      ∃ k ∈ s.waiting, s'.calls = s.calls ++ body k ∧ s'.remaining = body k := by
  cases l with
  | acquire i =>
      change s.acquire body i = _ at hs
      unfold acquire at hs
      split at hs
      · rename_i k hfree hk
        obtain rfl := Option.some.inj hs
        refine .inr ⟨k, List.mem_of_getElem? hk, ?_, rfl⟩
        -- nobody held the lock, so the body of the new holder is all that remains
        have hnothing : s.remaining = [] := by rw [remaining, hfree, Option.getD_none]
        rw [calls, calls, hnothing, List.append_nil]
        rfl
      · cases hs
  | call outcome =>
      change s.call outcome = _ at hs
      unfold call at hs
      split at hs
      · rename_i c rest hholder
        obtain rfl := Option.some.inj hs
        have hremaining : s.remaining = c :: rest := by rw [remaining, hholder, Option.getD_some]
        refine .inl ⟨rfl, ?_, ?_⟩
        · rw [calls, calls, hremaining, List.map_append]
          exact List.append_assoc ..
        · rw [hremaining]
          exact List.suffix_cons c rest
      · cases hs
  | release =>
      change s.release = _ at hs
      unfold release at hs
      split at hs
      · rename_i hholder
        obtain rfl := Option.some.inj hs
        have hremaining : s.remaining = [] := by rw [remaining, hholder, Option.getD_some]
        refine .inl ⟨rfl, ?_, ?_⟩
        · rw [calls, calls, hremaining]
          rfl
        · exact List.nil_suffix
      · cases hs

/-- The invariant over one step. -/
theorem Whole.step (hwhole : s.Whole body) (hs : step body l s = some s') : s'.Whole body := by
  obtain ⟨cut, ks, hcalls, hcut⟩ := hwhole.calls
  rcases step_calls hs with ⟨-, hsame, hrest⟩ | ⟨k, -, hmore, hbody⟩
  · constructor
    · exact ⟨cut, ks, hsame.trans hcalls, hcut⟩
    · rcases hwhole.remaining with hnil | ⟨k, hk⟩
      · rw [hnil] at hrest
        exact .inl (List.suffix_nil.mp hrest)
      · exact .inr ⟨k, hrest.trans hk⟩
  · constructor
    · refine ⟨cut, ks ++ [k], ?_, hcut⟩
      rw [hmore, hcalls, List.flatMap_append, List.flatMap_singleton, List.append_assoc]
    · exact .inr ⟨k, hbody ▸ List.suffix_rfl⟩

/-- After a wipe the rest of the holder's body comes first. -/
theorem Whole.wipe (hwhole : s.Whole body) : s.wipe.Whole body where
  calls := ⟨s.remaining, [], (List.append_nil _).symm, hwhole.remaining⟩
  remaining := hwhole.remaining

theorem Whole.init : ({} : Locked κ γ ω).Whole body where
  calls := ⟨[], [], rfl, .inl rfl⟩
  remaining := .inl rfl

/-- With no task waiting, a fresh log stays fresh; a task that waited makes it so. -/
theorem Fresh.step (hs : step body l s = some s') (hfresh : s.Fresh body ∨ s.waiting ≠ []) :
    s'.Fresh body ∨ s'.waiting ≠ [] := by
  rcases step_calls hs with ⟨hwaiting, hsame, -⟩ | ⟨k, -, hmore, -⟩
  · rcases hfresh with ⟨before, k, hcalls⟩ | hwaits
    · exact .inl ⟨before, k, hsame.trans hcalls⟩
    · exact .inr (hwaiting ▸ hwaits)
  · exact .inl ⟨s.calls, k, hmore⟩

end Steps

end Locked

end Lib
