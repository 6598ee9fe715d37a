import Mathlib.Data.List.Basic
import Mathlib.Data.List.Infix

/-! # Lib.System: labelled transition systems and their runs

Every concurrent component below is a labelled transition system whose step
function is executable: a label names who moves and fixes every choice the
environment makes (a clock reading, a lost message, the outcome of a
`try_send`), so `step` is a partial function and a concrete run can be
evaluated.

* `Run h s`: `s` is reached by a run whose history is `h`, the visited states
  paired with the labels taken from them.
* `Run.invariant`: an inductive invariant holds at the end of every run whose
  steps all meet a side condition.
* `Run.throughout_iff`, `Run.always_iff`, `Run.always_iff_along`: when a step is good exactly if
  it meets the condition, so is the run.
* `Run.since`, `Run.since_step`, `Run.after`: induction along the rest of a run, from one of
  its states or steps on.
* `exec_to_zero`: a measure that can always be lowered can be lowered to zero.
* `Run.prefix_run`: every state of the history is itself reached by a run, so a
  statement about the end of every run is one about all of its states.
-/

namespace Lib

universe u v

/-- A labelled transition system with an executable step. -/
structure System (σ : Type u) (ι : Type v) where
  Init : σ → Prop
  step : ι → σ → Option σ

namespace System

variable {σ : Type u} {ι : Type v} (sys : System σ ι)

/-- `sys.Run h s`: a run of `sys` with history `h` ends in `s`. -/
inductive Run : List (σ × ι) → σ → Prop where
  | init {s : σ} : sys.Init s → Run [] s
  | step {h : List (σ × ι)} {s s' : σ} {l : ι} :
      Run h s → sys.step l s = some s' → Run (h ++ [(s, l)]) s'

/-- Every step of the history meets `C`, a condition on the state before the
step and on its label. -/
def Meets (C : σ → ι → Prop) (h : List (σ × ι)) : Prop :=
  ∀ x ∈ h, C x.1 x.2

/-- Execute a list of labels. -/
def exec : List ι → σ → Option σ
  | [], s => some s
  | l :: ls, s => (sys.step l s).bind (exec ls)

variable {sys}

@[simp] theorem meets_nil (C : σ → ι → Prop) : Meets C [] := by
  simp [Meets]

/-- A condition on steps is checked part by part. -/
@[simp] theorem meets_append {C : σ → ι → Prop} {h h' : List (σ × ι)} :
    Meets C (h ++ h') ↔ Meets C h ∧ Meets C h' := by
  simp only [Meets, List.mem_append]
  constructor
  · intro hC
    exact ⟨fun x hx => hC x (Or.inl hx), fun x hx => hC x (Or.inr hx)⟩
  · rintro ⟨h₁, h₂⟩ x (hx | hx)
    · exact h₁ x hx
    · exact h₂ x hx

@[simp] theorem meets_singleton {C : σ → ι → Prop} {s : σ} {l : ι} :
    Meets C [(s, l)] ↔ C s l := by
  simp [Meets]

/-- Invariant induction along the runs whose steps all meet `C`. -/
theorem Run.invariant {C : σ → ι → Prop} {Inv : σ → Prop}
    (hinit : ∀ s, sys.Init s → Inv s)
    (hstep : ∀ s l s', Inv s → C s l → sys.step l s = some s' → Inv s')
    {h : List (σ × ι)} {s : σ} (hrun : sys.Run h s) (hC : Meets C h) : Inv s := by
  induction hrun with
  | init hs => exact hinit _ hs
  | step _ hs ih =>
      rw [meets_append, meets_singleton] at hC
      exact hstep _ _ _ (ih hC.1) hC.2 hs

/-- Invariant induction along every run. -/
theorem Run.invariant_all {Inv : σ → Prop}
    (hinit : ∀ s, sys.Init s → Inv s)
    (hstep : ∀ s l s', Inv s → sys.step l s = some s' → Inv s')
    {h : List (σ × ι)} {s : σ} (hrun : sys.Run h s) : Inv s :=
  hrun.invariant (C := fun _ _ => True) hinit (fun s l s' hI _ hs => hstep s l s' hI hs)
    (fun _ _ => trivial)

/-- Executing one list of labels after another. -/
theorem exec_append (ls ls' : List ι) (s : σ) :
    sys.exec (ls ++ ls') s = (sys.exec ls s).bind (sys.exec ls') := by
  induction ls generalizing s with
  | nil => rfl
  | cons l ls ih =>
      simp only [List.cons_append, exec]
      cases sys.step l s with
      | none => rfl
      | some t => exact ih t

/-- Where labels of `L` always lead on to a smaller `μ`, they lead to a state where it is zero. -/
theorem exec_to_zero {Inv : σ → Prop} {L : ι → Prop} {μ : σ → ℕ}
    (hround : ∀ s, Inv s → 0 < μ s →
      ∃ ls s', (∀ l ∈ ls, L l) ∧ sys.exec ls s = some s' ∧ Inv s' ∧ μ s' < μ s)
    {s : σ} (hI : Inv s) :
    ∃ ls s', (∀ l ∈ ls, L l) ∧ sys.exec ls s = some s' ∧ Inv s' ∧ μ s' = 0 := by
  induction hn : μ s using Nat.strong_induction_on generalizing s with
  | _ n ih =>
      subst hn
      rcases Nat.eq_zero_or_pos (μ s) with hzero | hpos
      · exact ⟨[], s, by simp, rfl, hI, hzero⟩
      · obtain ⟨ls, t, hls, hex, ht, hlt⟩ := hround s hI hpos
        obtain ⟨ls', s', hls', hex', hs', hzero⟩ := ih (μ t) hlt ht rfl
        refine ⟨ls ++ ls', s', ?_, ?_, hs', hzero⟩
        · intro l hl
          rcases List.mem_append.mp hl with hl | hl
          · exact hls l hl
          · exact hls' l hl
        · rw [exec_append, hex]
          exact hex'

/-- A run of labels from the end of a run extends it. -/
theorem Run.extend {h : List (σ × ι)} {s s' : σ} (ls : List ι) (hrun : sys.Run h s)
    (hex : sys.exec ls s = some s') :
    ∃ h', sys.Run (h ++ h') s' ∧ h'.map Prod.snd = ls := by
  induction ls generalizing h s with
  | nil =>
      simp only [exec, Option.some.injEq] at hex
      subst hex
      exact ⟨[], by simpa using hrun, rfl⟩
  | cons l ls ih =>
      simp only [exec, Option.bind_eq_some_iff] at hex
      obtain ⟨t, ht, hex⟩ := hex
      obtain ⟨h', hr, hl⟩ := ih (hrun.step ht) hex
      exact ⟨(s, l) :: h', by simpa using hr, by simp [hl]⟩

/-- A state computed from an initial one by executing labels is reached by the
run of these labels. -/
theorem Run.of_exec {P : σ → Prop} [DecidablePred P] {s₀ : σ} (ls : List ι) (h₀ : sys.Init s₀)
    (hex : (sys.exec ls s₀).any (fun s => decide (P s)) = true) :
    ∃ h s, sys.Run h s ∧ h.map Prod.snd = ls ∧ P s := by
  rw [Option.any_eq_true] at hex
  obtain ⟨s, hs, hP⟩ := hex
  obtain ⟨h', hr, hl⟩ := Run.extend ls (Run.init h₀) hs
  exact ⟨h', s, by simpa using hr, hl, of_decide_eq_true hP⟩

/-- Execute a list of labels and keep the history. -/
def trace (sys : System σ ι) : List ι → σ → Option (List (σ × ι) × σ)
  | [], s => some ([], s)
  | l :: ls, s => (sys.step l s).bind fun s' => (trace sys ls s').map fun x => ((s, l) :: x.1, x.2)

/-- A run goes on with the steps of a trace. -/
theorem Run.append_trace {h h' : List (σ × ι)} {s s' : σ} (ls : List ι) (hrun : sys.Run h s)
    (hex : sys.trace ls s = some (h', s')) : sys.Run (h ++ h') s' ∧ h'.map Prod.snd = ls := by
  induction ls generalizing h s h' with
  | nil =>
      simp only [trace, Option.some.injEq, Prod.mk.injEq] at hex
      obtain ⟨rfl, rfl⟩ := hex
      exact ⟨by simpa using hrun, rfl⟩
  | cons l ls ih =>
      simp only [trace, Option.bind_eq_some_iff, Option.map_eq_some_iff, Prod.mk.injEq] at hex
      obtain ⟨t, ht, ⟨k, s₁⟩, hk, rfl, rfl⟩ := hex
      obtain ⟨hr, hl⟩ := ih (hrun.step ht) hk
      exact ⟨by simpa using hr, by simp [hl]⟩

/-- The run of a list of labels, with what can be computed of its history. -/
theorem Run.of_trace {P : List (σ × ι) → σ → Prop} [∀ h s, Decidable (P h s)] {s₀ : σ}
    (ls : List ι) (h₀ : sys.Init s₀)
    (hex : (sys.trace ls s₀).any (fun x => decide (P x.1 x.2)) = true) :
    ∃ h s, sys.Run h s ∧ h.map Prod.snd = ls ∧ P h s := by
  rw [Option.any_eq_true] at hex
  obtain ⟨⟨h, s⟩, hs, hP⟩ := hex
  obtain ⟨hr, hl⟩ := Run.append_trace ls (Run.init h₀) hs
  exact ⟨h, s, hr, hl, of_decide_eq_true hP⟩

/-- Execute a list of labels as long as every step meets `C`. -/
def execMeets (sys : System σ ι) (C : σ → ι → Prop) [∀ s l, Decidable (C s l)] :
    List ι → σ → Option σ
  | [], s => some s
  | l :: ls, s => if C s l then (sys.step l s).bind (execMeets sys C ls) else none

/-- Running a concatenation, each step being checked, is running its parts. -/
theorem execMeets_append {C : σ → ι → Prop} [∀ s l, Decidable (C s l)] (ls ls' : List ι) (s : σ) :
    sys.execMeets C (ls ++ ls') s = (sys.execMeets C ls s).bind (sys.execMeets C ls') := by
  induction ls generalizing s with
  | nil => rfl
  | cons l ls ih =>
      simp only [List.cons_append, execMeets]
      split
      · cases sys.step l s with
        | none => rfl
        | some t => exact ih t
      · rfl

/-- Labels that meet `C` in every state. -/
theorem execMeets_eq_exec {C : σ → ι → Prop} [∀ s l, Decidable (C s l)] {ls : List ι}
    (h : ∀ l ∈ ls, ∀ s, C s l) (s : σ) : sys.execMeets C ls s = sys.exec ls s := by
  induction ls generalizing s with
  | nil => rfl
  | cons l ls ih =>
      rw [execMeets, exec, if_pos (h l List.mem_cons_self s)]
      cases sys.step l s with
      | none => rfl
      | some t => exact ih (fun l' hl' => h l' (List.mem_cons_of_mem l hl')) t

/-- A run whose steps all meet the condition goes on with checked ones. -/
theorem Run.extendMeets {C : σ → ι → Prop} [∀ s l, Decidable (C s l)] {h : List (σ × ι)}
    {s s' : σ} (ls : List ι) (hrun : sys.Run h s) (hC : Meets C h)
    (hex : sys.execMeets C ls s = some s') :
    ∃ h', sys.Run (h ++ h') s' ∧ Meets C (h ++ h') ∧ h'.map Prod.snd = ls := by
  induction ls generalizing h s with
  | nil =>
      simp only [execMeets, Option.some.injEq] at hex
      subst hex
      exact ⟨[], by simpa using hrun, by simpa using hC, rfl⟩
  | cons l ls ih =>
      unfold execMeets at hex
      split at hex
      · rename_i hCl
        simp only [Option.bind_eq_some_iff] at hex
        obtain ⟨t, ht, hex⟩ := hex
        obtain ⟨h', hr, hC', hl⟩ := ih (hrun.step ht) (by simp [hC, hCl]) hex
        rw [List.append_assoc] at hr hC'
        exact ⟨(s, l) :: h', hr, hC', by simp [hl]⟩
      · cases hex

/-- Labels executed under `C` from an initial state give a run whose steps all
meet `C`. -/
theorem Run.of_execMeets {C : σ → ι → Prop} [∀ s l, Decidable (C s l)] {P : σ → Prop}
    [DecidablePred P] {s₀ : σ} (ls : List ι) (h₀ : sys.Init s₀)
    (hex : (sys.execMeets C ls s₀).any (fun s => decide (P s)) = true) :
    ∃ h s, sys.Run h s ∧ Meets C h ∧ h.map Prod.snd = ls ∧ P s := by
  rw [Option.any_eq_true] at hex
  obtain ⟨s, hs, hP⟩ := hex
  obtain ⟨h', hr, hC, hl⟩ := Run.extendMeets ls (Run.init h₀) (meets_nil C) hs
  exact ⟨h', s, by simpa using hr, by simpa using hC, hl, of_decide_eq_true hP⟩

/-- The state before any step of a run is reached by the run up to it. -/
theorem Run.prefix_run {h : List (σ × ι)} {s : σ} (hrun : sys.Run h s) :
    ∀ x ∈ h, ∃ h', h' <+: h ∧ sys.Run h' x.1 := by
  induction hrun with
  | init _ => simp
  | @step h s s' l hr hs ih =>
      intro x hx
      rcases List.mem_append.mp hx with hx | hx
      · obtain ⟨h', hp, hr'⟩ := ih x hx
        exact ⟨h', hp.trans (List.prefix_append _ _), hr'⟩
      · obtain rfl : x = (s, l) := by simpa using hx
        exact ⟨h, List.prefix_append _ _, hr⟩

/-- The last step of a run. -/
theorem Run.snoc_inv {h : List (σ × ι)} {x : σ × ι} {s : σ} (hrun : sys.Run (h ++ [x]) s) :
    sys.Run h x.1 ∧ sys.step x.2 x.1 = some s := by
  generalize hH : h ++ [x] = H at hrun
  cases hrun with
  | init _ => simp at hH
  | @step h' s₀ _ l hr hs =>
      obtain ⟨rfl, hx⟩ := List.append_inj' hH rfl
      obtain rfl : x = (s₀, l) := by simpa using hx
      exact ⟨hr, hs⟩

/-- Induction along a run from one of its states on: `P k s` is about what has happened
since, `k`, and the state reached. -/
theorem Run.since {C : σ → ι → Prop} {P : List (σ × ι) → σ → Prop} {h₁ h₂ : List (σ × ι)}
    {x : σ × ι} {s : σ} (hrun : sys.Run (h₁ ++ x :: h₂) s) (hC : Meets C (x :: h₂))
    (hstart : P [] x.1)
    (hstep : ∀ k s l s', sys.Run (h₁ ++ k) s → C s l → P k s → sys.step l s = some s' →
      P (k ++ [(s, l)]) s') : P (x :: h₂) s := by
  induction h₂ using List.reverseRecOn generalizing s with
  | nil =>
      obtain ⟨hr, hs⟩ := hrun.snoc_inv
      have hx := hstep [] x.1 x.2 s (by simpa using hr) (by simpa [Meets] using hC) hstart hs
      simpa using hx
  | append_singleton h₂ y ih =>
      rw [show h₁ ++ x :: (h₂ ++ [y]) = (h₁ ++ x :: h₂) ++ [y] by simp] at hrun
      rw [← List.cons_append, meets_append, meets_singleton] at hC
      obtain ⟨hr, hs⟩ := hrun.snoc_inv
      exact hstep (x :: h₂) y.1 y.2 s hr hC.2 (ih hr hC.1) hs

/-- The step of a history at a label. -/
theorem split_labels {h : List (σ × ι)} {ls ls' : List ι} {l : ι}
    (hl : h.map Prod.snd = ls ++ l :: ls') :
    ∃ h₁ s h₂, h = h₁ ++ (s, l) :: h₂ ∧ h₁.map Prod.snd = ls ∧ h₂.map Prod.snd = ls' := by
  obtain ⟨h₁, k, rfl, h₁l, hk⟩ := List.map_eq_append_iff.mp hl
  obtain ⟨⟨s, _⟩, h₂, rfl, rfl, h₂l⟩ := List.map_eq_cons_iff.mp hk
  exact ⟨h₁, s, h₂, rfl, h₁l, h₂l⟩

/-- A run up to a step that it takes. -/
theorem Run.before {h₁ h₂ : List (σ × ι)} {x : σ × ι} {s : σ} (hrun : sys.Run (h₁ ++ x :: h₂) s) :
    sys.Run h₁ x.1 := by
  induction h₂ using List.reverseRecOn generalizing s with
  | nil => exact hrun.snoc_inv.1
  | append_singleton h₂ y ih =>
      rw [← List.cons_append, ← List.append_assoc] at hrun
      exact ih hrun.snoc_inv.1

/-- Induction along a run from the state that one of its steps leads to: `P k s` is about what
has happened from that step on, `k`, and the state reached. -/
theorem Run.since_step {C : σ → ι → Prop} {P : List (σ × ι) → σ → Prop} {h₁ h₂ : List (σ × ι)}
    {x : σ × ι} {s : σ} (hrun : sys.Run (h₁ ++ x :: h₂) s) (hC : Meets C h₂)
    (hstart : ∀ s, sys.Run h₁ x.1 → sys.step x.2 x.1 = some s → P [x] s)
    (hstep : ∀ k s l s', sys.Run (h₁ ++ k) s → C s l → P k s → sys.step l s = some s' →
      P (k ++ [(s, l)]) s') : P (x :: h₂) s := by
  induction h₂ using List.reverseRecOn generalizing s with
  | nil =>
      obtain ⟨hr, hs⟩ := hrun.snoc_inv
      exact hstart s hr hs
  | append_singleton h₂ y ih =>
      rw [show h₁ ++ x :: (h₂ ++ [y]) = (h₁ ++ x :: h₂) ++ [y] by simp] at hrun
      rw [meets_append, meets_singleton] at hC
      obtain ⟨hr, hs⟩ := hrun.snoc_inv
      exact hstep (x :: h₂) y.1 y.2 s hr hC.2 (ih hr hC.1) hs

/-- The same for a property of the state alone. -/
theorem Run.after {C : σ → ι → Prop} {P : σ → Prop} {h₁ h₂ : List (σ × ι)} {x : σ × ι} {s : σ}
    (hrun : sys.Run (h₁ ++ x :: h₂) s) (hC : Meets C h₂)
    (hstart : ∀ s, sys.Run h₁ x.1 → sys.step x.2 x.1 = some s → P s)
    (hstep : ∀ h s l s', sys.Run h s → C s l → P s → sys.step l s = some s' → P s') : P s :=
  hrun.since_step (P := fun _ s => P s) hC hstart fun k => hstep (h₁ ++ k)

/-- A side condition met by a history is met by its prefixes. -/
theorem Meets.mono_prefix {C : σ → ι → Prop} {h h' : List (σ × ι)} (hp : h' <+: h)
    (hC : Meets C h) : Meets C h' :=
  fun x hx => hC x (hp.subset hx)

/-- `P` holds in every state the run visits, its last one included. -/
def Throughout (P : σ → Prop) (h : List (σ × ι)) (s : σ) : Prop :=
  (∀ x ∈ h, P x.1) ∧ P s

/-- When a step out of a good state is good exactly if it meets `C`, a run is
good throughout exactly if all of its steps meet `C`. -/
theorem Run.throughout_iff {C : σ → ι → Prop} {P : σ → Prop}
    (hinit : ∀ s, sys.Init s → P s)
    (hstep : ∀ h s l s', sys.Run h s → P s → sys.step l s = some s' → (P s' ↔ C s l))
    {h : List (σ × ι)} {s : σ} (hrun : sys.Run h s) : Throughout P h s ↔ Meets C h := by
  induction hrun with
  | init hs =>
      constructor
      · intro _
        exact meets_nil C
      · intro _
        exact ⟨by simp, hinit _ hs⟩
  | @step h s s' l hr hs ih =>
      rw [meets_append, meets_singleton, ← ih]
      constructor
      · rintro ⟨hall, hP'⟩
        have hP : P s := hall (s, l) (by simp)
        exact ⟨⟨fun x hx => hall x (by simp [hx]), hP⟩, (hstep h s l s' hr hP hs).mp hP'⟩
      · rintro ⟨⟨hall, hP⟩, hC⟩
        refine ⟨?_, (hstep h s l s' hr hP hs).mpr hC⟩
        intro x hx
        rcases List.mem_append.mp hx with hx | hx
        · exact hall x hx
        · rw [List.mem_singleton.mp hx]
          exact hP

/-- `P` holds at every point of the run with history `h`: of what has happened up to there
and of the state reached. -/
def Always (sys : System σ ι) (P : List (σ × ι) → σ → Prop) (h : List (σ × ι)) : Prop :=
  ∀ k s, k <+: h → sys.Run k s → P k s

/-- Every step of the history meets `C`, a condition on what has happened before the step, on the
state there and on the label. -/
def Along (C : List (σ × ι) → σ → ι → Prop) (h : List (σ × ι)) : Prop :=
  ∀ k x, k ++ [x] <+: h → C k x.1 x.2

theorem along_nil (C : List (σ × ι) → σ → ι → Prop) : Along C [] := by
  intro k x hk
  simp at hk

/-- A condition on the history is checked step by step. -/
theorem along_append {C : List (σ × ι) → σ → ι → Prop} {h : List (σ × ι)} {s : σ} {l : ι} :
    Along C (h ++ [(s, l)]) ↔ Along C h ∧ C h s l := by
  constructor
  · intro hC
    refine ⟨?_, hC h (s, l) (List.prefix_refl _)⟩
    intro k x hk
    exact hC k x (hk.trans (List.prefix_append _ _))
  · rintro ⟨hC, hlast⟩ k x hk
    rcases List.prefix_concat_iff.mp hk with heq | hk
    · obtain ⟨rfl, hx⟩ := List.append_inj' heq rfl
      obtain rfl : x = (s, l) := by simpa using hx
      exact hlast
    · exact hC k x hk

/-- A condition that does not look at the history. -/
theorem along_iff_meets {C : σ → ι → Prop} {h : List (σ × ι)} :
    Along (fun _ => C) h ↔ Meets C h := by
  constructor
  · intro hC x hx
    rcases List.append_of_mem hx with ⟨k, k', rfl⟩
    exact hC k x ⟨k', by simp⟩
  · intro hC k x hk
    exact hC x (hk.subset (by simp))

/-- Two conditions that agree wherever a run comes agree along it. -/
theorem Run.along_congr {C C' : List (σ × ι) → σ → ι → Prop}
    (hC : ∀ h s l, sys.Run h s → (C h s l ↔ C' h s l)) {h : List (σ × ι)} {s : σ}
    (hrun : sys.Run h s) : Along C h ↔ Along C' h := by
  induction hrun with
  | init _ => exact iff_of_true (along_nil C) (along_nil C')
  | step hr _ ih => rw [along_append, along_append, ih, hC _ _ _ hr]

/-- The condition at each position of the history. -/
theorem along_iff_get {C : List (σ × ι) → σ → ι → Prop} {h : List (σ × ι)} :
    Along C h ↔ ∀ i : Fin h.length, C (h.take i) (h.get i).1 (h.get i).2 := by
  constructor
  · intro hC i
    refine hC (h.take i) (h.get i) ?_
    rw [List.get_eq_getElem, List.take_concat_get']
    exact List.take_prefix _ _
  · rintro hC k x ⟨k', rfl⟩
    have hi : k.length < (k ++ [x] ++ k').length := by simp
    have hx := hC ⟨k.length, hi⟩
    simpa using hx

instance {C : List (σ × ι) → σ → ι → Prop} [∀ k s l, Decidable (C k s l)] (h : List (σ × ι)) :
    Decidable (Along C h) := decidable_of_iff _ along_iff_get.symm

/-- The same for a property of the history and the state, and a condition on both. -/
theorem Run.always_iff_along {C : List (σ × ι) → σ → ι → Prop} {P : List (σ × ι) → σ → Prop}
    (hinit : ∀ s, sys.Init s → P [] s)
    (hstep : ∀ h s l s', sys.Run h s → P h s → sys.step l s = some s' →
      (P (h ++ [(s, l)]) s' ↔ C h s l))
    {h : List (σ × ι)} {s : σ} (hrun : sys.Run h s) : sys.Always P h ↔ Along C h := by
  induction hrun with
  | init hs =>
      constructor
      · intro _
        exact along_nil C
      · intro _ k s hk hr
        obtain rfl := List.prefix_nil.mp hk
        generalize hH : ([] : List (σ × ι)) = H at hr
        cases hr with
        | init hs => exact hinit _ hs
        | step _ _ => simp at hH
  | @step h s s' l hr hs ih =>
      rw [along_append, ← ih]
      constructor
      · intro hall
        have hP : P h s := hall h s (List.prefix_append _ _) hr
        refine ⟨fun k t hk => hall k t (hk.trans (List.prefix_append _ _)), ?_⟩
        exact (hstep h s l s' hr hP hs).mp (hall _ s' (List.prefix_refl _) (hr.step hs))
      · rintro ⟨hall, hC⟩ k t hk hrt
        rcases List.prefix_concat_iff.mp hk with rfl | hk
        · obtain ⟨-, ht⟩ := hrt.snoc_inv
          exact (hstep h s l t hr (hall h s (List.prefix_refl _) hr) ht).mpr hC
        · exact hall k t hk hrt

/-- The same for a condition on the state alone. -/
theorem Run.always_iff {C : σ → ι → Prop} {P : List (σ × ι) → σ → Prop}
    (hinit : ∀ s, sys.Init s → P [] s)
    (hstep : ∀ h s l s', sys.Run h s → P h s → sys.step l s = some s' →
      (P (h ++ [(s, l)]) s' ↔ C s l))
    {h : List (σ × ι)} {s : σ} (hrun : sys.Run h s) : sys.Always P h ↔ Meets C h := by
  rw [← along_iff_meets]
  exact hrun.always_iff_along hinit hstep

end System

end Lib
