import IrohBle.Registry.Dedup
import Mathlib.Data.List.Perm.Subperm
import Mathlib.Data.Prod.Lex
import Mathlib.Data.String.Basic

/-! # Registry.Winner: the entry a verified endpoint keeps

`dedup_winner` takes the first candidate whose role the rule keeps and, where none has that
role, the one that has been `Connected` last. `dedupWinner_eq_iff` says the same pair by
pair: the survivor is the candidate that every other one gives way to (`GivesWay`). `Yields` is
the same on the registry.
-/

namespace IrohBle

open Lib Reliable Registry

/-! ## Choosing from a list -/

section Choice

variable {α : Type}

/-- In a list without duplicates the first element that satisfies `q` comes before every
other that does. -/
theorem find?_eq_some_iff_first {l : List α} {q : α → Bool} {a : α} (hnodup : l.Nodup)
    (ha : a ∈ l) :
    l.find? q = some a ↔
      q a = true ∧ ∀ b ∈ l, b ≠ a → q b = true → [a, b].Sublist l := by
  obtain ⟨as, bs, rfl⟩ := List.append_of_mem ha
  rw [List.nodup_append] at hnodup
  obtain ⟨-, hbs, hdisj⟩ := hnodup
  constructor
  · intro hfind
    refine ⟨List.find?_some hfind, ?_⟩
    intro b hb hne hqb
    rcases List.mem_append.mp hb with hb | hb
    · -- what comes before the first one does not satisfy `q`
      obtain ⟨-, as', bs', heq, hno⟩ := List.find?_eq_some_iff_append.mp hfind
      have hnot : a ∉ as := fun hmem => hdisj a hmem a List.mem_cons_self rfl
      have hnot' : a ∉ bs := (List.nodup_cons.mp hbs).1
      obtain ⟨rfl, -, -⟩ := (List.append_cons_inj_of_notMem hnot hnot').mp heq
      have hqb' := hno b hb
      rw [hqb] at hqb'
      cases hqb'
    · rcases List.mem_cons.mp hb with rfl | hb
      · exact absurd rfl hne
      · exact ((List.singleton_sublist.mpr hb).cons_cons a).trans (List.sublist_append_right _ _)
  · rintro ⟨hqa, hfirst⟩
    refine List.find?_eq_some_iff_append.mpr ⟨hqa, as, bs, rfl, ?_⟩
    intro b hb
    by_contra hqb
    have hqb' : q b = true := by simpa using hqb
    have hne : b ≠ a := fun heq => hdisj b hb a List.mem_cons_self heq
    -- `b` stands before `a`, and `a` before `b`
    obtain ⟨l₁, l₂, heq, hl₁, hl₂⟩ :=
      List.sublist_append_iff.mp (hfirst b (List.mem_append_left _ hb) hne hqb')
    cases l₁ with
    | nil =>
        rw [List.nil_append] at heq
        subst heq
        exact hdisj b hb b (hl₂.subset (by simp)) rfl
    | cons c l₁ =>
        obtain rfl : a = c := (List.cons.inj heq).1
        exact hdisj a (hl₁.subset List.mem_cons_self) a List.mem_cons_self rfl

end Choice

namespace Turn

variable {t : Turn} {now : ℕ} {endpoint : EndpointId} {ds : List DeviceId} {d : DeviceId}

/-! ## The latest of the candidates -/

/-- One more device in the list is compared with the latest so far. -/
theorem latestConnected_snoc (t : Turn) (now : ℕ) (ds : List DeviceId) (d : DeviceId) :
    t.latestConnected now (ds ++ [d]) =
      match t.latestConnected now ds with
      | none => some d
      | some b =>
        if toLex (t.connectedKey now b) ≤ toLex (t.connectedKey now d) then some d else some b := by
  unfold latestConnected
  rw [List.foldl_append, List.foldl_cons, List.foldl_nil]
  generalize List.foldl _ _ _ = best
  cases best with
  | none => rfl
  | some b => exact if_congr Prod.Lex.toLex_le_toLex.symm rfl rfl

/-- There is one among any candidates, and none has been `Connected` later. -/
theorem latestConnected_spec (t : Turn) (now : ℕ) (ds : List DeviceId) (hds : ds ≠ []) :
    ∃ b ∈ ds, t.latestConnected now ds = some b ∧
      ∀ d ∈ ds, toLex (t.connectedKey now d) ≤ toLex (t.connectedKey now b) := by
  induction ds using List.reverseRecOn with
  | nil => exact absurd rfl hds
  | append_singleton ds d ih =>
      rw [latestConnected_snoc]
      rcases eq_or_ne ds [] with rfl | hne
      · exact ⟨d, by simp, rfl, by simp⟩
      · rcases ih hne with ⟨b, hb, hlatest, hmax⟩
        simp only [hlatest]
        by_cases hle : toLex (t.connectedKey now b) ≤ toLex (t.connectedKey now d)
        · refine ⟨d, by simp, if_pos hle, ?_⟩
          intro d' hd'
          rcases List.mem_append.mp hd' with hd' | hd'
          · exact (hmax d' hd').trans hle
          · rw [List.mem_singleton.mp hd']
        · refine ⟨b, List.mem_append_left _ hb, if_neg hle, ?_⟩
          intro d' hd'
          rcases List.mem_append.mp hd' with hd' | hd'
          · exact hmax d' hd'
          · rw [List.mem_singleton.mp hd']
            exact (lt_of_not_ge hle).le

/-- The latest one was `Connected` after every other: device ids break the ties. -/
theorem latestConnected_eq_iff (hd : d ∈ ds)
    (hkey : ∀ d' ∈ ds, (t.connectedKey now d').2 = d') :
    t.latestConnected now ds = some d ↔
      ∀ d' ∈ ds, d' ≠ d → toLex (t.connectedKey now d') < toLex (t.connectedKey now d) := by
  rcases latestConnected_spec t now ds (List.ne_nil_of_mem hd) with ⟨b, hb, hlatest, hmax⟩
  constructor
  · intro heq d' hd' hne
    obtain rfl : b = d := Option.some.inj (hlatest.symm.trans heq)
    refine lt_of_le_of_ne (hmax d' hd') ?_
    intro hsame
    have hsnd : (t.connectedKey now d').2 = (t.connectedKey now b).2 :=
      congrArg Prod.snd (toLex.injective hsame)
    rw [hkey d' hd', hkey b hb] at hsnd
    exact hne hsnd
  · intro hlater
    by_contra hno
    have hne : b ≠ d := by
      rintro rfl
      exact hno hlatest
    exact absurd (hmax d hd) (not_le_of_gt (hlater b hb hne))

/-! ## The survivor -/

/-- The candidate `d'` with entry `e'` gives way to `d` with entry `e`: the role that the rule
keeps goes first, then the place in the iteration order, and where neither has that role,
the time of the connection. -/
def GivesWay (t : Turn) (now : ℕ) (endpoint : EndpointId) (ds : List DeviceId) (d d' : DeviceId)
    (e e' : PeerEntry) : Prop :=
  if shouldWin e.role t.reg.myEndpoint endpoint = true then
    shouldWin e'.role t.reg.myEndpoint endpoint = true → [d, d'].Sublist ds
  else
    shouldWin e'.role t.reg.myEndpoint endpoint = false ∧
      toLex (t.connectedKey now d') < toLex (t.connectedKey now d)

/-- The survivor is the candidate that every other one gives way to. -/
theorem dedupWinner_eq_iff (endpoint : EndpointId) (hnodup : ds.Nodup) (hd : d ∈ ds) {e : PeerEntry}
    (he : t.reg.peer d = some e) (hpeer : ∀ d' ∈ ds, (t.reg.peer d').isSome = true)
    (hkey : ∀ d' ∈ ds, (t.connectedKey now d').2 = d') :
    t.dedupWinner now endpoint ds = some d ↔
      ∀ d' ∈ ds, d' ≠ d → ∀ e', t.reg.peer d' = some e' → t.GivesWay now endpoint ds d d' e e' := by
  have hany : ∀ {d e}, t.reg.peer d = some e →
      ((t.reg.peer d).any fun e => shouldWin e.role t.reg.myEndpoint endpoint) =
        shouldWin e.role t.reg.myEndpoint endpoint := by
    intro d e he
    rw [he]
    rfl
  unfold dedupWinner GivesWay
  by_cases hrole : shouldWin e.role t.reg.myEndpoint endpoint = true
  · -- `d` has the role: it has to be the first that does
    have hq := (hany he).trans hrole
    have hsome : (ds.find? fun d => (t.reg.peer d).any fun e =>
        shouldWin e.role t.reg.myEndpoint endpoint).isSome = true :=
      List.find?_isSome.mpr ⟨d, hd, hq⟩
    rcases Option.isSome_iff_exists.mp hsome with ⟨b, hb⟩
    simp only [hb, if_pos hrole]
    rw [← hb, find?_eq_some_iff_first hnodup hd]
    constructor
    · rintro ⟨-, hfirst⟩ d' hd' hne e' he' hwin
      exact hfirst d' hd' hne ((hany he').trans hwin)
    · intro hall
      refine ⟨hq, ?_⟩
      intro d' hd' hne hwin
      rcases Option.isSome_iff_exists.mp (hpeer d' hd') with ⟨e', he'⟩
      exact hall d' hd' hne e' he' ((hany he').symm.trans hwin)
  · simp only [if_neg hrole]
    cases hfind : ds.find? fun d => (t.reg.peer d).any fun e =>
        shouldWin e.role t.reg.myEndpoint endpoint with
    | some b =>
        -- somebody else has it
        dsimp only
        have hbq := List.find?_some hfind
        have hbmem := List.mem_of_find?_eq_some hfind
        rcases Option.isSome_iff_exists.mp (hpeer b hbmem) with ⟨eb, heb⟩
        rw [hany heb] at hbq
        have hne : b ≠ d := by
          rintro rfl
          obtain rfl : eb = e := Option.some.inj (heb.symm.trans he)
          exact hrole hbq
        refine iff_of_false (fun heq => hne (Option.some.inj heq)) ?_
        intro hall
        rw [(hall b hbmem hne eb heb).1] at hbq
        cases hbq
    | none =>
        dsimp only
        rw [latestConnected_eq_iff hd hkey]
        have hnone : ∀ d' ∈ ds, ∀ e', t.reg.peer d' = some e' →
            shouldWin e'.role t.reg.myEndpoint endpoint = false := by
          intro d' hd' e' he'
          have hno := List.find?_eq_none.mp hfind d' hd'
          rw [hany he'] at hno
          simpa using hno
        constructor
        · intro hlater d' hd' hne e' he'
          exact ⟨hnone d' hd' e' he', hlater d' hd' hne⟩
        · intro hall d' hd' hne
          rcases Option.isSome_iff_exists.mp (hpeer d' hd') with ⟨e', he'⟩
          exact (hall d' hd' hne e' he').2

/-- Among any candidates there is a survivor. -/
theorem exists_dedupWinner (t : Turn) (now : ℕ) (endpoint : EndpointId) (hds : ds ≠ []) :
    ∃ d ∈ ds, t.dedupWinner now endpoint ds = some d := by
  unfold dedupWinner
  cases hfind : ds.find? fun d => (t.reg.peer d).any fun e =>
      shouldWin e.role t.reg.myEndpoint endpoint with
  | some d => exact ⟨d, List.mem_of_find?_eq_some hfind, rfl⟩
  | none =>
      obtain ⟨d, hd, hlatest, -⟩ := latestConnected_spec t now ds hds
      exact ⟨d, hd, hlatest⟩

/-- A live entry is kept exactly if every other live one gives way. -/
theorem not_loses_iff {e : PeerEntry} (he : t.reg.peer d = some e)
    (hlive : liveFor (prefixFromEndpoint endpoint) e = true) :
    ¬ t.Loses now endpoint d ↔ ∀ d' e', t.reg.peer d' = some e' → d' ≠ d →
      liveFor (prefixFromEndpoint endpoint) e' = true →
      t.GivesWay now endpoint (t.devicesWhere (liveFor (prefixFromEndpoint endpoint))) d d' e e' := by
  have hmem : d ∈ t.devicesWhere (liveFor (prefixFromEndpoint endpoint)) :=
    (mem_devicesWhere_iff he).mpr hlive
  have hnodup := nodup_devicesWhere t (liveFor (prefixFromEndpoint endpoint))
  have hentry : ∀ d' ∈ t.devicesWhere (liveFor (prefixFromEndpoint endpoint)),
      ∃ e', t.reg.peer d' = some e' ∧ liveFor (prefixFromEndpoint endpoint) e' = true :=
    fun d' hd' => mem_devicesWhere hd'
  have hkey : ∀ d' ∈ t.devicesWhere (liveFor (prefixFromEndpoint endpoint)),
      (t.connectedKey now d').2 = d' := by
    intro d' _
    unfold connectedKey
    split <;> rfl
  have hwinner := dedupWinner_eq_iff endpoint hnodup hmem he
    (fun d' hd' => Option.isSome_iff_exists.mpr ((hentry d' hd').imp fun _ h => h.1)) hkey
  have hall : (∀ d' ∈ t.devicesWhere (liveFor (prefixFromEndpoint endpoint)), d' ≠ d →
      ∀ e', t.reg.peer d' = some e' → t.GivesWay now endpoint
        (t.devicesWhere (liveFor (prefixFromEndpoint endpoint))) d d' e e') ↔
      ∀ d' e', t.reg.peer d' = some e' → d' ≠ d →
        liveFor (prefixFromEndpoint endpoint) e' = true → t.GivesWay now endpoint
          (t.devicesWhere (liveFor (prefixFromEndpoint endpoint))) d d' e e' := by
    constructor
    · intro h d' e' he' hne hlive'
      exact h d' ((mem_devicesWhere_iff he').mpr hlive') hne e' he'
    · intro h d' hd' hne e' he'
      exact h d' e' he' hne ((mem_devicesWhere_iff he').mp hd')
  rw [← hall, ← hwinner]
  unfold Loses
  constructor
  · intro hkept
    by_contra hother
    -- with a single candidate there is nobody to lose against
    have hone : ¬ 2 ≤ (t.devicesWhere (liveFor (prefixFromEndpoint endpoint))).length :=
      fun htwo => hkept ⟨htwo, hother⟩
    refine hother (hwinner.mpr ?_)
    intro d' hd' hne
    exfalso
    have hpair : [d', d].Nodup := by simp [hne]
    have hsub : [d', d] ⊆ t.devicesWhere (liveFor (prefixFromEndpoint endpoint)) := by
      intro x hx
      rcases List.mem_pair.mp hx with rfl | rfl
      · exact hd'
      · exact hmem
    exact hone (List.subperm_of_subset hpair hsub).length_le
  · rintro heq ⟨-, hother⟩
    exact hother heq

/-- The candidates are iterated over as all entries are. -/
theorem pair_sublist_devicesWhere {q : PeerEntry → Bool} {d' : DeviceId} {e e' : PeerEntry}
    (he : t.reg.peer d = some e) (hq : q e = true) (he' : t.reg.peer d' = some e')
    (hq' : q e' = true) :
    [d, d'].Sublist (t.devicesWhere q) ↔ [d, d'].Sublist t.reg.peers.keys := by
  have hentry : ∀ {d e}, t.reg.peer d = some e → ∀ x ∈ t.reg.peers.entries, x.1 = d → x = ⟨d, e⟩ := by
    rintro d e he ⟨d₁, e₁⟩ hx rfl
    obtain rfl : e₁ = e := Option.some.inj ((peer_of_mem_entries hx).symm.trans he)
    rfl
  unfold devicesWhere
  constructor
  · intro hsub
    exact hsub.trans (List.filter_sublist.map Sigma.fst)
  · intro hsub
    obtain ⟨l, hl, heq⟩ := List.sublist_map_iff.mp hsub
    have hlen : l.length = 2 := by
      rw [← List.length_map Sigma.fst, ← heq]
      rfl
    obtain ⟨x, y, rfl⟩ := List.length_eq_two.mp hlen
    simp only [List.map_cons, List.map_nil, List.cons.injEq, and_true] at heq
    obtain rfl := hentry he x (hl.subset (by simp)) heq.1.symm
    obtain rfl := hentry he' y (hl.subset (by simp)) heq.2.symm
    have hfilter := (hl.filter fun x => q x.2).map Sigma.fst
    simpa [hq, hq'] using hfilter

/-- Editing an entry keeps the order of the map. -/
theorem keys_edit (t : Turn) (d : DeviceId) (f : Edit → Edit) :
    (t.edit d f).reg.peers.keys = t.reg.peers.keys := by
  unfold Turn.edit
  split
  · rfl
  · exact AList.keys_replace _ _ _

end Turn

/-- When a `Connected` phase was entered. -/
def PeerPhase.connectedSince : PeerPhase → ℕ
  | .connected since _ _ _ => since
  | _ => 0

namespace Registry

/-- The entry `e'` of `d'` gives way to `e` of `d`: the role that `should_win` keeps goes
first, then the place in the iteration order of the map; where neither has that role, the
later connection. -/
def Yields (r : Registry) (endpoint : EndpointId) (d d' : DeviceId) (e e' : PeerEntry) : Prop :=
  if shouldWin e.role r.myEndpoint endpoint = true then
    shouldWin e'.role r.myEndpoint endpoint = true → [d, d'].Sublist r.peers.keys
  else
    shouldWin e'.role r.myEndpoint endpoint = false ∧
      (e'.phase.connectedSince < e.phase.connectedSince ∨
        e'.phase.connectedSince = e.phase.connectedSince ∧ d' < d)

end Registry

namespace Turn

variable {endpoint : EndpointId} {d : DeviceId}

/-- Whether the stamped entry is kept, read off the registry before. -/
theorem givesWay_iff {t : Turn} {now : ℕ} {d' : DeviceId} {e e' : PeerEntry}
    {r : Registry} (he : t.reg.peer d = some e) (hlive : liveFor (prefixFromEndpoint endpoint) e = true)
    (he' : t.reg.peer d' = some e') (hlive' : liveFor (prefixFromEndpoint endpoint) e' = true)
    (hkeys : t.reg.peers.keys = r.peers.keys) (hme : t.reg.myEndpoint = r.myEndpoint) :
    t.GivesWay now endpoint (t.devicesWhere (liveFor (prefixFromEndpoint endpoint))) d d' e e' ↔
      r.Yields endpoint d d' e e' := by
  have hkey : ∀ {d e}, t.reg.peer d = some e → liveFor (prefixFromEndpoint endpoint) e = true →
      t.connectedKey now d = (e.phase.connectedSince, d) := by
    intro d e he hlive
    simp only [liveFor, Bool.and_eq_true] at hlive
    unfold connectedKey
    rw [he, Option.map_some]
    cases hp : e.phase with
    | connected since channel txGen up => rfl
    | _ =>
        rw [hp] at hlive
        cases hlive.2
  unfold GivesWay Registry.Yields
  rw [hme, hkey he hlive, hkey he' hlive', Prod.Lex.toLex_lt_toLex,
    pair_sublist_devicesWhere he hlive he' hlive', hkeys]

end Turn

end IrohBle
