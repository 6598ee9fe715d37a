import IrohBle.Tombstones.Effects

/-! # Tombstones.Bounds: how much is remembered

Both tables drop what has expired, and the oldest entries beyond a bound: the closed pipes in the
order of the closes, the tombstones by the time of the evictions.

* `Memories`: the two tables under one clock that does not go back, with everything that the tasks
  of the transport do to them.
* `DropsOldest`, `Records`: what a step may drop, and what it leaves recorded.
* `within_bounds_iff`: every step of every run does both, and the tables stay within their bounds
  exactly if each eviction finds room for its tombstone.
* `one_too_many`: one pipe more than the bound goes away in the same instant.
-/

namespace IrohBle

open Lib

/-- The two tables, and the last reading of the clock. -/
structure Memories where
  router : Router
  conns : ConnectionRegistry := {}
  clock : ℕ := 0

/-- The operations on either table. -/
inductive MemoryLabel where
  | routing (l : RouterLabel)
  | noteTombstonedTransmit (now : ℕ) (id : StableConnId)
  | insert (now : ℕ) (e : EndpointId) (p : StableConnId) (conn : ConnId)
  | removeAndIsEmpty (e : EndpointId) (p : StableConnId) (watch : ℕ)
  | closePipe (now : ℕ) (p : StableConnId) (code : ℕ) (reason : String)

/-- The reading of the clock an operation takes. -/
def MemoryLabel.now? : MemoryLabel → Option ℕ
  | .routing l => l.now?
  | .noteTombstonedTransmit now _ | .insert now _ _ _ | .closePipe now _ _ _ => some now
  | .removeAndIsEmpty _ _ _ => none

namespace Memories

open Routing Router

/-- The operation itself. -/
def act : MemoryLabel → Memories → Option Memories
  | .routing l, s => (Router.system.step l s.router).map fun router => { s with router := router }
  | .noteTombstonedTransmit now id, s =>
    some { s with router := { s.router with
      routing := (s.router.routing.noteTombstonedTransmit now id).1 } }
  | .insert now e p conn, s => some { s with conns := (s.conns.insert now e p conn).1 }
  | .removeAndIsEmpty e p watch, s =>
    some { s with conns := (s.conns.removeAndIsEmpty e p watch).1 }
  | .closePipe now p code reason, s =>
    some { s with conns := s.conns.closePipe now p code reason }

/-- The clock does not go back. -/
def step (l : MemoryLabel) (s : Memories) : Option Memories :=
  if s.clock ≤ l.now?.getD s.clock then (s.act l).map fun s' => { s' with clock := l.now?.getD s.clock }
  else none

/-- The two tables as a transition system. -/
def system : System Memories MemoryLabel where
  Init s := ∃ self, s = { router := { self := self } }
  step := step

/-- The tombstones of evicted pipes. -/
def tombstones (s : Memories) : Map StableConnId PipeTombstone := s.router.routing.pipeTombstones

/-- The records of closed pipes. -/
def closed (s : Memories) : Map StableConnId ClosedPipe := s.conns.closed

/-- Both tables are within their bounds. -/
structure WithinBounds (s : Memories) : Prop where
  tombstones : s.tombstones.entries.length ≤ maxPipeTombstones
  closed : s.closed.entries.length ≤ maxClosedPipes

/-- An entry that has not expired is dropped only if as many are left as the table is to hold, and
none of them is older. -/
structure DropsOldest (s s' : Memories) : Prop where
  tombstones : ∀ p t, s.tombstones.lookup p = some t →
    s'.clock - t.evictedAt ≤ pipeTombstoneTtl → s'.tombstones.lookup p = none →
    maxPipeTombstones ≤ s'.tombstones.entries.length ∧
      ∀ p' t', s'.tombstones.lookup p' = some t' → t.evictedAt ≤ t'.evictedAt
  closed : ∀ p c, s.closed.lookup p = some c →
    s'.clock - c.closedAt ≤ closedPipeTtl → s'.closed.lookup p = none →
    maxClosedPipes ≤ s'.closed.entries.length ∧
      ∀ p' c', s'.closed.lookup p' = some c' → c.seq ≤ c'.seq ∧ c.closedAt ≤ c'.closedAt

/-- What an operation records is there afterwards. -/
structure Records (s : Memories) (l : MemoryLabel) (s' : Memories) : Prop where
  evicted : ∀ now p pipe, l = .routing (.evictPipe now p) →
    s.router.routing.pipes.lookup p = some pipe → s'.tombstones.lookup p =
      some ⟨pipe.deviceId, pipe.direction, now - pipe.createdAt, now, 0⟩
  closed : ∀ now p code reason, l = .closePipe now p code reason →
    s'.closed.lookup p = some ⟨code, reason, now, s.conns.nextCloseSeq⟩

/-- The tombstones that have not expired. -/
def unexpired (now : ℕ) (s : Memories) : Map StableConnId PipeTombstone :=
  s.tombstones.retain fun _ t => decide (now - t.evictedAt ≤ pipeTombstoneTtl)

/-- The pipe that an operation leaves a tombstone of. -/
def buried (s : Memories) : MemoryLabel → Option StableConnId
  | .routing l => s.router.buried l
  | _ => none

/-- A pipe is evicted while fewer tombstones than the bound have not expired. -/
def Room (s : Memories) (l : MemoryLabel) : Prop :=
  s.buried l ≠ none → (s.unexpired (l.now?.getD s.clock)).entries.length < maxPipeTombstones

instance (s : Memories) (l : MemoryLabel) : Decidable (Room s l) :=
  inferInstanceAs (Decidable (_ → _))

end Memories

/-! ## Runs -/

namespace Memories

open Routing Router

/-- What the tasks that share the routing table have done. -/
def routerSteps (h : List (Memories × MemoryLabel)) : List (Router × RouterLabel) :=
  h.filterMap fun x =>
    match x.2 with
    | .routing l => some (x.1.router, l)
    | _ => none

/-- What holds in every state. -/
structure Kept (h : List (Memories × MemoryLabel)) (s : Memories) : Prop where
  disciplined : Disciplined (routerSteps h) s.router
  buried : Buried (routerSteps h) s.router
  stamp : ∀ p t, s.tombstones.lookup p = some t → t.evictedAt ≤ s.clock
  closed : InOrder s.conns s.clock

section Step

variable {h : List (Memories × MemoryLabel)} {s s' : Memories} {l : MemoryLabel}

theorem routerSteps_append (h : List (Memories × MemoryLabel)) (x : Memories × MemoryLabel) :
    routerSteps (h ++ [x]) = routerSteps h ++ routerSteps [x] := List.filterMap_append

/-- A step is an operation at a reading of the clock that is not before the last one. -/
theorem act_of_step (hs : system.step l s = some s') : ∃ t, s.act l = some t ∧
    s'.router = t.router ∧ s'.conns = t.conns ∧ s'.clock = l.now?.getD s.clock ∧
    s.clock ≤ s'.clock := by
  simp only [system, step] at hs
  split at hs
  · rename_i hclock
    obtain ⟨t, ht, rfl⟩ := Option.map_eq_some_iff.mp hs
    exact ⟨t, ht, rfl, rfl, rfl, hclock⟩
  · cases hs

theorem now_of_step (hs : system.step l s = some s') {t : ℕ} (ht : l.now? = some t) :
    t = s'.clock := by
  obtain ⟨-, -, -, -, hclock, -⟩ := act_of_step hs
  rw [hclock, ht, Option.getD_some]

/-- What a step does to the closed pipes. -/
theorem closes_of_step (hs : system.step l s = some s') : Closes s.conns s'.clock s'.conns := by
  have hnow := fun t => now_of_step (t := t) hs
  obtain ⟨t, ht, -, hconns, -, -⟩ := act_of_step hs
  rw [hconns]
  cases l with
  | routing l =>
      obtain ⟨router, -, rfl⟩ := Option.map_eq_some_iff.mp ht
      exact .keeps rfl rfl
  | noteTombstonedTransmit now id =>
      obtain rfl := Option.some.inj ht
      exact .keeps rfl rfl
  | insert now e p conn =>
      obtain rfl := Option.some.inj ht
      obtain rfl := hnow now rfl
      exact ConnectionRegistry.closes_insert _ e p conn s.conns
  | removeAndIsEmpty e p watch =>
      obtain rfl := Option.some.inj ht
      exact ConnectionRegistry.closes_removeAndIsEmpty _ e p watch s.conns
  | closePipe now p code reason =>
      obtain rfl := Option.some.inj ht
      obtain rfl := hnow now rfl
      exact .records rfl rfl rfl rfl

/-- Counting a transmit leaves the time of the eviction. -/
theorem marks_noteTombstonedTransmit (now : ℕ) (id : StableConnId) (r : Routing) :
    Marks r.pipeTombstones now none (r.noteTombstonedTransmit now id).1.pipeTombstones := by
  unfold Routing.noteTombstonedTransmit
  dsimp only
  split
  · exact marks_of_eq_pruned rfl
  · rename_i t ht
    refine .prunes ?_ ?_
    · intro p
      dsimp only
      rw [Map.lookup_replace_ite]
      split
      · rename_i hp
        subst hp
        rw [ht]
        exact (congrArg (Option.map PipeTombstone.evictedAt) ht).symm
      · rfl
    · rw [Map.length_entries, Map.length_entries]
      dsimp only
      rw [AList.keys_replace]
      rfl

/-- What a step does to the tombstones. -/
theorem marks_of_step (hk : Kept h s) (hs : system.step l s = some s') :
    Marks s.tombstones s'.clock (s.buried l) s'.tombstones := by
  have hnow := fun t => now_of_step (t := t) hs
  obtain ⟨t, ht, hrouter, -, -, -⟩ := act_of_step hs
  unfold tombstones
  rw [hrouter]
  cases l with
  | routing l =>
      obtain ⟨router, hstep, rfl⟩ := Option.map_eq_some_iff.mp ht
      exact Router.marks_of_step hk.disciplined hk.buried hstep hnow
  | noteTombstonedTransmit now id =>
      obtain rfl := Option.some.inj ht
      obtain rfl := hnow now rfl
      exact marks_noteTombstonedTransmit _ id s.router.routing
  | insert now e p conn =>
      obtain rfl := Option.some.inj ht
      exact marks_of_eq rfl
  | removeAndIsEmpty e p watch =>
      obtain rfl := Option.some.inj ht
      exact marks_of_eq rfl
  | closePipe now p code reason =>
      obtain rfl := Option.some.inj ht
      exact marks_of_eq rfl

/-- The tasks' part of a step. -/
theorem router_of_step (hs : system.step l s = some s') :
    (∃ rl, l = .routing rl ∧ Router.system.step rl s.router = some s'.router) ∨
      routerSteps [(s, l)] = [] ∧ s.buried l = none ∧ s'.router.opening = s.router.opening ∧
        { s'.router.routing with pipeTombstones := ∅ } =
          { s.router.routing with pipeTombstones := ∅ } := by
  obtain ⟨t, ht, hrouter, -, -, -⟩ := act_of_step hs
  rw [hrouter]
  cases l with
  | routing rl =>
      obtain ⟨router, hstep, rfl⟩ := Option.map_eq_some_iff.mp ht
      exact .inl ⟨rl, rfl, hstep⟩
  | noteTombstonedTransmit now id =>
      obtain rfl := Option.some.inj ht
      refine .inr ⟨rfl, rfl, rfl, ?_⟩
      dsimp only
      unfold Routing.noteTombstonedTransmit
      dsimp only
      split <;> rfl
  | insert now e p conn =>
      obtain rfl := Option.some.inj ht
      exact .inr ⟨rfl, rfl, rfl, rfl⟩
  | removeAndIsEmpty e p watch =>
      obtain rfl := Option.some.inj ht
      exact .inr ⟨rfl, rfl, rfl, rfl⟩
  | closePipe now p code reason =>
      obtain rfl := Option.some.inj ht
      exact .inr ⟨rfl, rfl, rfl, rfl⟩

/-- Nothing but tombstones is different, which the discipline of the ids does not look at. -/
theorem disciplined_of_eq {k : List (Router × RouterLabel)} {a b : Router} (hd : Disciplined k a)
    (hopening : b.opening = a.opening) (hrest : { b.routing with pipeTombstones := ∅ } =
      { a.routing with pipeTombstones := ∅ }) : Disciplined k b := by
  have hnext : b.routing.nextId = a.routing.nextId := (congrArg Routing.nextId hrest :)
  have hres : b.routing.reservations = a.routing.reservations :=
    (congrArg Routing.reservations hrest :)
  have hids : b.routing.reservedStableIds = a.routing.reservedStableIds :=
    (congrArg Routing.reservedStableIds hrest :)
  have hpipes : b.routing.pipes = a.routing.pipes := (congrArg Routing.pipes hrest :)
  constructor
  · exact hd.issued.frame ⟨hnext, hres, fun p y hy => hpipes ▸ hy⟩
  · unfold Inverse
    rw [hres, hids]
    exact hd.inverse
  · rw [hopening, hnext, hres]
    exact hd.hand
  · rw [hpipes]
    exact hd.live
  · rw [hnext]
    exact hd.range
  · exact hd.increasing

/-- A step keeps the invariant of the two tables. -/
theorem Kept.step (hk : Kept h s) (hs : system.step l s = some s') : Kept (h ++ [(s, l)]) s' := by
  have hmarks := marks_of_step hk hs
  obtain ⟨t, -, -, -, -, hclock⟩ := act_of_step hs
  have hrouter := router_of_step hs
  constructor
  · rw [routerSteps_append]
    rcases hrouter with ⟨rl, rfl, hstep⟩ | ⟨hnil, -, hopening, hrest⟩
    · exact hk.disciplined.step hstep
    · rw [hnil, List.append_nil]
      exact disciplined_of_eq hk.disciplined hopening hrest
  · rw [routerSteps_append]
    rcases hrouter with ⟨rl, rfl, hstep⟩ | ⟨hnil, hquiet, -, hrest⟩
    · exact hk.buried.step hk.disciplined hstep fun t => now_of_step hs
    · rw [hnil, List.append_nil]
      intro p t ht
      rcases hmarks.origin ht with ⟨t₀, ht₀, -⟩ | ⟨hburied, -⟩
      · have hpipes : s'.router.routing.pipes = s.router.routing.pipes :=
          (congrArg Routing.pipes hrest :)
        exact hpipes ▸ hk.buried p t₀ ht₀
      · rw [hquiet] at hburied
        cases hburied
  · intro p t ht
    rcases hmarks.origin ht with ⟨t₀, ht₀, hstamp⟩ | ⟨-, hnow⟩
    · exact hstamp ▸ (hk.stamp p t₀ ht₀).trans hclock
    · exact hnow.le
  · exact hk.closed.step hclock (closes_of_step hs)

/-- A dropped tombstone is at most as recent as those that are left. -/
theorem dropsOldest_tombstones (hk : Kept h s) (hs : system.step l s = some s')
    {p : StableConnId} {t : PipeTombstone} (ht : s.tombstones.lookup p = some t)
    (hlive : s'.clock - t.evictedAt ≤ pipeTombstoneTtl) (hgone : s'.tombstones.lookup p = none) :
    maxPipeTombstones ≤ s'.tombstones.entries.length ∧
      ∀ p' t', s'.tombstones.lookup p' = some t' → t.evictedAt ≤ t'.evictedAt := by
  obtain ⟨-, -, -, -, -, hclock⟩ := act_of_step hs
  have hmarks := marks_of_step hk hs
  generalize s'.tombstones = m at hmarks hgone ⊢
  generalize s.buried l = buried at hmarks
  cases hmarks with
  -- a table that keeps everything has dropped nothing
  | keeps hlook _ =>
      rw [hlook, ht] at hgone
      cases hgone
  | prunes hlook hlength =>
      -- it was dropped by the pruning, of which the table has kept everything else
      have hpruned : (prunedTombstones s'.clock s.tombstones).lookup p = none := by
        have heq := hlook p
        rw [hgone, Option.map_none] at heq
        exact Option.map_eq_none_iff.mp heq.symm
      obtain ⟨hfull, hage⟩ := Map.dropped_by_prune ht hlive hpruned
      refine ⟨(hlength.trans hfull).ge, ?_⟩
      intro p' t' ht'
      have heq := hlook p'
      rw [ht', Option.map_some] at heq
      obtain ⟨t₀, ht₀, hstamp⟩ := Option.map_eq_some_iff.mp heq.symm
      exact (hage p' t₀ ht₀).trans hstamp.le
  | @records q new hfresh hstamp =>
      have hpruned : (prunedTombstones s'.clock s.tombstones).lookup p = none := by
        rw [Map.lookup_insert_ite] at hgone
        split at hgone
        · cases hgone
        · exact hgone
      have hqfresh : (prunedTombstones s'.clock s.tombstones).lookup q = none :=
        Map.prune_of_absent hfresh
      obtain ⟨hfull, hage⟩ := Map.dropped_by_prune ht hlive hpruned
      constructor
      · rw [Map.length_insert_of_lookup_eq_none hqfresh]
        exact hfull.ge.trans (Nat.le_succ _)
      · intro p' t' ht'
        rw [Map.lookup_insert_ite] at ht'
        split at ht'
        · obtain rfl := Option.some.inj ht'
          exact (hk.stamp p t ht).trans (hclock.trans hstamp.ge)
        · exact hage p' t' ht'

/-- A record that goes before its time was the oldest of too many. -/
theorem dropsOldest_closed (hk : Kept h s) (hs : system.step l s = some s')
    {p : StableConnId} {c : ClosedPipe} (hc : s.closed.lookup p = some c)
    (hlive : s'.clock - c.closedAt ≤ closedPipeTtl) (hgone : s'.closed.lookup p = none) :
    maxClosedPipes ≤ s'.closed.entries.length ∧
      ∀ p' c', s'.closed.lookup p' = some c' → c.seq ≤ c'.seq ∧ c.closedAt ≤ c'.closedAt := by
  obtain ⟨-, -, -, -, -, hclock⟩ := act_of_step hs
  -- what is left was there before pruning, and is in order with what was dropped
  have hpruned : ∀ r : ConnectionRegistry, InOrder r s'.clock → r.closed.lookup p = some c →
      s'.closed = prunedClosed s'.clock r.closed →
      maxClosedPipes ≤ s'.closed.entries.length ∧
        ∀ p' c', s'.closed.lookup p' = some c' → c.seq ≤ c'.seq ∧ c.closedAt ≤ c'.closedAt := by
    intro r ho hr heq
    rw [heq] at hgone ⊢
    obtain ⟨hfull, hage⟩ := Map.dropped_by_prune hr hlive hgone
    refine ⟨hfull.ge, ?_⟩
    intro p' c' hc'
    have hle := hage p' c' hc'
    exact ⟨hle, ho.order p p' c c' hr (Map.lookup_of_prune hc') hle⟩
  have ho : InOrder s.conns s'.clock := hk.closed.of_sub hclock (fun _ _ hc => hc) rfl
  cases closes_of_step hs with
  | keeps hclosed _ =>
      have hsame : s'.closed = s.closed := hclosed
      rw [hsame, hc] at hgone
      cases hgone
  | prunes hclosed _ => exact hpruned s.conns ho hc hclosed
  | @records q new hstamp hseq hclosed _ =>
      have hrecord := lookup_record (p := q) hk.closed hstamp hseq
      by_cases hpq : p = q
      · -- the pipe has been closed again
        subst hpq
        rw [← hclosed] at hrecord
        exact absurd (hrecord.symm.trans hgone) (by simp)
      · refine hpruned _ (hk.closed.record hclock hstamp hseq) ?_ hclosed
        exact (AList.lookup_insert_ne hpq).trans hc

/-- A step leaves a record of what it has closed or evicted. -/
theorem records_of_step (hk : Kept h s) (hs : system.step l s = some s') : Records s l s' := by
  obtain ⟨t, ht, hrouter, hconns, -, -⟩ := act_of_step hs
  constructor
  · rintro now p pipe rfl hlive
    unfold tombstones
    rw [hrouter]
    obtain ⟨router, hstep, rfl⟩ := Option.map_eq_some_iff.mp ht
    simp only [Router.system, Router.step] at hstep
    split at hstep
    · cases hstep
    · obtain rfl := Option.some.inj hstep
      dsimp only
      unfold Routing.evictPipe
      rw [hlive]
      exact AList.lookup_insert _
  · rintro now p code reason rfl
    unfold closed
    rw [hconns]
    obtain rfl := Option.some.inj ht
    exact lookup_record hk.closed rfl rfl

/-- The closed pipes stay within their bound, pruning coming last. -/
theorem closed_withinBounds (hw : s.WithinBounds) (hs : system.step l s = some s') :
    s'.closed.entries.length ≤ maxClosedPipes := by
  cases closes_of_step hs with
  | keeps hclosed _ =>
      have hsame : s'.closed = s.closed := hclosed
      exact hsame ▸ hw.closed
  | prunes hclosed _ =>
      have hpruned : s'.closed = _ := hclosed
      exact hpruned ▸ Map.length_prune_le
  | records _ _ hclosed _ =>
      have hpruned : s'.closed = _ := hclosed
      exact hpruned ▸ Map.length_prune_le

/-- A step that records a tombstone stays within the bound exactly if there is room for it. -/
theorem tombstones_withinBounds (hk : Kept h s) (hw : s.WithinBounds)
    (hs : system.step l s = some s') :
    s'.tombstones.entries.length ≤ maxPipeTombstones ↔ s.Room l := by
  obtain ⟨-, -, -, -, hclock, -⟩ := act_of_step hs
  have hmarks := marks_of_step hk hs
  have hbound := hw.tombstones
  unfold Room
  rw [← hclock]
  generalize s'.tombstones = m at hmarks ⊢
  generalize s.buried l = buried at hmarks ⊢
  cases hmarks with
  | keeps _ hlength => exact iff_of_true (hlength ▸ hbound) fun hnone => absurd rfl hnone
  | prunes _ hlength =>
      exact iff_of_true (hlength ▸ Map.length_prune_le) fun hnone => absurd rfl hnone
  | @records p t hfresh _ =>
      have hpruned : (prunedTombstones s'.clock s.tombstones).lookup p = none :=
        Map.prune_of_absent hfresh
      have hlength : (prunedTombstones s'.clock s.tombstones).entries.length =
          min (s.unexpired s'.clock).entries.length maxPipeTombstones := Map.length_prune
      rw [Map.length_insert_of_lookup_eq_none hpruned, hlength]
      constructor
      · intro hle _
        omega
      · intro hroom
        have hlt := hroom (Option.some_ne_none p)
        omega

theorem withinBounds_step (hk : Kept h s) (hw : s.WithinBounds) (hs : system.step l s = some s') :
    s'.WithinBounds ↔ s.Room l := by
  rw [← tombstones_withinBounds hk hw hs]
  constructor
  · exact WithinBounds.tombstones
  · intro htombstones
    exact ⟨htombstones, closed_withinBounds hw hs⟩

end Step

/-- Two empty tables satisfy the invariant. -/
theorem kept_init {s : Memories} (hs : system.Init s) : Kept [] s := by
  obtain ⟨self, rfl⟩ := hs
  have hempty : ∀ (p : StableConnId) (t : PipeTombstone),
      (∅ : Map StableConnId PipeTombstone).lookup p ≠ some t := by
    intro p t
    simp
  constructor
  · exact disciplined_of_run (.init ⟨self, rfl⟩)
  · intro p t ht
    exact absurd ht (hempty p t)
  · intro p t ht
    exact absurd ht (hempty p t)
  · constructor
    · intro p c hc
      cases hc
    · intro p c hc
      cases hc
    · intro p p' c c' hc
      cases hc

theorem kept_of_run {h : List (Memories × MemoryLabel)} {s : Memories} (hrun : system.Run h s) :
    Kept h s := by
  induction hrun with
  | init hs => exact kept_init hs
  | step _ hs ih => exact ih.step hs

theorem withinBounds_init {s : Memories} (hs : system.Init s) : s.WithinBounds := by
  obtain ⟨self, rfl⟩ := hs
  exact ⟨Nat.zero_le _, Nat.zero_le _⟩

/-- Both tables stay within their bounds throughout a run exactly if each pipe that it evicts finds
room for its tombstone. Every step records what it should, and drops only what has expired or is
older than what it keeps beyond the bound. -/
theorem within_bounds_iff {h : List (Memories × MemoryLabel)} {s : Memories}
    (hrun : system.Run h s) :
    (System.Throughout WithinBounds h s ↔ System.Meets Room h) ∧
      ∀ l s', system.step l s = some s' → DropsOldest s s' ∧ Records s l s' := by
  constructor
  · refine hrun.throughout_iff (fun s hs => withinBounds_init hs) ?_
    intro h s l s' hrun hw hs
    exact withinBounds_step (kept_of_run hrun) hw hs
  · intro l s' hs
    have hk := kept_of_run hrun
    refine ⟨⟨?_, ?_⟩, records_of_step hk hs⟩
    · intro p t ht
      exact dropsOldest_tombstones hk hs ht
    · intro p c hc
      exact dropsOldest_closed hk hs hc

theorem init_new (self : EndpointId) : system.Init { router := { self := self } } := ⟨self, rfl⟩

/-- A pipe is opened and goes away. -/
def comesAndGoes (n : ℕ) : List MemoryLabel :=
  [.routing (.startPipe "peer" .central none), .routing .consumeForDevice,
    .routing (.register 0), .routing (.registerPending 0), .routing (.evictPipeState ⟨n + 1⟩),
    .routing (.evictPipe 0 ⟨n + 1⟩)]

/-- A run in which a pipe comes and goes within the bounds. -/
theorem within_bounds_iff_comesAndGoes : ∃ h s, system.Run h s ∧
    h.map Prod.snd = comesAndGoes 0 ∧ System.Throughout WithinBounds h s ∧
    ∃ s', system.step (.closePipe 1 ⟨1⟩ bleCloseCodeRetry bleCloseReasonPipeClosed) s = some s' ∧
      s'.closed.lookup ⟨1⟩ = some ⟨bleCloseCodeRetry, bleCloseReasonPipeClosed, 1, 0⟩ := by
  obtain ⟨h, s, hrun, hroom, hlabels, hsome⟩ := System.Run.of_execMeets (C := Room)
    (P := fun s : Memories =>
      (system.step (.closePipe 1 ⟨1⟩ bleCloseCodeRetry bleCloseReasonPipeClosed) s).isSome = true ∧
        s.conns.nextCloseSeq = 0)
    (comesAndGoes 0) (init_new localEndpoint) (by decide +kernel)
  obtain ⟨hbounds, hsteps⟩ := within_bounds_iff hrun
  obtain ⟨s', hs'⟩ := Option.isSome_iff_exists.mp hsome.1
  refine ⟨h, s, hrun, hlabels, hbounds.mpr hroom, s', hs', ?_⟩
  have hrecord := (hsteps _ s' hs').2.closed 1 ⟨1⟩ _ _ rfl
  rw [hsome.2] at hrecord
  exact hrecord

/-- As many pipes as the table holds tombstones, and one more. -/
def crowdRun : List MemoryLabel := (List.range (maxPipeTombstones + 1)).flatMap comesAndGoes

/-- The last of them finds the table full and prunes nothing. -/
theorem one_too_many : ∃ h s, system.Run h s ∧ h.map Prod.snd = crowdRun ∧
    s.tombstones.entries.length = maxPipeTombstones + 1 ∧ ¬ s.WithinBounds := by
  obtain ⟨h, s, hrun, hlabels, hlength⟩ := System.Run.of_exec
    (P := fun s : Memories => s.tombstones.entries.length = maxPipeTombstones + 1)
    crowdRun (init_new localEndpoint) (by decide +kernel)
  refine ⟨h, s, hrun, hlabels, hlength, ?_⟩
  intro hw
  have hbound := hw.tombstones
  omega

end Memories

end IrohBle
