import IrohBle.Conns
import IrohBle.Routing.Discipline

/-! # Tombstones.Effects: what is remembered of a pipe that is gone

Two tables remember the pipes that went away lately. `Routing` keeps a tombstone for each pipe it
evicted, so that a late transmit to it is told apart from one to an unknown id, and
`ConnectionRegistry` keeps why a pipe was closed, so that a late handshake on it is closed too.

* `Marks`: what an operation does to the tombstones. `evict_pipe` prunes and then records; the ids
  that a reservation hands over have no tombstone that could be lost with them.
* `Closes`: what an operation does to the closed pipes. `close_pipe` records and then prunes.
* `InOrder`: the closes are numbered in the order of time.
-/

namespace IrohBle

open Lib

/-- The reading of the clock that an operation takes. -/
def RouterLabel.now? : RouterLabel → Option ℕ
  | .register now | .registerPending now | .promote now _ _ | .evictPipe now _
  | .reserveOutbound now _ => some now
  | _ => none

/-- The live pipe that the step evicts. -/
def Router.buried (s : Router) : RouterLabel → Option StableConnId
  | .evictPipe _ p => (s.routing.pipes.lookup p).map fun _ => p
  | _ => none

/-! ## What a step does to the tombstones -/

/-- The tombstones that `prune_pipe_tombstones` leaves. -/
def prunedTombstones (now : ℕ) (m : Map StableConnId PipeTombstone) :
    Map StableConnId PipeTombstone :=
  m.prune PipeTombstone.evictedAt PipeTombstone.evictedAt pipeTombstoneTtl maxPipeTombstones now

/-- The table is left as it is, pruned, or pruned and given one more. -/
inductive Marks (m : Map StableConnId PipeTombstone) (now : ℕ) :
    Option StableConnId → Map StableConnId PipeTombstone → Prop where
  | keeps {m' : Map StableConnId PipeTombstone} (lookup : ∀ p, m'.lookup p = m.lookup p)
      (length : m'.entries.length = m.entries.length) : Marks m now none m'
  /-- A transmit may be counted in an entry that stays. -/
  | prunes {m' : Map StableConnId PipeTombstone}
      (lookup : ∀ p, (m'.lookup p).map PipeTombstone.evictedAt =
        ((prunedTombstones now m).lookup p).map PipeTombstone.evictedAt)
      (length : m'.entries.length = (prunedTombstones now m).entries.length) : Marks m now none m'
  | records {p : StableConnId} {t : PipeTombstone} (fresh : m.lookup p = none)
      (stamp : t.evictedAt = now) : Marks m now (some p) ((prunedTombstones now m).insert p t)

section Marks

variable {m m' : Map StableConnId PipeTombstone} {now : ℕ} {buried : Option StableConnId}
  {p : StableConnId} {t : PipeTombstone}

theorem marks_of_eq (heq : m' = m) : Marks m now none m' := by
  subst heq
  exact .keeps (fun _ => rfl) rfl

theorem marks_of_eq_pruned (heq : m' = prunedTombstones now m) : Marks m now none m' := by
  subst heq
  exact .prunes (fun _ => rfl) rfl

/-- An entry was there before, with the same time, or has been recorded. -/
theorem Marks.origin (hm : Marks m now buried m') (ht : m'.lookup p = some t) :
    (∃ t₀, m.lookup p = some t₀ ∧ t₀.evictedAt = t.evictedAt) ∨
      buried = some p ∧ t.evictedAt = now := by
  cases hm with
  | keeps hlook _ => exact .inl ⟨t, hlook p ▸ ht, rfl⟩
  | prunes hlook _ =>
      have hpruned := hlook p
      rw [ht, Option.map_some] at hpruned
      obtain ⟨t₀, ht₀, hstamp⟩ := Option.map_eq_some_iff.mp hpruned.symm
      exact .inl ⟨t₀, Map.lookup_of_prune ht₀, hstamp⟩
  | @records q t' _ hstamp =>
      rw [Map.lookup_insert_ite] at ht
      split at ht
      · rename_i hpq
        obtain rfl := Option.some.inj ht
        exact .inr ⟨congrArg some hpq.symm, hstamp⟩
      · exact .inl ⟨t, Map.lookup_of_prune ht, rfl⟩

end Marks

namespace Router

open Routing

/-- A tombstone is that of a pipe that was bound once and is gone. -/
def Buried (h : List (Router × RouterLabel)) (s : Router) : Prop :=
  ∀ p t, s.routing.pipeTombstones.lookup p = some t →
    p ∈ boundIds h ∧ s.routing.pipes.lookup p = none

theorem tombstones_of_tables {r r' : Routing} (h : r'.tables = r.tables) :
    r'.pipeTombstones = r.pipeTombstones := (congrArg Routing.pipeTombstones h :)

/-- A tombstone is made by `evict_pipe`, of a pipe that was registered. -/
theorem buried_eq_some {s : Router} {l : RouterLabel} {p : StableConnId} (h : s.buried l = some p) :
    ∃ now pipe, l = .evictPipe now p ∧ s.routing.pipes.lookup p = some pipe := by
  unfold buried at h
  split at h
  · rename_i now q
    obtain ⟨pipe, hpipe, rfl⟩ := Option.map_eq_some_iff.mp h
    exact ⟨now, pipe, rfl, hpipe⟩
  · cases h

section Marks

variable {h : List (Router × RouterLabel)} {s s' : Router} {l : RouterLabel} {now : ℕ}

/-- An id that has not been bound yet has no tombstone. -/
theorem Buried.fresh (hb : Buried h s) {p : StableConnId} (hp : p ∉ boundIds h) :
    s.routing.pipeTombstones.lookup p = none := by
  cases hlook : s.routing.pipeTombstones.lookup p with
  | none => rfl
  | some t => exact absurd (hb p t hlook).1 hp

/-- The reservation that is consumed has not been bound, so no tombstone is lost with it. -/
theorem marks_of_consumed (hd : Disciplined h s) (hb : Buried h s)
    {out : Routing × Option Reservation} (hout : Consumed s.routing out) :
    Marks s.routing.pipeTombstones now none out.1.pipeTombstones := by
  rcases hout with rfl | ⟨k, x, hx, rfl⟩
  · exact marks_of_eq rfl
  · have hnone := hb.fresh (hd.issued.reserved k x hx).2
    exact marks_of_eq (Map.erase_of_lookup_eq_none hnone)

/-- `evict_pipe` prunes, and records the pipe. -/
theorem marks_evictPipe (hb : Buried h s) (now : ℕ) (p : StableConnId) :
    Marks s.routing.pipeTombstones now (s.buried (.evictPipe now p))
      (s.routing.evictPipe now p).pipeTombstones := by
  unfold Routing.evictPipe
  cases hp : s.routing.pipes.lookup p with
  | none =>
      have hburied : s.buried (.evictPipe now p) = none := by simp only [buried, hp, Option.map_none]
      rw [hburied]
      exact marks_of_eq rfl
  | some pipe =>
      have hburied : s.buried (.evictPipe now p) = some p := by
        simp only [buried, hp, Option.map_some]
      rw [hburied]
      refine .records ?_ rfl
      -- a live pipe has no tombstone yet
      cases hlook : s.routing.pipeTombstones.lookup p with
      | none => rfl
      | some t =>
          have hgone := (hb p t hlook).2
          rw [hp] at hgone
          cases hgone

/-- A reservation prunes, and loses no tombstone with its new id. -/
theorem marks_reserveOutbound (s : Router) (now : ℕ) (e : EndpointId) :
    Marks s.routing.pipeTombstones now none (s.routing.reserveOutbound now e).1.pipeTombstones := by
  apply marks_of_eq_pruned
  unfold Routing.reserveOutbound
  dsimp only
  split <;> rfl

/-- Registering a pipe prunes; its id had no tombstone. -/
theorem marks_register (hd : Disciplined h s) (hb : Buried h s) (hs : s.register now = some s') :
    Marks s.routing.pipeTombstones now none s'.routing.pipeTombstones := by
  unfold register at hs
  split at hs
  · rename_i device role x hopening
    obtain rfl := Option.some.inj hs
    -- the id of the reservation in hand has not been bound
    have hhand := hd.hand x (by rw [hopening]; rfl)
    have hnone : (prunedTombstones now s.routing.pipeTombstones).lookup x.stableId = none := by
      cases hlook : (prunedTombstones now s.routing.pipeTombstones).lookup x.stableId with
      | none => rfl
      | some t =>
          have hfresh := hb.fresh hhand.2.1
          rw [Map.lookup_of_prune hlook] at hfresh
          cases hfresh
    exact marks_of_eq_pruned (Map.erase_of_lookup_eq_none hnone)
  · obtain rfl := Option.some.inj hs
    exact marks_of_eq_pruned rfl
  · cases hs

/-- The id of a reservation for the target had no tombstone. -/
theorem marks_startPipe (hd : Disciplined h s) (hb : Buried h s) {device : DeviceId}
    {role : ConnectRole} {target : Option EndpointId}
    (hs : s.startPipe device role target = some s') :
    Marks s.routing.pipeTombstones now none s'.routing.pipeTombstones := by
  unfold startPipe at hs
  split at hs
  · split at hs
    · obtain rfl := Option.some.inj hs
      exact marks_of_eq rfl
    · rename_i endpoint
      have hconsumed := consumed_forPrefix (prefixFromEndpoint endpoint) s.routing
      have hmarks : Marks _ now none _ := marks_of_consumed hd hb hconsumed
      split at hs
      · rename_i routing x heq
        obtain rfl := Option.some.inj hs
        rwa [show s.routing.consumeReservationForPrefix _ = _ from heq] at hmarks
      · rename_i routing heq
        obtain rfl := Option.some.inj hs
        rwa [show s.routing.consumeReservationForPrefix _ = _ from heq] at hmarks
  · cases hs

theorem marks_consumeForDevice (hd : Disciplined h s) (hb : Buried h s)
    (hs : s.consumeForDevice = some s') :
    Marks s.routing.pipeTombstones now none s'.routing.pipeTombstones := by
  unfold consumeForDevice at hs
  split at hs
  · rename_i device role hopening
    have hmarks : Marks _ now none _ :=
      marks_of_consumed hd hb (consumed_forDevice device s.routing)
    obtain rfl := Option.some.inj hs
    exact hmarks
  · cases hs

/-- Another order of the tables marks nothing. -/
theorem marks_rehash {o : Orders} {r : Routing} (hr : s.routing.rehash o = some r) :
    Marks s.routing.pipeTombstones now none r.pipeTombstones := by
  unfold Routing.rehash at hr
  split at hr
  · rename_i hperm
    obtain rfl := Option.some.inj hr
    refine .keeps (Map.lookup_reorder hperm.1) ?_
    rw [Map.length_entries, Map.length_entries]
    change (Map.reorder _ _).keys.length = _
    rw [Map.keys_reorder hperm.1]
    exact hperm.1.length_eq
  · cases hr

/-- What a step of the tasks does to the tombstones. -/
theorem marks_of_step (hd : Disciplined h s) (hb : Buried h s)
    (hs : system.step l s = some s') (hnow : ∀ t, l.now? = some t → t = now) :
    Marks s.routing.pipeTombstones now (s.buried l) s'.routing.pipeTombstones := by
  cases l with
  | startPipe device role target => exact marks_startPipe hd hb hs
  | consumeForDevice => exact marks_consumeForDevice hd hb hs
  | register t =>
      obtain rfl := hnow t rfl
      exact marks_register hd hb hs
  | registerPending t =>
      simp only [system, step, registerPending] at hs
      split at hs
      · rename_i id target hopening
        obtain rfl := Option.some.inj hs
        exact marks_of_eq (tombstones_of_tables (tables_wakeFor target _) :)
      · cases hs
  | promote t p e =>
      simp only [system, step] at hs
      split at hs
      · cases hs
      · obtain rfl := Option.some.inj hs
        -- a promotion takes entries out of the pools, whether it is accepted or not
        rcases promote_cases t p s.self e s.routing with ⟨hr, -⟩ | ⟨r', ps, hr, hpromotes⟩
        · rw [hr]
          exact marks_of_eq rfl
        · rw [hr]
          exact marks_of_eq (congrArg Routing.pipeTombstones hpromotes.rest :)
  | evictRoutableIfPipe e p =>
      obtain rfl := Option.some.inj hs
      rcases evictRoutableIfPipe_cases e p s.routing with ⟨hr, -⟩ | ⟨x, hx, hp, hr⟩
      · rw [hr]
        exact marks_of_eq rfl
      · rw [hr]
        exact marks_of_eq rfl
  | evictPipeState p =>
      simp only [system, step] at hs
      split at hs
      · cases hs
      · obtain rfl := Option.some.inj hs
        have htables := tombstones_of_tables (evictPipeState_tables p s.routing)
        have hrest := (Evicts.evictContender p s.routing).rest
        exact marks_of_eq (htables.trans (congrArg Routing.pipeTombstones hrest :))
  | evictPipe t p =>
      obtain rfl := hnow t rfl
      simp only [system, step] at hs
      split at hs
      · cases hs
      · obtain rfl := Option.some.inj hs
        exact marks_evictPipe hb t p
  | noteScanHint k d =>
      obtain rfl := Option.some.inj hs
      rcases noteScanHint_tables k d s.routing with hr | hr
      · rw [hr]
        exact marks_of_eq rfl
      · exact marks_of_eq (tombstones_of_tables hr :)
  | reserveOutbound t e =>
      obtain rfl := hnow t rfl
      obtain rfl := Option.some.inj hs
      exact marks_reserveOutbound s t e
  | registerEndpointWaker e w =>
      obtain rfl := Option.some.inj hs
      exact marks_of_eq rfl
  | rehash o =>
      obtain ⟨r, hr, rfl⟩ := Option.map_eq_some_iff.mp hs
      exact marks_rehash hr

/-- A pipe that has a tombstone has been bound, and is not bound again. -/
theorem Buried.step (hd : Disciplined h s) (hb : Buried h s) (hs : system.step l s = some s')
    (hnow : ∀ t, l.now? = some t → t = now) : Buried (h ++ [(s, l)]) s' := by
  have hbound : ∀ p, p ∈ boundIds h → p ∈ boundIds (h ++ [(s, l)]) := by
    intro p hp
    rw [boundIds_append]
    exact List.mem_append_left _ hp
  have hgone : ∀ p, p ∈ boundIds h → s.routing.pipes.lookup p = none →
      s'.routing.pipes.lookup p = none := by
    intro p hp hnone
    cases hlook : s'.routing.pipes.lookup p with
    | none => rfl
    | some y =>
        rcases pipes_of_step hs hlook with hold | hbinds
        · rw [hnone] at hold
          cases hold
        · exact absurd hp (hd.binds_fresh hs hbinds)
  intro p t ht
  rcases (marks_of_step hd hb hs hnow).origin ht with ⟨t₀, ht₀, -⟩ | ⟨hburied, -⟩
  · obtain ⟨hp, hnone⟩ := hb p t₀ ht₀
    exact ⟨hbound p hp, hgone p hp hnone⟩
  · obtain ⟨now', pipe, rfl, hlive⟩ := buried_eq_some hburied
    simp only [system, Router.step] at hs
    split at hs
    · cases hs
    · obtain rfl := Option.some.inj hs
      exact ⟨hbound p (hd.live p pipe hlive), lookup_evictPipe now' p s.routing⟩

end Marks

end Router

/-! ## What a step does to the closed pipes -/

/-- The closed pipes that `prune_closed` leaves. -/
def prunedClosed (now : ℕ) (m : Map StableConnId ClosedPipe) : Map StableConnId ClosedPipe :=
  m.prune ClosedPipe.closedAt ClosedPipe.seq closedPipeTtl maxClosedPipes now

/-- The table is left as it is, pruned, or given one more and then pruned. -/
inductive Closes (r : ConnectionRegistry) (now : ℕ) : ConnectionRegistry → Prop where
  | keeps {r' : ConnectionRegistry} (closed : r'.closed = r.closed)
      (next : r'.nextCloseSeq = r.nextCloseSeq) : Closes r now r'
  | prunes {r' : ConnectionRegistry} (closed : r'.closed = prunedClosed now r.closed)
      (next : r'.nextCloseSeq = r.nextCloseSeq) : Closes r now r'
  | records {r' : ConnectionRegistry} {p : StableConnId} {c : ClosedPipe}
      (stamp : c.closedAt = now) (seq : c.seq = r.nextCloseSeq)
      (closed : r'.closed = prunedClosed now (r.closed.insert p c))
      (next : r'.nextCloseSeq = r.nextCloseSeq + 1) : Closes r now r'

namespace ConnectionRegistry

/-- A registration prunes the closed pipes. -/
theorem closes_insert (now : ℕ) (e : EndpointId) (p : StableConnId) (conn : ConnId)
    (r : ConnectionRegistry) : Closes r now (r.insert now e p conn).1 := by
  rcases insert_cases now e p conn r with ⟨h, -⟩ | ⟨h, -⟩
  · rw [h]
    exact .prunes rfl rfl
  · rw [h]
    exact .prunes rfl rfl

/-- The end of a watch leaves them alone. -/
theorem closes_removeAndIsEmpty (now : ℕ) (e : EndpointId) (p : StableConnId) (watch : ℕ)
    (r : ConnectionRegistry) : Closes r now (r.removeAndIsEmpty e p watch).1 := by
  unfold removeAndIsEmpty
  split
  · exact .keeps rfl rfl
  · dsimp only
    split
    · exact .keeps rfl rfl
    · exact .keeps rfl rfl

end ConnectionRegistry

/-- The closes in the table are in order, and the next one comes after them. -/
structure InOrder (r : ConnectionRegistry) (clock : ℕ) : Prop where
  seq : ∀ p c, r.closed.lookup p = some c → c.seq < r.nextCloseSeq
  stamp : ∀ p c, r.closed.lookup p = some c → c.closedAt ≤ clock
  order : ∀ p p' c c', r.closed.lookup p = some c → r.closed.lookup p' = some c' →
    c.seq ≤ c'.seq → c.closedAt ≤ c'.closedAt

section Closes

variable {r r' : ConnectionRegistry} {clock now : ℕ} {p : StableConnId} {c : ClosedPipe}

theorem InOrder.of_sub (ho : InOrder r clock) (hclock : clock ≤ now)
    (hsub : ∀ p c, r'.closed.lookup p = some c → r.closed.lookup p = some c)
    (hnext : r'.nextCloseSeq = r.nextCloseSeq) : InOrder r' now where
  seq p c hc := hnext ▸ ho.seq p c (hsub p c hc)
  stamp p c hc := (ho.stamp p c (hsub p c hc)).trans hclock
  order p p' c c' hc hc' := ho.order p p' c c' (hsub p c hc) (hsub p' c' hc')

/-- The close that is recorded comes after those that are there. -/
theorem InOrder.record (ho : InOrder r clock) (hclock : clock ≤ now) (hstamp : c.closedAt = now)
    (hseq : c.seq = r.nextCloseSeq) :
    InOrder { r with closed := r.closed.insert p c, nextCloseSeq := r.nextCloseSeq + 1 } now := by
  have hcases : ∀ q d, (r.closed.insert p c).lookup q = some d →
      d = c ∨ r.closed.lookup q = some d := by
    intro q d hd
    rw [Map.lookup_insert_ite] at hd
    split at hd
    · exact .inl (Option.some.inj hd).symm
    · exact .inr hd
  constructor
  · intro q d hd
    change d.seq < r.nextCloseSeq + 1
    rcases hcases q d hd with rfl | hold
    · omega
    · have hlt := ho.seq q d hold
      omega
  · intro q d hd
    rcases hcases q d hd with rfl | hold
    · exact hstamp.le
    · exact (ho.stamp q d hold).trans hclock
  · intro q q' d d' hd hd' hle
    rcases hcases q d hd with rfl | hold
    · rcases hcases q' d' hd' with rfl | hold'
      · exact Nat.le_refl _
      · -- it would come before one that is there
        have hlt := ho.seq q' d' hold'
        omega
    · rcases hcases q' d' hd' with rfl | hold'
      · exact (ho.stamp q d hold).trans (hclock.trans hstamp.ge)
      · exact ho.order q q' d d' hold hold' hle

/-- A step keeps them in order. -/
theorem InOrder.step (ho : InOrder r clock) (hclock : clock ≤ now) (hcloses : Closes r now r') :
    InOrder r' now := by
  cases hcloses with
  | keeps hclosed hnext => exact ho.of_sub hclock (fun p c hc => hclosed ▸ hc) hnext
  | prunes hclosed hnext =>
      refine ho.of_sub hclock ?_ hnext
      intro p c hc
      rw [hclosed] at hc
      exact Map.lookup_of_prune hc
  | @records p c hstamp hseq hclosed hnext =>
      have hrecord := ho.record (p := p) hclock hstamp hseq
      refine hrecord.of_sub (Nat.le_refl _) ?_ hnext
      intro q d hd
      rw [hclosed] at hd
      exact Map.lookup_of_prune hd

/-- The close that is recorded is not dropped. -/
theorem lookup_record (ho : InOrder r clock) (hstamp : c.closedAt = now)
    (hseq : c.seq = r.nextCloseSeq) :
    (prunedClosed now (r.closed.insert p c)).lookup p = some c := by
  have hnew : (r.closed.insert p c).lookup p = some c := AList.lookup_insert _
  cases hlook : (prunedClosed now (r.closed.insert p c)).lookup p with
  | some d => exact (Map.lookup_of_prune hlook).symm.trans hnew
  | none =>
      have hlive : now - c.closedAt ≤ closedPipeTtl := by omega
      obtain ⟨hfull, hage⟩ := Map.dropped_by_prune hnew hlive hlook
      -- as many are left as the bound says, and each comes before the one that is recorded
      cases hes : (prunedClosed now (r.closed.insert p c)).entries with
      | nil =>
          rw [prunedClosed] at hes
          rw [hes] at hfull
          cases hfull
      | cons x es =>
          have hx : (prunedClosed now (r.closed.insert p c)).lookup x.1 = some x.2 := by
            rw [← Map.mem_entries_iff, hes]
            exact List.mem_cons_self
          have hle := hage x.1 x.2 hx
          have hold := Map.lookup_of_prune hx
          rw [Map.lookup_insert_ite] at hold
          split at hold
          · rename_i hxp
            rw [hxp, hlook] at hx
            cases hx
          · have hlt := ho.seq x.1 x.2 hold
            omega

end Closes

end IrohBle
