import IrohBle.Routing.Table

/-! # Routing.Spec: what the operations do to the pools

The operations of `transport/routing.rs` in terms of lookups, so that no later proof needs
the order of a table's entries.

* `tables`: the table without its parked wakers. A wake changes nothing else.
* `Evicts ps r r'`: the pipes `ps` are taken out of both pools, each out of one entry of the
  routable pool at most.
* `promote_cases`: a promotion is rejected and changes nothing, or it evicts the contenders
  and binds the endpoint to the pipe.
-/

namespace IrohBle

open Lib

namespace Routing

/-! ## Wakes -/

/-- Everything but the parked wakers. -/
def tables (r : Routing) : Routing := { r with endpointWakers := ∅, woken := [] }

theorem tables_wakeEndpointWaiters (e : EndpointId) (r : Routing) :
    (r.wakeEndpointWaiters e).tables = r.tables := rfl

theorem tables_wakeFor (e : Option EndpointId) (r : Routing) : (r.wakeFor e).tables = r.tables := by
  cases e with
  | none => rfl
  | some e => rfl

theorem tables_foldl_wake (es : List EndpointId) (r : Routing) :
    (es.foldl (fun r e => r.wakeEndpointWaiters e) r).tables = r.tables := by
  induction es generalizing r with
  | nil => rfl
  | cons e es ih =>
      rw [List.foldl_cons, ih]
      exact tables_wakeEndpointWaiters e r

theorem tables_wakeEndpointWaitersForPrefix (k : KeyPrefix) (r : Routing) :
    (r.wakeEndpointWaitersForPrefix k).tables = r.tables :=
  tables_foldl_wake _ r

section Tables

variable {r r' : Routing} (h : r'.tables = r.tables)

include h

theorem pending_of_tables : r'.pending = r.pending := (congrArg Routing.pending h :)

theorem routable_of_tables : r'.routable = r.routable := (congrArg Routing.routable h :)

theorem pipes_of_tables : r'.pipes = r.pipes := (congrArg Routing.pipes h :)

theorem scanHint_of_tables : r'.scanHint = r.scanHint := (congrArg Routing.scanHint h :)

theorem reservations_of_tables : r'.reservations = r.reservations :=
  (congrArg Routing.reservations h :)

end Tables

/-! ## Evictions -/

theorem routableEndpoint_eq_some {p : StableConnId} {r : Routing} {e : EndpointId}
    (h : r.routableEndpoint p = some e) : ∃ x, r.routable.lookup e = some x ∧ x.pipe = p := by
  rcases Map.findKey?_eq_some h with ⟨x, hx, hp⟩
  exact ⟨x, hx, eq_of_beq hp⟩

/-- Where none is found no endpoint is bound to it. -/
theorem routableEndpoint_eq_none {p : StableConnId} {r : Routing} (h : r.routableEndpoint p = none)
    {e : EndpointId} {x : Routable} (hx : r.routable.lookup e = some x) : x.pipe ≠ p := by
  intro heq
  have hfalse := Map.findKey?_eq_none h hx
  simp [heq] at hfalse

/-- No pipe is routable for two endpoints. -/
def OneEndpoint (r : Routing) : Prop :=
  ∀ e e' x x', r.routable.lookup e = some x → r.routable.lookup e' = some x' →
    x.pipe = x'.pipe → e = e'

/-- The pipes `ps` are taken out of the pools, each out of one routable entry at most. -/
structure Evicts (ps : List StableConnId) (r r' : Routing) : Prop where
  pending : ∀ q, r'.pending.lookup q = if q ∈ ps then none else r.pending.lookup q
  routable : ∀ e, r'.routable.lookup e = r.routable.lookup e ∨
    r'.routable.lookup e = none ∧ ∃ x, r.routable.lookup e = some x ∧ x.pipe ∈ ps
  gone : r.OneEndpoint → ∀ e x, r'.routable.lookup e = some x → x.pipe ∉ ps
  rest : { r' with pending := ∅, routable := ∅ } = { r with pending := ∅, routable := ∅ }

namespace Evicts

variable {ps qs : List StableConnId} {r r₁ r' : Routing}

theorem pipes (h : Evicts ps r r') : r'.pipes = r.pipes := (congrArg Routing.pipes h.rest :)

theorem reservations (h : Evicts ps r r') : r'.reservations = r.reservations :=
  (congrArg Routing.reservations h.rest :)

theorem scanHint (h : Evicts ps r r') : r'.scanHint = r.scanHint := (congrArg Routing.scanHint h.rest :)

theorem endpointWakers (h : Evicts ps r r') : r'.endpointWakers = r.endpointWakers :=
  (congrArg Routing.endpointWakers h.rest :)

theorem woken (h : Evicts ps r r') : r'.woken = r.woken := (congrArg Routing.woken h.rest :)

theorem refl (r : Routing) : Evicts [] r r where
  pending q := by simp
  routable e := Or.inl rfl
  gone _ e x _ := List.not_mem_nil
  rest := rfl

/-- A routable entry that is left was there before. -/
theorem of_routable (h : Evicts ps r r') {e : EndpointId} {x : Routable}
    (hx : r'.routable.lookup e = some x) : r.routable.lookup e = some x := by
  rcases h.routable e with heq | ⟨hnone, -⟩
  · rw [← heq]
    exact hx
  · rw [hnone] at hx
    cases hx

theorem oneEndpoint (h : Evicts ps r r') (hone : r.OneEndpoint) : r'.OneEndpoint := by
  intro e e' x x' hx hx' hpipe
  exact hone e e' x x' (h.of_routable hx) (h.of_routable hx') hpipe

/-- Evictions compose. -/
theorem trans (h₁ : Evicts ps r r₁) (h₂ : Evicts qs r₁ r') : Evicts (ps ++ qs) r r' where
  pending q := by
    rw [h₂.pending, h₁.pending]
    by_cases hq : q ∈ qs
    · rw [if_pos hq, if_pos (List.mem_append_right ps hq)]
    · rw [if_neg hq]
      by_cases hp : q ∈ ps
      · rw [if_pos hp, if_pos (List.mem_append_left qs hp)]
      · have hnot : q ∉ ps ++ qs := by
          intro hmem
          rcases List.mem_append.mp hmem with hmem | hmem
          · exact hp hmem
          · exact hq hmem
        rw [if_neg hp, if_neg hnot]
  routable e := by
    rcases h₂.routable e with heq₂ | ⟨hnone, x, hx, hmem⟩
    · rcases h₁.routable e with heq₁ | ⟨hnone, x, hx, hmem⟩
      · exact Or.inl (heq₂.trans heq₁)
      · exact Or.inr ⟨heq₂.trans hnone, x, hx, List.mem_append_left qs hmem⟩
    · exact Or.inr ⟨hnone, x, h₁.of_routable hx, List.mem_append_right ps hmem⟩
  gone hone e x hx hmem := by
    rcases List.mem_append.mp hmem with hmem | hmem
    · exact h₁.gone hone e x (h₂.of_routable hx) hmem
    · exact h₂.gone (h₁.oneEndpoint hone) e x hx hmem
  rest := h₂.rest.trans h₁.rest

/-- `evict_contender` takes one pipe out. -/
theorem evictContender (p : StableConnId) (r : Routing) : Evicts [p] r (r.evictContender p) := by
  have hpending : (r.evictContender p).pending = r.pending.erase p := by
    unfold Routing.evictContender evictRoutableOf
    split <;> rfl
  have hentry : ∀ q, (r.evictContender p).pending.lookup q =
      if q ∈ [p] then none else r.pending.lookup q := by
    intro q
    rw [hpending, Map.lookup_erase_ite]
    simp only [List.mem_singleton]
  cases hfind : ({ r with pending := r.pending.erase p } : Routing).routableEndpoint p with
  | none =>
      have hsame : r.evictContender p = { r with pending := r.pending.erase p } := by
        unfold Routing.evictContender evictRoutableOf
        rw [hfind]
      refine ⟨hentry, ?_, ?_, ?_⟩
      · intro e
        rw [hsame]
        exact Or.inl rfl
      · intro _ e x hx hmem
        rw [hsame] at hx
        exact routableEndpoint_eq_none hfind hx (List.mem_singleton.mp hmem)
      · rw [hsame]
  | some e₀ =>
      have hsame : r.evictContender p =
          { r with pending := r.pending.erase p, routable := r.routable.erase e₀ } := by
        unfold Routing.evictContender evictRoutableOf
        rw [hfind]
      rcases routableEndpoint_eq_some hfind with ⟨x₀, hx₀, hp₀⟩
      have hroutable : ∀ e, (r.evictContender p).routable.lookup e =
          if e = e₀ then none else r.routable.lookup e := by
        intro e
        rw [hsame]
        exact Map.lookup_erase_ite _ _ _
      refine ⟨hentry, ?_, ?_, ?_⟩
      · intro e
        rw [hroutable]
        by_cases he : e = e₀
        · subst he
          exact Or.inr ⟨if_pos rfl, x₀, hx₀, List.mem_singleton.mpr hp₀⟩
        · exact Or.inl (if_neg he)
      · -- one entry is enough where a pipe has one endpoint
        intro hone e x hx hmem
        rw [hroutable] at hx
        by_cases he : e = e₀
        · rw [if_pos he] at hx
          cases hx
        · rw [if_neg he] at hx
          exact he (hone e e₀ x x₀ hx hx₀ ((List.mem_singleton.mp hmem).trans hp₀.symm))
      · rw [hsame]

/-- Several take out theirs. -/
theorem foldl_evictContender (ps : List StableConnId) (r : Routing) :
    Evicts ps r (ps.foldl Routing.evictContender r) := by
  induction ps generalizing r with
  | nil => exact refl r
  | cons p ps ih =>
      rw [List.foldl_cons]
      exact (evictContender p r).trans (ih _)

end Evicts

/-- `evict_pipe_state` is an eviction and a wake. -/
theorem evictPipeState_tables (p : StableConnId) (r : Routing) :
    (r.evictPipeState p).1.tables = (r.evictContender p).tables := by
  unfold evictPipeState
  rw [tables_wakeFor, tables_wakeFor]
  rfl

/-- `evict_routable_if_pipe` does nothing, or removes the entry of the endpoint and wakes it. -/
theorem evictRoutableIfPipe_cases (e : EndpointId) (p : StableConnId) (r : Routing) :
    (r.evictRoutableIfPipe e p = (r, none) ∧ ∀ x, r.routable.lookup e = some x → x.pipe ≠ p) ∨
    ∃ x, r.routable.lookup e = some x ∧ x.pipe = p ∧ r.evictRoutableIfPipe e p =
      (({ r with routable := r.routable.erase e } : Routing).wakeEndpointWaiters e, some x) := by
  unfold evictRoutableIfPipe
  cases hx : r.routable.lookup e with
  | none =>
      refine Or.inl ⟨rfl, ?_⟩
      intro x hx'
      cases hx'
  | some x =>
      by_cases hp : x.pipe = p
      · exact Or.inr ⟨x, rfl, hp, if_pos hp⟩
      · refine Or.inl ⟨if_neg hp, ?_⟩
        intro x' hx'
        obtain rfl := Option.some.inj hx'
        exact hp

/-- An evicted pipe is registered no more. -/
theorem lookup_evictPipe (now : ℕ) (p : StableConnId) (r : Routing) :
    (r.evictPipe now p).pipes.lookup p = none := by
  unfold evictPipe
  cases hp : r.pipes.lookup p with
  | none => exact hp
  | some y => exact AList.lookup_erase _ _

/-! ## Scan hints -/

/-- A hint is ignored, or noted; it wakes the resolvers of the prefix unless it says nothing
new. -/
theorem noteScanHint_cases (k : KeyPrefix) (d : DeviceId) (r : Routing) :
    (r.noteScanHint k d).1 = r ∨
    ((r.noteScanHint k d).1 = { r with scanHint := r.scanHint.insert k d } ∧
      r.scanHint.lookup k = some d) ∨
    (r.noteScanHint k d).1 = ({ r with scanHint := r.scanHint.insert k d } :
      Routing).wakeEndpointWaitersForPrefix k := by
  unfold noteScanHint
  dsimp only
  split
  · split
    · exact Or.inl rfl
    · split
      · exact Or.inr (Or.inr rfl)
      · rename_i previous hprev
        split
        · rename_i heq
          exact Or.inr (Or.inl ⟨rfl, by rw [hprev, heq]⟩)
        · exact Or.inr (Or.inr rfl)
  · split
    · exact Or.inr (Or.inr rfl)
    · rename_i previous hprev
      split
      · rename_i heq
        exact Or.inr (Or.inl ⟨rfl, by rw [hprev, heq]⟩)
      · exact Or.inr (Or.inr rfl)

/-- A hint is noted, or was there. -/
theorem noteScanHint_tables (k : KeyPrefix) (d : DeviceId) (r : Routing) :
    (r.noteScanHint k d).1 = r ∨ (r.noteScanHint k d).1.tables =
      ({ r with scanHint := r.scanHint.insert k d } : Routing).tables := by
  rcases noteScanHint_cases k d r with h | ⟨h, -⟩ | h
  · exact Or.inl h
  · exact Or.inr (by rw [h])
  · refine Or.inr ?_
    rw [h]
    exact tables_wakeEndpointWaitersForPrefix k _

/-! ## Promotions -/

/-- The pipe `q` contends with `p` for `e`: it is the routable pipe of `e`, or it is pending
and live and targets `e`. -/
def Contends (r : Routing) (p : StableConnId) (e : EndpointId) (q : StableConnId) : Prop :=
  q ≠ p ∧ ((∃ x, r.routable.lookup e = some x ∧ x.pipe = q) ∨
    ∃ x y, r.pending.lookup q = some x ∧ x.targetEndpoint = some e ∧ r.pipes.lookup q = some y)

/-- The contenders of a promotion: the endpoint's routable pipe, and the pending ones that target
it. -/
theorem mem_contenders_iff {r : Routing} {p : StableConnId} {self e : EndpointId} {c : Contender} :
    c ∈ r.contenders p self e ↔
      (∃ x, r.routable.lookup e = some x ∧ x.pipe ≠ p ∧ c = ⟨x.pipe, x.dialer⟩) ∨
        ∃ q x y, q ≠ p ∧ r.pending.lookup q = some x ∧ x.targetEndpoint = some e ∧
          r.pipes.lookup q = some y ∧ c = ⟨q, Dialer.compute self e y.direction⟩ := by
  unfold contenders
  rw [List.mem_append]
  refine or_congr ?_ ?_
  · -- the incumbent
    cases hx : r.routable.lookup e with
    | none => simp
    | some x =>
        by_cases hp : x.pipe = p
        · simp [hp]
        · simp [hp]
  · -- the pending pipes
    rw [List.mem_filterMap]
    constructor
    · rintro ⟨⟨q, x⟩, hmem, hc⟩
      have hx := (Map.mem_entries_iff _ _ _).mp hmem
      by_cases hq : q = p
      · simp [hq] at hc
      · by_cases ht : x.targetEndpoint = some e
        · simp only [hq, ht, if_false, ne_eq, not_true_eq_false, Option.map_eq_some_iff] at hc
          rcases hc with ⟨y, hy, rfl⟩
          exact ⟨q, x, y, hq, hx, ht, hy, rfl⟩
        · simp [hq, ht] at hc
    · rintro ⟨q, x, y, hq, hx, ht, hy, rfl⟩
      refine ⟨⟨q, x⟩, (Map.mem_entries_iff _ _ _).mpr hx, ?_⟩
      simp [hq, ht, hy]

/-- The pipes among them, without the direction. -/
theorem mem_contenders_pipes_iff {r : Routing} {p q : StableConnId} {self e : EndpointId} :
    q ∈ (r.contenders p self e).map Contender.pipe ↔ r.Contends p e q := by
  rw [List.mem_map]
  constructor
  · rintro ⟨c, hc, rfl⟩
    rcases mem_contenders_iff.mp hc with ⟨x, hx, hp, rfl⟩ | ⟨q, x, y, hq, hx, ht, hy, rfl⟩
    · exact ⟨hp, Or.inl ⟨x, hx, rfl⟩⟩
    · exact ⟨hq, Or.inr ⟨x, y, hx, ht, hy⟩⟩
  · rintro ⟨hq, ⟨x, hx, rfl⟩ | ⟨x, y, hx, ht, hy⟩⟩
    · exact ⟨_, mem_contenders_iff.mpr (Or.inl ⟨x, hx, hq, rfl⟩), rfl⟩
    · exact ⟨_, mem_contenders_iff.mpr (Or.inr ⟨q, x, y, hq, hx, ht, hy, rfl⟩), rfl⟩

/-- Only a pipe dialled from the lower id is rejected, against one dialled from the higher. -/
theorem decideContenders_eq_reject {d : Dialer} {cs : List Contender} :
    decideContenders d cs = .reject ↔ d = .low ∧ ∃ c ∈ cs, c.dialer = .high := by
  unfold decideContenders
  cases cs with
  | nil => simp
  | cons c cs =>
      have hany : ((c :: cs).any fun c => c.dialer == .high) = true ↔
          ∃ c' ∈ c :: cs, c'.dialer = .high := by
        simp only [List.any_eq_true, beq_iff_eq]
      rw [← hany]
      generalize ((c :: cs).any fun c => c.dialer == .high) = b
      cases d <;> cases b <;> simp

/-- An accepted promotion of `p` for `e` at `now`, which evicts the pipes `ps`. -/
structure Promotes (now : ℕ) (p : StableConnId) (me e : EndpointId) (ps : List StableConnId)
    (r r' : Routing) : Prop where
  bound : ∃ y, r.pipes.lookup p = some y ∧
    r'.routable.lookup e = some ⟨p, e, Dialer.compute me e y.direction, now⟩ ∧
    (Dialer.compute me e y.direction = .low → ∀ c ∈ r.contenders p me e, c.dialer = .low)
  evicted : ∀ q, q ∈ ps ↔ r.Contends p e q
  pending : ∀ q, r'.pending.lookup q = if q = p ∨ q ∈ ps then none else r.pending.lookup q
  routable : ∀ e', e' ≠ e → r'.routable.lookup e' = r.routable.lookup e' ∨
    r'.routable.lookup e' = none ∧ ∃ x, r.routable.lookup e' = some x ∧ x.pipe ∈ ps
  gone : r.OneEndpoint → ∀ e' x, e' ≠ e → r'.routable.lookup e' = some x → x.pipe ∉ ps
  rest : { r' with pending := ∅, routable := ∅ } =
    { r.wakeEndpointWaiters e with pending := ∅, routable := ∅ }

theorem Promotes.pipes {now : ℕ} {p : StableConnId} {self e : EndpointId}
    {ps : List StableConnId} {r r' : Routing} (h : Promotes now p self e ps r r') :
    r'.pipes = r.pipes := (congrArg Routing.pipes h.rest :)

/-- Evicting the contenders and binding the endpoint is a promotion. -/
theorem promotes_of_evicts {now : ℕ} {p : StableConnId} {self e : EndpointId} {r r₁ : Routing}
    {y : Pipe} (hp : r.pipes.lookup p = some y)
    (hlow : Dialer.compute self e y.direction = .low →
      ∀ c ∈ r.contenders p self e, c.dialer = .low)
    (h : Evicts ((r.contenders p self e).map Contender.pipe) r r₁) :
    Promotes now p self e ((r.contenders p self e).map Contender.pipe) r
      (({ r₁ with
          routable := (r₁.routable.erase e).insert e
            ⟨p, e, Dialer.compute self e y.direction, now⟩
          pending := r₁.pending.erase p } : Routing).wakeEndpointWaiters e) := by
  -- the entries of the other endpoints are those the eviction has left
  have hother : ∀ e', e' ≠ e → ((r₁.routable.erase e).insert e
      ⟨p, e, Dialer.compute self e y.direction, now⟩).lookup e' = r₁.routable.lookup e' := by
    intro e' he
    rw [Map.lookup_insert_ite, if_neg he, Map.lookup_erase_ite, if_neg he]
  refine ⟨⟨y, hp, ?_, hlow⟩, fun q => mem_contenders_pipes_iff, ?_, ?_, ?_, ?_⟩
  · exact AList.lookup_insert _
  · intro q
    change (r₁.pending.erase p).lookup q = _
    rw [Map.lookup_erase_ite]
    by_cases hq : q = p
    · rw [if_pos hq, if_pos (Or.inl hq)]
    · rw [if_neg hq, h.pending q]
      by_cases hmem : q ∈ (r.contenders p self e).map Contender.pipe
      · rw [if_pos hmem, if_pos (Or.inr hmem)]
      · rw [if_neg hmem, if_neg (not_or.mpr ⟨hq, hmem⟩)]
  · intro e' he
    change ((r₁.routable.erase e).insert e _).lookup e' = _ ∨ _
    have hsame := hother e' he
    rcases h.routable e' with heq | ⟨hnone, hx⟩
    · exact Or.inl (hsame.trans heq)
    · exact Or.inr ⟨hsame.trans hnone, hx⟩
  · intro hone e' x he hx
    exact h.gone hone e' x ((hother e' he).symm.trans hx)
  · have hrest := congrArg (Routing.wakeEndpointWaiters e) h.rest
    exact hrest

/-- A promotion is rejected and changes nothing, or it is accepted. -/
theorem promote_cases (now : ℕ) (p : StableConnId) (self e : EndpointId) (r : Routing) :
    (r.promote now p self e = (r, .rejected) ∧ ∀ y, r.pipes.lookup p = some y →
      Dialer.compute self e y.direction = .low ∧ ∃ c ∈ r.contenders p self e, c.dialer = .high) ∨
    ∃ r' ps, r.promote now p self e = (r', .accepted ps) ∧ Promotes now p self e ps r r' := by
  -- an unregistered pipe is not promoted
  cases hp : r.pipes.lookup p with
  | none =>
      refine Or.inl ⟨?_, ?_⟩
      · simp only [promote, hp]
      · intro y hy
        cases hy
  | some y =>
      by_cases hreject : decideContenders (Dialer.compute self e y.direction)
          (r.contenders p self e) = .reject
      · -- refused for a contender that was dialled from the higher id
        refine Or.inl ⟨?_, ?_⟩
        · simp only [promote, hp, hreject]
        · intro y' hy'
          obtain rfl := Option.some.inj hy'
          exact decideContenders_eq_reject.mp hreject
      · right
        have hlow : Dialer.compute self e y.direction = .low →
            ∀ c ∈ r.contenders p self e, c.dialer = .low := by
          intro hd c hc
          cases hcd : c.dialer with
          | low => rfl
          | high => exact absurd (decideContenders_eq_reject.mpr ⟨hd, c, hc, hcd⟩) hreject
        have hevicts := Evicts.foldl_evictContender ((r.contenders p self e).map Contender.pipe) r
        refine ⟨_, _, ?_, promotes_of_evicts hp hlow hevicts⟩
        simp only [promote, hp]
        cases hdecide : decideContenders (Dialer.compute self e y.direction)
            (r.contenders p self e) with
        | reject => exact absurd hdecide hreject
        | accept => rfl
        | acceptEvictingAll => rfl

end Routing

end IrohBle
