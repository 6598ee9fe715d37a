import IrohBle.Routing.Dangling

/-! # Routing.Answer: what a resolver would answer, and who is woken

A resolver stream answers from five tables, and each operation decides which of the parked
streams to wake.

* `answer`: the routable pipe, else a pending pipe that targets the endpoint, else the
  reservation of its prefix, else the hint to reserve on.
* `Wakes es`: exactly the wakers parked for the endpoints `es` are taken out and woken.
* `Tells W`: an endpoint of `W` that is not woken has the answer it had. There is one such
  lemma for each operation, under what has to hold of `W`.
-/

namespace IrohBle

open Lib

/-- Where a resolver takes its answer from. -/
inductive Answer where
  | routable (id : StableConnId)
  | pending (id : StableConnId)
  | reservation (id : StableConnId)
  /-- The prefix was scanned: reserve an id. -/
  | hint
deriving DecidableEq

namespace Routing

/-- `reservation_for_prefix`. -/
def reservationForPrefix (keyPrefix : KeyPrefix) (r : Routing) : Option Reservation :=
  r.reservations.lookup keyPrefix

/-- What a resolver stream would answer, the hint being the last resort. -/
def answer (e : EndpointId) (r : Routing) : Option Answer :=
  match r.routablePipeFor e with
  | some id => some (.routable id)
  | none =>
    match r.pendingPipeFor e with
    | some id => some (.pending id)
    | none =>
      match r.reservationForPrefix (prefixFromEndpoint e) with
      | some reservation => some (.reservation reservation.stableId)
      | none => if (r.scanHintForPrefix (prefixFromEndpoint e)).isSome then some .hint else none

section Answer

variable {e : EndpointId} {r r' : Routing}

/-- The answer is the same where each table says the same, as far as it is asked. -/
theorem answer_congr (hroutable : r'.routablePipeFor e = r.routablePipeFor e)
    (hpending : r.routablePipeFor e = none → r'.pendingPipeFor e = r.pendingPipeFor e)
    (hreservation : r.routablePipeFor e = none → r.pendingPipeFor e = none →
      r'.reservationForPrefix (prefixFromEndpoint e) =
        r.reservationForPrefix (prefixFromEndpoint e))
    (hhint : r.routablePipeFor e = none → r.pendingPipeFor e = none →
      r.reservationForPrefix (prefixFromEndpoint e) = none →
      (r'.scanHintForPrefix (prefixFromEndpoint e)).isSome =
        (r.scanHintForPrefix (prefixFromEndpoint e)).isSome) : r'.answer e = r.answer e := by
  unfold answer
  rw [hroutable]
  cases hr : r.routablePipeFor e with
  | some id => rfl
  | none =>
      dsimp only
      rw [hpending hr]
      cases hp : r.pendingPipeFor e with
      | some id => rfl
      | none =>
          dsimp only
          rw [hreservation hr hp]
          cases hx : r.reservationForPrefix (prefixFromEndpoint e) with
          | some x => rfl
          | none =>
              dsimp only
              rw [hhint hr hp hx]

theorem answer_of_reservation {x : Reservation} (hr : r.routablePipeFor e = none)
    (hp : r.pendingPipeFor e = none)
    (hx : r.reservationForPrefix (prefixFromEndpoint e) = some x) :
    r.answer e = some (.reservation x.stableId) := by
  simp only [answer, hr, hp, hx]

/-- Nothing is reserved, so the answer is the hint, if there is one. -/
theorem answer_of_unreserved (hr : r.routablePipeFor e = none) (hp : r.pendingPipeFor e = none)
    (hx : r.reservationForPrefix (prefixFromEndpoint e) = none) :
    r.answer e =
      if (r.scanHintForPrefix (prefixFromEndpoint e)).isSome then some .hint else none := by
  simp only [answer, hr, hp, hx]

/-- The hint is the answer only where nothing else is there. -/
theorem answer_eq_hint (h : r.answer e = some .hint) : r.routablePipeFor e = none ∧
    r.pendingPipeFor e = none ∧ r.reservationForPrefix (prefixFromEndpoint e) = none ∧
    (r.scanHintForPrefix (prefixFromEndpoint e)).isSome = true := by
  unfold answer at h
  split at h
  · cases h
  · rename_i hr
    split at h
    · cases h
    · rename_i hp
      split at h
      · cases h
      · rename_i hx
        split at h
        · rename_i hs
          exact ⟨hr, hp, hx, hs⟩
        · cases h

/-- The answer depends on the tables. -/
theorem answer_of_tables (h : r'.tables = r.tables) : r'.answer e = r.answer e := by
  refine answer_congr ?_ ?_ ?_ ?_
  · unfold routablePipeFor
    rw [routable_of_tables h]
  · intro _
    unfold pendingPipeFor
    rw [pending_of_tables h]
  · intro _ _
    unfold reservationForPrefix
    rw [reservations_of_tables h]
  · intro _ _ _
    unfold scanHintForPrefix
    rw [scanHint_of_tables h]

theorem routablePipeFor_congr (h : r'.routable.lookup e = r.routable.lookup e) :
    r'.routablePipeFor e = r.routablePipeFor e := by
  unfold routablePipeFor
  rw [h]

end Answer

/-! ## The pending pool, in its order -/

/-- Every pending entry names its key. -/
def PendingKeys (r : Routing) : Prop := ∀ q x, r.pending.lookup q = some x → x.pipe = q

section Pending

variable {e : EndpointId} {r r' : Routing}

/-- The entry that the search for a pending pipe finds. -/
theorem pendingPipeFor_eq (e : EndpointId) (r : Routing) : r.pendingPipeFor e =
    (r.pending.entries.find? fun x => x.2.targetEndpoint == some e).map fun x => x.2.pipe := by
  unfold pendingPipeFor Map.values
  rw [List.find?_map, Option.map_map]
  rfl

/-- A pending pipe that was found targets the endpoint. -/
theorem pendingPipeFor_eq_some {q : StableConnId} (hkeys : r.PendingKeys)
    (h : r.pendingPipeFor e = some q) :
    ∃ x, r.pending.lookup q = some x ∧ x.targetEndpoint = some e := by
  rw [pendingPipeFor_eq] at h
  rcases Option.map_eq_some_iff.mp h with ⟨⟨q', x⟩, hfind, hq⟩
  have hx := (Map.mem_entries_iff _ _ _).mp (List.mem_of_find?_eq_some hfind)
  have htarget : (x.targetEndpoint == some e) = true := (List.find?_some hfind :)
  obtain rfl : q' = q := (hkeys q' x hx).symm.trans hq
  exact ⟨x, hx, eq_of_beq htarget⟩

/-- Taking out other entries does not change which one is found first. -/
theorem pendingPipeFor_sublist (hkeys : r.PendingKeys)
    (hsub : r'.pending.entries.Sublist r.pending.entries)
    (hkept : ∀ q, r.pendingPipeFor e = some q → r'.pending.lookup q = r.pending.lookup q) :
    r'.pendingPipeFor e = r.pendingPipeFor e := by
  cases hfind : r.pending.entries.find? fun x => x.2.targetEndpoint == some e with
  | none =>
      rw [pendingPipeFor_eq, pendingPipeFor_eq, hfind, hsub.find?_eq_none hfind]
  | some x =>
      rcases x with ⟨q, x⟩
      have hq := (Map.mem_entries_iff _ _ _).mp (List.mem_of_find?_eq_some hfind)
      have hanswer : r.pendingPipeFor e = some q := by
        rw [pendingPipeFor_eq, hfind, Option.map_some, hkeys q x hq]
      have hmem : ⟨q, x⟩ ∈ r'.pending.entries := by
        rw [Map.mem_entries_iff, hkept q hanswer]
        exact hq
      have hfound := Map.find?_of_sublist r.pending.nodupKeys.nodup hsub hfind hmem
      rw [pendingPipeFor_eq, pendingPipeFor_eq, hfind, hfound]

/-- A new entry changes the answer only for the endpoint that it targets. -/
theorem pendingPipeFor_insert {q : StableConnId} {x : Pending}
    (hnew : r.pending.lookup q = none) (htarget : x.targetEndpoint ≠ some e)
    (hpending : r'.pending = r.pending.insert q x) :
    r'.pendingPipeFor e = r.pendingPipeFor e := by
  have hkerase : r.pending.entries.kerase q = r.pending.entries := by
    refine List.kerase_of_notMem_keys ?_
    exact AList.lookup_eq_none.mp hnew
  have hentries : r'.pending.entries = ⟨q, x⟩ :: r.pending.entries := by
    rw [hpending, AList.entries_insert, hkerase]
  rw [pendingPipeFor_eq, pendingPipeFor_eq, hentries, List.find?_cons_of_neg]
  simpa using htarget

/-- Where one entry at most targets the endpoint, the order does not matter. -/
theorem pendingPipeFor_reorder {ks : List StableConnId} (hks : ks.Perm r.pending.keys)
    (hpending : r'.pending = r.pending.reorder ks)
    (hone : ∀ q q' x x', r.pending.lookup q = some x → r.pending.lookup q' = some x' →
      x.targetEndpoint = some e → x'.targetEndpoint = some e → q = q') :
    r'.pendingPipeFor e = r.pendingPipeFor e := by
  -- the entries are the same in any order
  have hmem : ∀ q x, (⟨q, x⟩ : Σ _ : StableConnId, Pending) ∈ r'.pending.entries ↔
      r.pending.lookup q = some x := by
    intro q x
    rw [Map.mem_entries_iff, hpending, Map.lookup_reorder hks]
  rw [pendingPipeFor_eq, pendingPipeFor_eq]
  cases hfind : r.pending.entries.find? fun x => x.2.targetEndpoint == some e with
  | none =>
      have hnone : (r'.pending.entries.find? fun x => x.2.targetEndpoint == some e) = none := by
        rw [List.find?_eq_none] at hfind ⊢
        rintro ⟨q, x⟩ hx
        exact hfind ⟨q, x⟩ ((Map.mem_entries_iff _ _ _).mpr ((hmem q x).mp hx))
      rw [hnone]
  | some x =>
      rcases x with ⟨q, x⟩
      have hq := (Map.mem_entries_iff _ _ _).mp (List.mem_of_find?_eq_some hfind)
      have htarget : (x.targetEndpoint == some e) = true := (List.find?_some hfind :)
      cases hfind' : r'.pending.entries.find? fun x => x.2.targetEndpoint == some e with
      | none =>
          rw [List.find?_eq_none] at hfind'
          exact absurd htarget (hfind' ⟨q, x⟩ ((hmem q x).mpr hq))
      | some x' =>
          rcases x' with ⟨q', x'⟩
          have hq' := (hmem q' x').mp (List.mem_of_find?_eq_some hfind')
          have htarget' : (x'.targetEndpoint == some e) = true := (List.find?_some hfind' :)
          obtain rfl := hone q q' x x' hq hq' (eq_of_beq htarget) (eq_of_beq htarget')
          rw [hq] at hq'
          obtain rfl := Option.some.inj hq'
          rfl

end Pending

/-! ## Wakes -/

/-- The wakers parked for an endpoint. -/
def wakersOf (e : EndpointId) (r : Routing) : List Waker := (r.endpointWakers.lookup e).getD []

/-- The wakers that were woken on the way from `r` to `r'`. -/
def newlyWoken (r r' : Routing) : List Waker := r'.woken.drop r.woken.length

/-- The wakers parked for `es` are woken, the others stay parked. -/
structure Wakes (es : List EndpointId) (r r' : Routing) : Prop where
  parked : ∀ e, e ∉ es → r'.wakersOf e = r.wakersOf e
  woken : ∃ ws, r'.woken = r.woken ++ ws ∧ ∀ e ∈ es, ∀ w ∈ r.wakersOf e, w ∈ ws

namespace Wakes

variable {es es' : List EndpointId} {r r₁ r' : Routing}

/-- The wakers of a woken endpoint are among those woken. -/
theorem mem_newlyWoken (h : Wakes es r r') {e : EndpointId} (he : e ∈ es) {w : Waker}
    (hw : w ∈ r.wakersOf e) : w ∈ newlyWoken r r' := by
  rcases h.woken with ⟨ws, hws, hall⟩
  unfold newlyWoken
  rw [hws, List.drop_left]
  exact hall e he w hw

/-- Where no waker has moved nobody is woken. -/
theorem of_eq (hparked : r'.endpointWakers = r.endpointWakers) (hwoken : r'.woken = r.woken) :
    Wakes [] r r' where
  parked e _ := by
    unfold wakersOf
    rw [hparked]
  woken := ⟨[], by rw [hwoken, List.append_nil], by simp⟩

/-- One after another, both lists of endpoints are woken. -/
theorem trans (h₁ : Wakes es r r₁) (h₂ : Wakes es' r₁ r') : Wakes (es ++ es') r r' where
  parked e he := by
    rw [List.mem_append, not_or] at he
    rw [h₂.parked e he.2, h₁.parked e he.1]
  woken := by
    rcases h₁.woken with ⟨ws, hws, hall⟩
    rcases h₂.woken with ⟨ws', hws', hall'⟩
    refine ⟨ws ++ ws', by rw [hws', hws, List.append_assoc], ?_⟩
    intro e he w hw
    by_cases hes : e ∈ es
    · exact List.mem_append_left ws' (hall e hes w hw)
    · -- still parked when the second step wakes it
      have hmem : e ∈ es' := (List.mem_append.mp he).resolve_left hes
      rw [← h₁.parked e hes] at hw
      exact List.mem_append_right ws (hall' e hmem w hw)

/-- `wake_endpoint_waiters` wakes its endpoint. -/
theorem wakeEndpointWaiters (e : EndpointId) (r : Routing) :
    Wakes [e] r (r.wakeEndpointWaiters e) where
  parked e' he := by
    have hne : e' ≠ e := by simpa using he
    unfold wakersOf Routing.wakeEndpointWaiters
    rw [Map.lookup_erase_ite, if_neg hne]
  woken := by
    refine ⟨r.wakersOf e, rfl, ?_⟩
    intro e' he w hw
    rw [List.mem_singleton.mp he] at hw
    exact hw

/-- With a target, `wake_for` does so. -/
theorem wakeFor (e : Option EndpointId) (r : Routing) : Wakes e.toList r (r.wakeFor e) := by
  cases e with
  | none => exact of_eq rfl rfl
  | some e => exact wakeEndpointWaiters e r

/-- A list of endpoints is woken one by one. -/
theorem foldl (es : List EndpointId) (r : Routing) :
    Wakes es r (es.foldl (fun r e => r.wakeEndpointWaiters e) r) := by
  induction es generalizing r with
  | nil => exact of_eq rfl rfl
  | cons e es ih => exact (wakeEndpointWaiters e r).trans (ih _)

/-- A wake after a change to the tables alone. -/
theorem after (r₀ : Routing) (hparked : r₀.endpointWakers = r.endpointWakers)
    (hwoken : r₀.woken = r.woken) (h : Wakes es r₀ r') : Wakes es r r' :=
  (of_eq hparked hwoken).trans h

end Wakes

/-- Whoever in `W` is not woken has the answer it had. -/
def Tells (W : EndpointId → Prop) (r r' : Routing) : Prop :=
  ∃ es, Wakes es r r' ∧ ∀ e, W e → e ∉ es → r'.answer e = r.answer e

/-- A waker that is not woken stays parked, and what it was parked on is still the answer. -/
theorem Tells.keeps {W : EndpointId → Prop} {r r' : Routing} (h : Tells W r r') {e : EndpointId}
    (he : W e) {w : Waker} (hw : w ∈ r.wakersOf e) (hsilent : w ∉ newlyWoken r r') :
    w ∈ r'.wakersOf e ∧ r'.answer e = r.answer e := by
  rcases h with ⟨es, hwakes, hanswer⟩
  have hnot : e ∉ es := fun hmem => hsilent (hwakes.mem_newlyWoken hmem hw)
  rw [hwakes.parked e hnot]
  exact ⟨hw, hanswer e he hnot⟩

section Tells

variable {W : EndpointId → Prop} {r r' : Routing}

/-- `evict_pipe` changes no answer. -/
theorem tells_evictPipe (now : ℕ) (p : StableConnId) : Tells W r (r.evictPipe now p) := by
  unfold evictPipe
  split
  · exact ⟨[], .of_eq rfl rfl, fun _ _ _ => rfl⟩
  · exact ⟨[], .of_eq rfl rfl, fun _ _ _ => rfl⟩

/-- A reservation wakes nobody. -/
theorem tells_reserveOutbound (now : ℕ) (e : EndpointId)
    (hW : r.reservations.lookup (prefixFromEndpoint e) = none → ∀ e', W e' →
      prefixFromEndpoint e' = prefixFromEndpoint e → r.answer e' ≠ none ∧ r.answer e' ≠ some .hint) :
    Tells W r (r.reserveOutbound now e).1 := by
  unfold reserveOutbound
  dsimp only
  have hres : (r.prunePipeTombstones now).reservations = r.reservations := rfl
  rw [hres]
  cases hx : r.reservations.lookup (prefixFromEndpoint e) with
  | some x => exact ⟨[], .of_eq rfl rfl, fun _ _ _ => rfl⟩
  | none =>
      refine ⟨[], .of_eq rfl rfl, ?_⟩
      intro e' he' _
      refine answer_congr rfl (fun _ => rfl) ?_ (fun _ _ _ => rfl)
      intro hr hp
      change (r.reservations.insert (prefixFromEndpoint e) _).lookup _ = r.reservations.lookup _
      rw [Map.lookup_insert_ite]
      split
      · -- neither a pipe nor a reservation: such an endpoint does not wait
        rename_i hk
        have hnone : r.reservationForPrefix (prefixFromEndpoint e') = none := by
          unfold reservationForPrefix
          rw [hk]
          exact hx
        have hanswer := answer_of_unreserved hr hp hnone
        rcases hW hx e' he' hk with ⟨hsome, hhint⟩
        split at hanswer
        · exact absurd hanswer hhint
        · exact absurd hanswer hsome
      · rfl

/-- Nor does another order. -/
theorem tells_rehash {o : Orders} (h : r.rehash o = some r')
    (hW : ∀ e, W e → ∀ q q' x x', r.pending.lookup q = some x → r.pending.lookup q' = some x' →
      x.targetEndpoint = some e → x'.targetEndpoint = some e → q = q') : Tells W r r' := by
  unfold rehash at h
  split at h
  · rename_i hperm
    obtain rfl := Option.some.inj h
    refine ⟨[], .of_eq rfl rfl, ?_⟩
    intro e he _
    refine answer_congr ?_ ?_ (fun _ _ => rfl) ?_
    · exact routablePipeFor_congr (Map.lookup_reorder hperm.2.2.2 e)
    · intro _
      exact pendingPipeFor_reorder hperm.2.2.1 rfl (hW e he)
    · intro _ _ _
      exact congrArg Option.isSome (Map.lookup_reorder hperm.2.1 _)
  · cases h

/-- `evict_routable_if_pipe` wakes the endpoint it removes. -/
theorem tells_evictRoutableIfPipe (e : EndpointId) (p : StableConnId) :
    Tells W r (r.evictRoutableIfPipe e p).1 := by
  rcases evictRoutableIfPipe_cases e p r with ⟨hr, -⟩ | ⟨x, hx, hp, hr⟩
  · rw [hr]
    exact ⟨[], .of_eq rfl rfl, fun _ _ _ => rfl⟩
  · rw [hr]
    refine ⟨[e], Wakes.after { r with routable := r.routable.erase e } rfl rfl
      (Wakes.wakeEndpointWaiters e _), ?_⟩
    intro e' _ he
    rw [answer_of_tables (tables_wakeEndpointWaiters e _)]
    refine answer_congr ?_ (fun _ => rfl) (fun _ _ => rfl) (fun _ _ _ => rfl)
    refine routablePipeFor_congr ?_
    change (r.routable.erase e).lookup e' = _
    rw [Map.lookup_erase_ite, if_neg (by simpa using he)]

/-- A hint that says something new wakes everybody parked for its prefix. -/
theorem tells_noteScanHint (k : KeyPrefix) (d : DeviceId)
    (hW : ∀ e, W e → r.wakersOf e ≠ []) : Tells W r (r.noteScanHint k d).1 := by
  have hother : ∀ e, prefixFromEndpoint e ≠ k ∨ r.scanHint.lookup k = some d →
      ({ r with scanHint := r.scanHint.insert k d } : Routing).answer e = r.answer e := by
    intro e he
    refine answer_congr rfl (fun _ => rfl) (fun _ _ => rfl) ?_
    intro _ _ _
    change ((r.scanHint.insert k d).lookup (prefixFromEndpoint e)).isSome =
      (r.scanHint.lookup (prefixFromEndpoint e)).isSome
    rw [Map.lookup_insert_ite]
    split
    · rename_i hk
      rcases he with he | he
      · exact absurd hk he
      · rw [hk, he]
    · rfl
  rcases noteScanHint_cases k d r with hr | ⟨hr, hold⟩ | hr
  · rw [hr]
    exact ⟨[], .of_eq rfl rfl, fun _ _ _ => rfl⟩
  · rw [hr]
    exact ⟨[], .of_eq rfl rfl, fun e _ _ => hother e (Or.inr hold)⟩
  · rw [hr]
    unfold wakeEndpointWaitersForPrefix
    refine ⟨_, Wakes.after { r with scanHint := r.scanHint.insert k d } rfl rfl
      (Wakes.foldl _ _), ?_⟩
    intro e he hnot
    rw [answer_of_tables (tables_foldl_wake _ _)]
    refine hother e (Or.inl ?_)
    rintro rfl
    refine hnot (List.mem_filter.mpr ⟨?_, by simp⟩)
    -- somebody is parked for the endpoint
    refine AList.mem_keys.mp ?_
    by_contra hmem
    refine hW e he ?_
    unfold wakersOf
    rw [AList.lookup_eq_none.mpr hmem]
    rfl

end Tells

/-! ## Evictions and promotions -/

section Evictions

variable {W : EndpointId → Prop} {r r' : Routing}

theorem pending_evictContender (p : StableConnId) (r : Routing) :
    (r.evictContender p).pending = r.pending.erase p := by
  unfold evictContender evictRoutableOf
  split <;> rfl

theorem evictContender_sublist (p : StableConnId) (r : Routing) :
    (r.evictContender p).pending.entries.Sublist r.pending.entries := by
  rw [pending_evictContender]
  exact List.kerase_sublist p r.pending.entries

theorem foldl_evictContender_sublist (ps : List StableConnId) (r : Routing) :
    (ps.foldl evictContender r).pending.entries.Sublist r.pending.entries := by
  induction ps generalizing r with
  | nil => exact List.Sublist.refl _
  | cons p ps ih => exact (ih _).trans (evictContender_sublist p r)

/-- An eviction takes out the entry that the search by pipe finds. -/
theorem lookup_routable_evictContender {p : StableConnId} {e : EndpointId}
    (h : r.routableEndpoint p ≠ some e) :
    (r.evictContender p).routable.lookup e = r.routable.lookup e := by
  unfold evictContender evictRoutableOf
  have hfind : ({ r with pending := r.pending.erase p } : Routing).routableEndpoint p =
      r.routableEndpoint p := rfl
  rw [hfind]
  cases he : r.routableEndpoint p with
  | none => rfl
  | some e₀ =>
      have hne : e ≠ e₀ := by
        rintro rfl
        exact h he
      change (r.routable.erase e₀).lookup e = _
      rw [Map.lookup_erase_ite, if_neg hne]

/-- Pipes without a routable entry take none with them. -/
theorem lookup_routable_foldl {ps : List StableConnId}
    (h : ∀ q ∈ ps, ∀ e x, r.routable.lookup e = some x → x.pipe ≠ q) (e : EndpointId) :
    (ps.foldl evictContender r).routable.lookup e = r.routable.lookup e := by
  have hevicts := Evicts.foldl_evictContender ps r
  rcases hevicts.routable e with heq | ⟨-, x, hx, hmem⟩
  · exact heq
  · exact absurd rfl (h x.pipe hmem e x hx)

/-- `evict_pipe_state` wakes whom it takes the pipe from. -/
theorem tells_evictPipeState (hkeys : r.PendingKeys) (p : StableConnId) :
    Tells W r (r.evictPipeState p).1 := by
  have hevicts := Evicts.evictContender p r
  -- the endpoint it was pending for, and the one it was routable for
  refine ⟨((r.pending.lookup p).bind Pending.targetEndpoint).toList ++
    (r.routableEndpoint p).toList, ?_, ?_⟩
  · refine Wakes.after (r.evictContender p) hevicts.endpointWakers hevicts.woken ?_
    exact (Wakes.wakeFor _ _).trans (Wakes.wakeFor _ _)
  · -- any other endpoint has its pipes still
    intro e _ he
    rw [List.mem_append, not_or] at he
    rw [answer_of_tables (evictPipeState_tables p r)]
    refine answer_congr ?_ ?_ ?_ ?_
    · refine routablePipeFor_congr (lookup_routable_evictContender ?_)
      intro hp
      rw [hp] at he
      exact he.2 (List.mem_singleton_self e)
    · intro _
      refine pendingPipeFor_sublist hkeys (evictContender_sublist p r) ?_
      intro q hq
      rcases pendingPipeFor_eq_some hkeys hq with ⟨x, hx, htarget⟩
      have hne : q ≠ p := by
        rintro rfl
        rw [hx, Option.bind_some, htarget] at he
        exact he.1 (List.mem_singleton_self e)
      rw [hevicts.pending, if_neg (by simpa using hne)]
    · intro _ _
      unfold reservationForPrefix
      rw [hevicts.reservations]
    · intro _ _ _
      unfold scanHintForPrefix
      rw [hevicts.scanHint]

/-- The incumbent comes first, and the other contenders are pending. -/
theorem contenders_eq (p : StableConnId) (self e : EndpointId) (r : Routing) :
    ∃ others : List Contender, (∀ c ∈ others, ∃ x, r.pending.lookup c.pipe = some x) ∧
      (r.contenders p self e = others ∨ ∃ x, r.routable.lookup e = some x ∧ x.pipe ≠ p ∧
        r.contenders p self e = ⟨x.pipe, x.dialer⟩ :: others) := by
  refine ⟨r.pending.entries.filterMap fun x =>
    if x.1 = p then none
    else if x.2.targetEndpoint ≠ some e then none
    else (r.pipes.lookup x.1).map fun other =>
      ⟨x.1, Dialer.compute self e other.direction⟩, ?_, ?_⟩
  · intro c hc
    rcases List.mem_filterMap.mp hc with ⟨⟨q, x⟩, hmem, hcontender⟩
    have hx := (Map.mem_entries_iff _ _ _).mp hmem
    simp only at hcontender
    split at hcontender
    · cases hcontender
    · split at hcontender
      · cases hcontender
      · rcases Option.map_eq_some_iff.mp hcontender with ⟨y, -, rfl⟩
        exact ⟨x, hx⟩
  · unfold contenders
    cases hx : r.routable.lookup e with
    | none => exact Or.inl (List.nil_append _)
    | some x =>
        by_cases hp : x.pipe = p
        · refine Or.inl ?_
          simp only [hp, ne_eq, not_true_eq_false, if_false, List.nil_append]
        · refine Or.inr ⟨x, rfl, hp, ?_⟩
          simp only [hp, ne_eq, not_false_eq_true, if_true, List.singleton_append]

/-- No pipe is in both pools. -/
def Apart (r : Routing) : Prop :=
  ∀ q x e y, r.pending.lookup q = some x → r.routable.lookup e = some y → y.pipe ≠ q

/-- Besides its endpoint's own entry, a promotion takes out the one that the search for the
incumbent pipe finds. -/
theorem lookup_routable_contenders (hapart : r.Apart) {p : StableConnId} {self e e' : EndpointId}
    (h : ∀ x, r.routable.lookup e = some x → x.pipe ≠ p → r.routableEndpoint x.pipe ≠ some e') :
    (((r.contenders p self e).map Contender.pipe).foldl evictContender r).routable.lookup e' =
      r.routable.lookup e' := by
  rcases contenders_eq p self e r with ⟨others, hpending, hcontenders | ⟨x, hx, hp, hcontenders⟩⟩
  · rw [hcontenders]
    refine lookup_routable_foldl ?_ e'
    intro q hq e₁ y hy
    rcases List.mem_map.mp hq with ⟨c, hc, rfl⟩
    rcases hpending c hc with ⟨z, hz⟩
    exact hapart c.pipe z e₁ y hz hy
  · rw [hcontenders, List.map_cons, List.foldl_cons, lookup_routable_foldl]
    · exact lookup_routable_evictContender (h x hx hp)
    · intro q hq e₁ y hy
      rcases List.mem_map.mp hq with ⟨c, hc, rfl⟩
      rcases hpending c hc with ⟨z, hz⟩
      exact hapart c.pipe z e₁ y hz ((Evicts.evictContender x.pipe r).of_routable hy)

/-- The table after an accepted promotion. -/
theorem promote_accepted {now : ℕ} {p : StableConnId} {self e : EndpointId}
    {ps : List StableConnId} (h : r.promote now p self e = (r', .accepted ps)) :
    ∃ x, r' = ({ ((r.contenders p self e).map Contender.pipe).foldl evictContender r with
      routable := ((((r.contenders p self e).map Contender.pipe).foldl evictContender
        r).routable.erase e).insert e x
      pending := (((r.contenders p self e).map Contender.pipe).foldl evictContender
        r).pending.erase p } : Routing).wakeEndpointWaiters e := by
  unfold promote at h
  split at h
  · cases h
  · dsimp only at h
    split at h
    · cases h
    · cases h
      exact ⟨_, rfl⟩
    · cases h
      exact ⟨_, rfl⟩

/-- An accepted promotion wakes its own endpoint only: what it takes from others must not be
what they wait on. -/
theorem tells_promote (hkeys : r.PendingKeys) (hapart : r.Apart) (now : ℕ) (p : StableConnId)
    (self e : EndpointId)
    (hW : r.accepts p self e = true → ∀ e', W e' → e' ≠ e → r.answer e' ≠ some (.pending p) ∧
      ∀ x, r.routable.lookup e = some x → x.pipe ≠ p → r.routableEndpoint x.pipe ≠ some e') :
    Tells W r (r.promote now p self e).1 := by
  rcases promote_cases now p self e r with ⟨hr, -⟩ | ⟨r', ps, hr, hpromotes⟩
  · rw [hr]
    exact ⟨[], .of_eq rfl rfl, fun _ _ _ => rfl⟩
  · have hwoken : Wakes [e] r r' := by
      refine ⟨?_, ?_⟩
      · intro e' he
        have hwakers : r'.endpointWakers = (r.wakeEndpointWaiters e).endpointWakers :=
          (congrArg Routing.endpointWakers hpromotes.rest :)
        unfold wakersOf
        rw [hwakers]
        exact (Wakes.wakeEndpointWaiters e r).parked e' he
      · have hlist : r'.woken = (r.wakeEndpointWaiters e).woken :=
          (congrArg Routing.woken hpromotes.rest :)
        rw [hlist]
        exact (Wakes.wakeEndpointWaiters e r).woken
    rw [hr]
    refine ⟨[e], hwoken, ?_⟩
    intro e' he' hnot
    have hne : e' ≠ e := by simpa using hnot
    rcases hW (accepts_of_promotes hpromotes) e' he' hne with ⟨hpending, hfound⟩
    rcases promote_accepted hr with ⟨x, hr'⟩
    have hroutable : r'.routable.lookup e' = r.routable.lookup e' := by
      rw [hr']
      change ((AList.erase e _ : Map EndpointId Routable).insert e x).lookup e' = _
      rw [Map.lookup_insert_ite, if_neg hne, Map.lookup_erase_ite, if_neg hne]
      exact lookup_routable_contenders hapart hfound
    have hsub : r'.pending.entries.Sublist r.pending.entries := by
      rw [hr']
      exact (List.kerase_sublist p _).trans (foldl_evictContender_sublist _ r)
    refine answer_congr (routablePipeFor_congr hroutable) ?_ ?_ ?_
    · intro hnone
      refine pendingPipeFor_sublist hkeys hsub ?_
      intro q hq
      have hanswer : r.answer e' = some (.pending q) := by
        simp only [answer, hnone, hq]
      have hqp : q ≠ p := by
        rintro rfl
        exact hpending hanswer
      have hkept : ¬ (q = p ∨ q ∈ ps) := by
        rintro (hq' | hmem)
        · exact hqp hq'
        · -- a contender targets the promoted endpoint, and no pipe is in both pools
          rcases pendingPipeFor_eq_some hkeys hq with ⟨y, hy, htarget⟩
          rcases (hpromotes.evicted q).mp hmem with ⟨-, ⟨z, hz, hzq⟩ | ⟨z, -, hz, hztarget, -⟩⟩
          · exact hapart q y e z hy hz hzq
          · rw [hy] at hz
            obtain rfl := Option.some.inj hz
            rw [htarget] at hztarget
            exact hne (Option.some.inj hztarget)
      rw [hpromotes.pending, if_neg hkept]
    · intro _ _
      exact congrArg (AList.lookup (prefixFromEndpoint e'))
        (congrArg Routing.reservations hpromotes.rest :)
    · intro _ _ _
      exact congrArg (fun m => (AList.lookup (prefixFromEndpoint e') m).isSome)
        (congrArg Routing.scanHint hpromotes.rest :)

end Evictions

/-! ## Opening a pipe -/

/-- The reservation that opening a pipe uses up. -/
def reservationOf (device : DeviceId) (target : Option EndpointId) (r : Routing) :
    Option Reservation :=
  (target.bind fun e => (r.consumeReservationForEndpoint e).2).or
    (r.consumeReservationForDevice device).2

section Opening

variable {W : EndpointId → Prop} {r : Routing}

/-- A pipe was opened under a new id, or under the reserved one. -/
def OpensAs (now : ℕ) (device : DeviceId) (role : ConnectRole) (reservation : Option Reservation)
    (r r' : Routing) : Prop :=
  r' = (r.registerPipe now device (directionForRole role)).1.registerPending now ⟨r.nextId + 1⟩
      none ∨
    ∃ k x, r.reservations.lookup k = some x ∧ reservation = some x ∧
      r' = (({ r with
          reservations := r.reservations.erase k
          reservedStableIds := r.reservedStableIds.erase x.stableId
          pipeTombstones := r.pipeTombstones.erase x.stableId } : Routing).registerPipeWithId
        now x.stableId device (directionForRole role)).registerPending now x.stableId
          (some x.endpointId)

/-- A pipe without a target is opened under the reservation of its device. -/
theorem opensAs_device (now : ℕ) (device : DeviceId) (role : ConnectRole) (r : Routing) :
    OpensAs now device role (r.consumeReservationForDevice device).2 r
      (r.openPipe now device role none).1 := by
  unfold openPipe
  rcases consumed_forDevice device r with hd | ⟨k, x, hx, hd⟩
  · refine Or.inl ?_
    simp only [hd]
    rfl
  · refine Or.inr ⟨k, x, hx, ?_, ?_⟩
    · rw [hd]
    · simp only [hd]

/-- Any pipe is opened under the reservation that was found for it. -/
theorem opensAs_reservationOf (now : ℕ) (device : DeviceId) (role : ConnectRole)
    (target : Option EndpointId) (r : Routing) :
    OpensAs now device role (r.reservationOf device target) r
      (r.openPipe now device role target).1 := by
  cases target with
  | none => exact opensAs_device now device role r
  | some e =>
      rcases consumed_forPrefix (prefixFromEndpoint e) r with he | ⟨k, x, hx, he⟩
      · -- nothing is reserved for the target: as without one
        have hof : r.reservationOf device (some e) = (r.consumeReservationForDevice device).2 := by
          simp only [reservationOf, Option.bind_some, consumeReservationForEndpoint, he,
            Option.none_or]
        have hopen : r.openPipe now device role (some e) = r.openPipe now device role none := by
          simp only [openPipe, consumeReservationForEndpoint, he]
        rw [hof, hopen]
        exact opensAs_device now device role r
      · refine Or.inr ⟨k, x, hx, ?_, ?_⟩
        · simp only [reservationOf, Option.bind_some, consumeReservationForEndpoint, he,
            Option.some_or]
        · simp only [openPipe, consumeReservationForEndpoint, he]

/-- Opening a pipe wakes the endpoint that the reservation was made for, and no other one of its
prefix. -/
theorem tells_openPipe (now : ℕ) (device : DeviceId) (role : ConnectRole)
    (target : Option EndpointId)
    (hfresh : r.pending.lookup ⟨r.nextId + 1⟩ = none)
    (hreserved : ∀ k x, r.reservations.lookup k = some x → r.pending.lookup x.stableId = none)
    (hW : ∀ x, r.reservationOf device target = some x → ∀ e, W e →
      r.answer e = some (.reservation x.stableId) → e = x.endpointId) :
    Tells W r (r.openPipe now device role target).1 := by
  rcases opensAs_reservationOf now device role target r with hr | ⟨k, x, hx, hof, hr⟩
  · rw [hr]
    refine ⟨[], .of_eq rfl rfl, ?_⟩
    intro e _ _
    refine answer_congr rfl ?_ (fun _ _ => rfl) (fun _ _ _ => rfl)
    intro _
    exact pendingPipeFor_insert hfresh (by simp) rfl
  · rw [hr]
    refine ⟨[x.endpointId], ?_, ?_⟩
    · refine Wakes.after _ ?_ ?_ (Wakes.wakeFor (some x.endpointId) _)
      · rfl
      · rfl
    · intro e he hnot
      have hne : e ≠ x.endpointId := by simpa using hnot
      refine answer_congr rfl ?_ ?_ (fun _ _ _ => rfl)
      · intro _
        refine pendingPipeFor_insert (hreserved k x hx) ?_ rfl
        intro htarget
        exact hne (Option.some.inj htarget).symm
      · intro hnone hp
        change (r.reservations.erase k).lookup (prefixFromEndpoint e) = r.reservations.lookup _
        rw [Map.lookup_erase_ite]
        split
        · -- the endpoint waits on the reservation that is used up
          rename_i hk
          have hres : r.reservationForPrefix (prefixFromEndpoint e) = some x := by
            unfold reservationForPrefix
            rw [hk]
            exact hx
          exact absurd (hW x hof e he (answer_of_reservation hnone hp hres)) hne
        · rfl

end Opening

end Routing

end IrohBle
