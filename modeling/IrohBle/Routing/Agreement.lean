import IrohBle.Routing.Router

/-! # Routing.Agreement: which pipe two nodes keep

Two nodes may have any number of pipes between them, and each runs `promote` once for each of
them, in the order in which the handshakes complete on its side. Whether a pipe was dialled from
the higher id is the same on both sides; the order is not.

* `survivor`: the last pipe dialled from the higher id in the order of a side, and the last of
  all where there is none.
* `promoteAll_survivor`: it is the pipe that a side ends up with.
* `agree_iff`: so the sides agree exactly if it is the same one in both orders, and
  `redial_disagrees` is a case in which it is not.
-/

namespace IrohBle

open Lib

section Survivor

variable {κ : Type}

/-- The last pipe that was dialled from the higher id, or else the last one. -/
def survivor (high : κ → Bool) (order : List κ) : Option κ :=
  (order.filter high).getLast?.or order.getLast?

theorem filter_append_high {high : κ → Bool} {order : List κ} {k : κ} (hk : high k = true) :
    (order ++ [k]).filter high = order.filter high ++ [k] := by
  rw [List.filter_append, List.filter_cons_of_pos hk, List.filter_nil]

theorem filter_append_low {high : κ → Bool} {order : List κ} {k : κ} (hk : high k = false) :
    (order ++ [k]).filter high = order.filter high := by
  rw [List.filter_append, List.filter_cons_of_neg (by simp [hk]), List.filter_nil,
    List.append_nil]

/-- What survives has been promoted. -/
theorem survivor_mem {high : κ → Bool} {order : List κ} {k : κ} (h : survivor high order = some k) :
    k ∈ order := by
  unfold survivor at h
  rcases Option.or_eq_some_iff.mp h with hlast | ⟨-, hlast⟩
  · exact List.mem_of_mem_filter (List.mem_of_getLast? hlast)
  · exact List.mem_of_getLast? hlast

/-- Where there is a pipe dialled from the higher id, such a pipe survives. -/
theorem survivor_high {high : κ → Bool} {order : List κ} {k k' : κ}
    (h : survivor high order = some k) (hmem : k' ∈ order) (hhigh : high k' = true) :
    high k = true := by
  unfold survivor at h
  rcases Option.or_eq_some_iff.mp h with hlast | ⟨hnone, -⟩
  · exact (List.mem_filter.mp (List.mem_of_getLast? hlast)).2
  · have hempty := List.getLast?_eq_none_iff.mp hnone
    have hin : k' ∈ order.filter high := List.mem_filter.mpr ⟨hmem, hhigh⟩
    rw [hempty] at hin
    cases hin

/-- Something survives where anything has been promoted. -/
theorem survivor_isSome (high : κ → Bool) {order : List κ} (h : order ≠ []) :
    ∃ k, survivor high order = some k := by
  unfold survivor
  cases hlast : (order.filter high).getLast? with
  | some k => exact ⟨k, rfl⟩
  | none => exact ⟨order.getLast h, List.getLast?_eq_some_getLast h⟩

end Survivor

namespace Routing

variable {κ : Type}

/-- The table of one side before any promotion: every pipe is registered under an id of its own,
and nothing else contends for the remote endpoint. -/
structure Registered (r : Routing) (remote : EndpointId) (ks : List κ) (id : κ → StableConnId)
    (outbound : κ → Bool) : Prop where
  injective : ∀ k ∈ ks, ∀ k' ∈ ks, id k = id k' → k = k'
  pipe : ∀ k ∈ ks, ∃ y, r.pipes.lookup (id k) = some y ∧
    y.direction = if outbound k then .outbound else .inbound
  pending : ∀ q x y, r.pending.lookup q = some x → x.targetEndpoint = some remote →
    r.pipes.lookup q = some y → ∃ k ∈ ks, q = id k
  fresh : r.routable.lookup remote = none

/-- `promote` for each pipe in order, at the times given. -/
def promoteAll (me remote : EndpointId) (id : κ → StableConnId) (order : List (ℕ × κ))
    (r : Routing) : Routing :=
  order.foldl (fun r x => (r.promote x.1 (id x.2) me remote).1) r

/-- The dialler of a pipe has the higher id, from the viewpoint of the side that sees it as
outbound or not. -/
def highDialled (me remote : EndpointId) (outbound : κ → Bool) (k : κ) : Bool :=
  Dialer.compute me remote (if outbound k then .outbound else .inbound) == .high

/-- One side after the pipes `done` have been promoted. -/
structure Converges (me remote : EndpointId) (ks : List κ) (id : κ → StableConnId)
    (outbound : κ → Bool) (r₀ : Routing) (done : List κ) (r : Routing) : Prop where
  pipes : r.pipes = r₀.pipes
  pending : ∀ q x, r.pending.lookup q = some x → r₀.pending.lookup q = some x
  /-- Once a pipe dialled from the higher id was promoted, the last such pipe is routable. -/
  high : ∀ k, (done.filter (highDialled me remote outbound)).getLast? = some k →
    ∃ x, r.routable.lookup remote = some x ∧ x.pipe = id k ∧ x.dialer = .high
  /-- Before, only pipes dialled from the lower id can be. -/
  low : done.filter (highDialled me remote outbound) = [] →
    ∀ x, r.routable.lookup remote = some x → x.dialer = .low
  /-- Where there are no others, the last one is. -/
  only : (∀ k ∈ ks, highDialled me remote outbound k = false) →
    r.routablePipeFor remote = done.getLast?.map id

section Side

variable {me remote : EndpointId} {ks : List κ} {id : κ → StableConnId} {outbound : κ → Bool}
  {r₀ r : Routing} {done : List κ} {k : κ} {now : ℕ}

/-- A side reads off its pipe which node has dialled it. -/
theorem compute_of_registered (me : EndpointId) (hreg : Registered r₀ remote ks id outbound) (hk : k ∈ ks)
    {y : Pipe} (hy : r₀.pipes.lookup (id k) = some y) :
    Dialer.compute me remote y.direction = .high ↔
      highDialled me remote outbound k = true := by
  rcases hreg.pipe k hk with ⟨y', hy', hdir⟩
  rw [hy] at hy'
  obtain rfl := Option.some.inj hy'
  unfold highDialled
  rw [hdir, beq_iff_eq]

/-- There are two ways to have dialled. -/
theorem compute_eq_low {d : Dialer} (h : ¬ d = .high) : d = .low := by
  cases d with
  | low => rfl
  | high => exact absurd rfl h

/-- A pipe dialled from the higher id is promoted whatever it contends with. -/
theorem Converges.promote_high (hreg : Registered r₀ remote ks id outbound) (hk : k ∈ ks)
    (hhigh : highDialled me remote outbound k = true)
    (h : Converges me remote ks id outbound r₀ done r) :
    Converges me remote ks id outbound r₀ (done ++ [k])
      (r.promote now (id k) me remote).1 := by
  rcases hreg.pipe k hk with ⟨y, hy, -⟩
  have hcompute := (compute_of_registered me hreg hk hy).mpr hhigh
  rw [← h.pipes] at hy
  rcases promote_cases now (id k) me remote r with ⟨-, hreason⟩ | ⟨r', ps, hacc, hpromotes⟩
  · -- refused only if it came from the lower id
    have hlow := (hreason y hy).1
    rw [hcompute] at hlow
    cases hlow
  · -- accepted: the endpoint is bound to it
    rw [hacc]
    rcases hpromotes.bound with ⟨y', hy', hbound, -⟩
    rw [hy] at hy'
    obtain rfl := Option.some.inj hy'
    rw [hcompute] at hbound
    refine ⟨hpromotes.pipes.trans h.pipes, ?_, ?_, ?_, ?_⟩
    · intro q x hx
      change r'.pending.lookup q = some x at hx
      rw [hpromotes.pending] at hx
      split at hx
      · cases hx
      · exact h.pending q x hx
    · intro k' hlast
      rw [filter_append_high hhigh, List.getLast?_concat] at hlast
      obtain rfl := Option.some.inj hlast
      exact ⟨_, hbound, rfl, rfl⟩
    · intro hnil
      rw [filter_append_high hhigh] at hnil
      simp at hnil
    · intro hall
      rw [hall k hk] at hhigh
      cases hhigh

/-- A pipe dialled from the lower id is promoted only while none from the higher is routable
or pending. -/
theorem Converges.promote_low (hreg : Registered r₀ remote ks id outbound) (hdone : ∀ k ∈ done, k ∈ ks)
    (hk : k ∈ ks) (hlow : highDialled me remote outbound k = false)
    (h : Converges me remote ks id outbound r₀ done r) :
    Converges me remote ks id outbound r₀ (done ++ [k])
      (r.promote now (id k) me remote).1 := by
  rcases hreg.pipe k hk with ⟨y, hy, -⟩
  have hcompute : Dialer.compute me remote y.direction = .low := by
    refine compute_eq_low ?_
    intro hhigh
    rw [(compute_of_registered me hreg hk hy).mp hhigh] at hlow
    cases hlow
  rw [← h.pipes] at hy
  rcases promote_cases now (id k) me remote r with ⟨hrej, hreason⟩ | ⟨r', ps, hacc, hpromotes⟩
  · -- rejected: there is a contender from the higher id, so not all are from the lower
    rw [hrej]
    refine ⟨h.pipes, h.pending, ?_, ?_, ?_⟩
    · intro k' hlast
      rw [filter_append_low hlow] at hlast
      exact h.high k' hlast
    · intro hnil
      rw [filter_append_low hlow] at hnil
      exact h.low hnil
    · intro hall
      rcases hreason y hy with ⟨-, c, hc, hcd⟩
      -- the contender is the routable pipe, which would have been promoted, or a pending one of
      -- the pair
      rcases mem_contenders_iff.mp hc with ⟨x, hx, -, rfl⟩ | ⟨q, x, z, -, hx, ht, hz, rfl⟩
      · have hnil : done.filter (highDialled me remote outbound) = [] := by
          refine List.filter_eq_nil_iff.mpr ?_
          intro k' hk'
          simp [hall k' (hdone k' hk')]
        have hwrong := h.low hnil x hx
        dsimp only at hcd
        rw [hcd] at hwrong
        cases hwrong
      · rw [h.pipes] at hz
        rcases hreg.pending q x z (h.pending q x hx) ht hz with ⟨k', hk', rfl⟩
        have hwrong := (compute_of_registered me hreg hk' hz).mp hcd
        rw [hall k' hk'] at hwrong
        cases hwrong
  · -- accepted: the endpoint is bound to it, and everything that contended is gone
    rw [hacc]
    rcases hpromotes.bound with ⟨y', hy', hbound, hnoHigh⟩
    rw [hy] at hy'
    obtain rfl := Option.some.inj hy'
    rw [hcompute] at hbound
    refine ⟨hpromotes.pipes.trans h.pipes, ?_, ?_, ?_, ?_⟩
    · intro q x hx
      change r'.pending.lookup q = some x at hx
      rw [hpromotes.pending] at hx
      split at hx
      · cases hx
      · exact h.pending q x hx
    · -- accepted over a routable pipe from the higher id: it cannot be
      intro k' hlast
      rw [filter_append_low hlow] at hlast
      rcases h.high k' hlast with ⟨x, hx, hpipe, hdialer⟩
      have hk' := List.mem_filter.mp (List.mem_of_getLast? hlast)
      have hne : x.pipe ≠ id k := by
        intro heq
        have hsame := hreg.injective k' (hdone k' hk'.1) k hk (hpipe.symm.trans heq)
        rw [hsame, hlow] at hk'
        cases hk'.2
      have hcontender : (⟨x.pipe, x.dialer⟩ : Contender) ∈ r.contenders (id k) me remote :=
        mem_contenders_iff.mpr (Or.inl ⟨x, hx, hne, rfl⟩)
      have hwrong := hnoHigh hcompute _ hcontender
      rw [hdialer] at hwrong
      cases hwrong
    · intro _ x hx
      change r'.routable.lookup remote = some x at hx
      rw [hbound] at hx
      obtain rfl := Option.some.inj hx
      rfl
    · intro _
      unfold routablePipeFor
      rw [List.getLast?_concat]
      change (r'.routable.lookup remote).map _ = _
      rw [hbound]
      rfl

/-- What is routable after a list of promotions is what should survive it. -/
theorem converges_promoteAll (hreg : Registered r₀ remote ks id outbound) {order : List (ℕ × κ)}
    (hdone : ∀ k ∈ done, k ∈ ks) (horder : ∀ x ∈ order, x.2 ∈ ks)
    (h : Converges me remote ks id outbound r₀ done r) :
    Converges me remote ks id outbound r₀ (done ++ order.map Prod.snd)
      (r.promoteAll me remote id order) := by
  induction order generalizing done r with
  | nil =>
      rw [List.map_nil, List.append_nil]
      exact h
  | cons x order ih =>
      have hx : x.2 ∈ ks := horder x List.mem_cons_self
      have hnext : Converges me remote ks id outbound r₀ (done ++ [x.2])
          (r.promote x.1 (id x.2) me remote).1 := by
        cases hhigh : highDialled me remote outbound x.2 with
        | true => exact h.promote_high hreg hx hhigh
        | false => exact h.promote_low hreg hdone hx hhigh
      have hdone' : ∀ k ∈ done ++ [x.2], k ∈ ks := by
        intro k hk
        rcases List.mem_append.mp hk with hk | hk
        · exact hdone k hk
        · rw [List.mem_singleton.mp hk]
          exact hx
      have hrest := ih hdone' (fun y hy => horder y (List.mem_cons_of_mem x hy)) hnext
      rw [List.append_assoc] at hrest
      exact hrest

/-- One side ends up with the survivor of its own order. -/
theorem promoteAll_survivor (me : EndpointId) (hreg : Registered r₀ remote ks id outbound)
    {order : List (ℕ × κ)} (horder : (order.map Prod.snd).Perm ks) :
    (r₀.promoteAll me remote id order).routablePipeFor remote =
      (survivor (highDialled me remote outbound) (order.map Prod.snd)).map id := by
  have hmem : ∀ k, k ∈ order.map Prod.snd ↔ k ∈ ks := fun k => horder.mem_iff
  -- nothing has been promoted at the start
  have hstart : Converges me remote ks id outbound r₀ [] r₀ := by
    refine ⟨rfl, fun q x hx => hx, ?_, ?_, ?_⟩
    · intro k hk
      cases hk
    · intro _ x hx
      rw [hreg.fresh] at hx
      cases hx
    · intro _
      unfold routablePipeFor
      rw [hreg.fresh]
      rfl
  -- and everything has at the end
  have hend : Converges me remote ks id outbound r₀ (order.map Prod.snd)
      (r₀.promoteAll me remote id order) := by
    refine converges_promoteAll hreg ?_ ?_ hstart
    · intro k hk
      cases hk
    · intro x hx
      exact (hmem x.2).mp (List.mem_map_of_mem hx)
  unfold survivor
  cases hlast : ((order.map Prod.snd).filter (highDialled me remote outbound)).getLast? with
  | some k =>
      rcases hend.high k hlast with ⟨x, hx, hpipe, -⟩
      unfold routablePipeFor
      rw [hx, Option.map_some, hpipe]
      rfl
  | none =>
      have hnil := List.getLast?_eq_none_iff.mp hlast
      rw [Option.none_or]
      refine hend.only ?_
      intro k hk
      have hnot := List.filter_eq_nil_iff.mp hnil k ((hmem k).mpr hk)
      exact Bool.eq_false_of_not_eq_true hnot

end Side

/-! ## Both sides -/

/-- The node that dialled the pipe has the higher endpoint id; `byA` says which pipes `a`
dialled. -/
def dialledByHigher (a b : EndpointId) (byA : κ → Bool) (k : κ) : Bool :=
  if byA k then decide (b.bytes < a.bytes) else decide (a.bytes < b.bytes)

/-- Both sides of a pair work out who dialled a pipe. -/
theorem highDialled_eq {a b : EndpointId} (hne : a ≠ b) (byA : κ → Bool) (k : κ) :
    highDialled a b byA k = dialledByHigher a b byA k ∧
      highDialled b a (fun k => !byA k) k = dialledByHigher a b byA k := by
  have hbytes : a.bytes ≠ b.bytes := by
    intro heq
    cases a
    cases b
    cases heq
    exact hne rfl
  unfold highDialled dialledByHigher Dialer.compute
  by_cases hlt : a.bytes < b.bytes
  · have hnot : ¬ b.bytes < a.bytes := List.lt_asymm hlt
    cases hk : byA k <;> simp [hlt, hnot, hk]
  · have hgt : b.bytes < a.bytes := Std.lt_of_le_of_ne hlt hbytes.symm
    cases hk : byA k <;> simp [hlt, hgt, hk]

/-- The routable entries of both sides for each other name the same pipe, one that was dialled
from the higher id if any was. -/
structure Agree (a b : EndpointId) (ks : List κ) (byA : κ → Bool) (idA idB : κ → StableConnId)
    (rA rB : Routing) : Prop where
  same : ∀ k ∈ ks, rA.routablePipeFor b = some (idA k) ↔ rB.routablePipeFor a = some (idB k)
  named : ks ≠ [] → ∃ k ∈ ks, rA.routablePipeFor b = some (idA k)
  high : ∀ k ∈ ks, rA.routablePipeFor b = some (idA k) →
    (∃ k' ∈ ks, dialledByHigher a b byA k' = true) → dialledByHigher a b byA k = true

/-- What a side answers names exactly the survivor. -/
theorem names_iff {ks order : List κ} {id : κ → StableConnId} {high : κ → Bool}
    (hinj : ∀ k ∈ ks, ∀ k' ∈ ks, id k = id k' → k = k') (horder : order.Perm ks) {k : κ}
    (hk : k ∈ ks) : (survivor high order).map id = some (id k) ↔ survivor high order = some k := by
  constructor
  · intro h
    rcases Option.map_eq_some_iff.mp h with ⟨k', hk', heq⟩
    have hmem : k' ∈ ks := horder.mem_iff.mp (survivor_mem hk')
    rw [hk', hinj k' hmem k hk heq]
  · intro h
    rw [h, Option.map_some]

/-- Two nodes that each promote every pipe between them once agree on the one they keep exactly
if the survivor is the same one in both orders. -/
theorem agree_iff {a b : EndpointId} (hne : a ≠ b) {ks : List κ} {byA : κ → Bool}
    {idA idB : κ → StableConnId} {rA rB : Routing} (hA : Registered rA b ks idA byA)
    (hB : Registered rB a ks idB fun k => !byA k) {orderA orderB : List (ℕ × κ)}
    (horderA : (orderA.map Prod.snd).Perm ks) (horderB : (orderB.map Prod.snd).Perm ks) :
    Agree a b ks byA idA idB (rA.promoteAll a b idA orderA) (rB.promoteAll b a idB orderB) ↔
      survivor (dialledByHigher a b byA) (orderA.map Prod.snd) =
        survivor (dialledByHigher a b byA) (orderB.map Prod.snd) := by
  have hhighA : highDialled a b byA = dialledByHigher a b byA :=
    funext fun k => (highDialled_eq hne byA k).1
  have hhighB : highDialled b a (fun k => !byA k) = dialledByHigher a b byA :=
    funext fun k => (highDialled_eq hne byA k).2
  have hanswerA := promoteAll_survivor a hA horderA
  have hanswerB := promoteAll_survivor b hB horderB
  rw [hhighA] at hanswerA
  rw [hhighB] at hanswerB
  have hnamesA : ∀ k ∈ ks, (rA.promoteAll a b idA orderA).routablePipeFor b = some (idA k) ↔
      survivor (dialledByHigher a b byA) (orderA.map Prod.snd) = some k := by
    intro k hk
    rw [hanswerA]
    exact names_iff hA.injective horderA hk
  have hnamesB : ∀ k ∈ ks, (rB.promoteAll b a idB orderB).routablePipeFor a = some (idB k) ↔
      survivor (dialledByHigher a b byA) (orderB.map Prod.snd) = some k := by
    intro k hk
    rw [hanswerB]
    exact names_iff hB.injective horderB hk
  constructor
  · intro hagree
    by_cases hks : ks = []
    · -- no pipes, no survivors
      subst hks
      rw [horderA.eq_nil, horderB.eq_nil]
    · rcases hagree.named hks with ⟨k, hk, hA'⟩
      rw [(hnamesA k hk).mp hA', (hnamesB k hk).mp ((hagree.same k hk).mp hA')]
  · intro heq
    refine ⟨?_, ?_, ?_⟩
    · intro k hk
      rw [hnamesA k hk, hnamesB k hk, heq]
    · intro hks
      have horder : orderA.map Prod.snd ≠ [] := by
        intro hnil
        rw [hnil] at horderA
        exact hks horderA.symm.eq_nil
      rcases survivor_isSome (dialledByHigher a b byA) horder with ⟨k, hk⟩
      have hmem : k ∈ ks := horderA.mem_iff.mp (survivor_mem hk)
      exact ⟨k, hmem, (hnamesA k hmem).mpr hk⟩
    · rintro k hk hnames ⟨k', hk', hhigh⟩
      exact survivor_high ((hnamesA k hk).mp hnames) (horderA.mem_iff.mpr hk') hhigh

/-! ## Two pipes -/

/-- `Registered`, for a table that is given. -/
theorem registered_of {r : Routing} {remote : EndpointId} {ks : List κ} {id : κ → StableConnId}
    {outbound : κ → Bool} (hinj : ∀ k ∈ ks, ∀ k' ∈ ks, id k = id k' → k = k')
    (hpipe : ∀ k ∈ ks, (r.pipes.lookup (id k)).map Pipe.direction =
      some (if outbound k then .outbound else .inbound))
    (hpending : ∀ x ∈ r.pending.entries, x.2.targetEndpoint = some remote → ∃ k ∈ ks, x.1 = id k)
    (hfresh : r.routable.lookup remote = none) : Registered r remote ks id outbound := by
  refine ⟨hinj, ?_, ?_, hfresh⟩
  · intro k hk
    rcases Option.map_eq_some_iff.mp (hpipe k hk) with ⟨y, hy, hdir⟩
    exact ⟨y, hy, hdir⟩
  · intro q x _ hx ht _
    exact hpending ⟨q, x⟩ ((Map.mem_entries_iff _ _ _).mpr hx) ht

/-- Pipes `0` and `1` are the first and the second that a side opens. -/
def nth (k : ℕ) : StableConnId := ⟨k + 1⟩

/-- The pipe that a side dials is opened for an id that the resolver has reserved. -/
def openFor (remote : EndpointId) (device : DeviceId) (role : ConnectRole) (r : Routing) :
    Routing :=
  match role with
  | .central =>
    let hinted := (r.noteScanHint (prefixFromEndpoint remote) device).1
    ((hinted.reserveOutbound 0 remote).1.openPipe 0 device role (some remote)).1
  | .peripheral => (r.openPipe 0 device role none).1

/-- Two pipes to one remote endpoint. -/
def twoPipes (remote : EndpointId) (first second : ConnectRole) : Routing :=
  (({} : Routing).openFor remote "first" first).openFor remote "second" second

/-- Both nodes dial each other at once, and the handshakes complete in opposite orders: both
keep the pipe that the higher id dialled. -/
theorem agree_iff_bothDial :
    Agree localEndpoint peerEndpoint [0, 1] (fun k => k == 0) nth nth
      ((twoPipes peerEndpoint .central .peripheral).promoteAll localEndpoint peerEndpoint nth
        [(1, 0), (2, 1)])
      ((twoPipes localEndpoint .peripheral .central).promoteAll peerEndpoint localEndpoint nth
        [(1, 1), (2, 0)]) := by
  have hA : Registered (twoPipes peerEndpoint .central .peripheral) peerEndpoint [0, 1] nth
      (fun k => k == 0) := by
    refine registered_of ?_ ?_ ?_ ?_ <;> decide +kernel
  have hB : Registered (twoPipes localEndpoint .peripheral .central) localEndpoint [0, 1] nth
      (fun k => !(k == 0)) := by
    refine registered_of ?_ ?_ ?_ ?_ <;> decide +kernel
  refine (agree_iff (by decide +kernel) hA hB ?_ ?_).mpr ?_
  · exact List.Perm.refl _
  · exact List.Perm.swap 0 1 []
  · decide +kernel

/-- The peer, who has the higher id, dials twice, and the handshakes complete in opposite
orders. -/
theorem redial_disagrees :
    Registered (twoPipes peerEndpoint .peripheral .peripheral) peerEndpoint [0, 1] nth
      (fun _ => false) ∧
    Registered (twoPipes localEndpoint .central .central) localEndpoint [0, 1] nth
      (fun _ => true) ∧
    ¬ Agree localEndpoint peerEndpoint [0, 1] (fun _ => false) nth nth
      ((twoPipes peerEndpoint .peripheral .peripheral).promoteAll localEndpoint peerEndpoint nth
        [(1, 0), (2, 1)])
      ((twoPipes localEndpoint .central .central).promoteAll peerEndpoint localEndpoint nth
        [(1, 1), (2, 0)]) := by
  refine ⟨?_, ?_, ?_⟩
  · refine registered_of ?_ ?_ ?_ ?_ <;> decide +kernel
  · refine registered_of ?_ ?_ ?_ ?_ <;> decide +kernel
  · intro hagree
    have hsame := (hagree.same 1 (by decide)).mp (by decide +kernel)
    revert hsame
    decide +kernel

end Routing

end IrohBle
