import IrohBle.Routing.Router

/-! # Routing.Discipline: what a stable id can stand for

iroh keeps using an id after its pipe is gone, so an id that was given out twice would send one
peer's packets to another. Ids come from two places, `register_pipe` and `reserve_outbound`, and
a reserved id is handed over to the pipe that is opened for it.

* `mintedIds`, `boundIds`: the ids that the steps of a run mint, and bind to a pipe.
* `Disciplined`: the invariant. The id of a consumed reservation is in the driver's hand until
  the pipe is registered, and is neither reserved nor bound in the meantime.
* `id_discipline`: the ids of every run.
-/

namespace IrohBle

open Lib

namespace Router

/-- The ids minted along a run, in order. -/
def mintedIds (h : List (Router × RouterLabel)) : List StableConnId := h.filterMap minted

/-- The ids bound to a pipe along a run, in order. -/
def boundIds (h : List (Router × RouterLabel)) : List StableConnId := h.filterMap binds

/-- The last step mints last. -/
theorem mintedIds_append (h : List (Router × RouterLabel)) (x : Router × RouterLabel) :
    mintedIds (h ++ [x]) = mintedIds h ++ (minted x).toList := by
  unfold mintedIds
  rw [List.filterMap_append]
  cases hx : minted x <;> simp [hx]

/-- The last step binds last. -/
theorem boundIds_append (h : List (Router × RouterLabel)) (x : Router × RouterLabel) :
    boundIds (h ++ [x]) = boundIds h ++ (binds x).toList := by
  unfold boundIds
  rw [List.filterMap_append]
  cases hx : binds x <;> simp [hx]

end Router

namespace Routing

/-- `reservations` and `reserved_stable_ids` are inverse to each other. -/
def Inverse (r : Routing) : Prop :=
  ∀ k id, (∃ x, r.reservations.lookup k = some x ∧ x.stableId = id) ↔
    r.reservedStableIds.lookup id = some k

variable {r r' : Routing}

/-- Both tables lose the same reservation. -/
theorem Inverse.consume (h : r.Inverse) {k : KeyPrefix} {x : Reservation}
    (hx : r.reservations.lookup k = some x) (hres : r'.reservations = r.reservations.erase k)
    (hids : r'.reservedStableIds = r.reservedStableIds.erase x.stableId) : r'.Inverse := by
  have hk : r.reservedStableIds.lookup x.stableId = some k := (h k x.stableId).mp ⟨x, hx, rfl⟩
  intro k' id
  rw [hres, hids, Map.lookup_erase_ite, Map.lookup_erase_ite]
  by_cases hid : id = x.stableId
  · -- the id was that of `k`, and `k` has no reservation any more
    rw [if_pos hid]
    constructor
    · rintro ⟨y, hy, heq⟩
      split at hy
      · cases hy
      · rename_i hne
        have hk' := (h k' id).mp ⟨y, hy, heq⟩
        rw [hid, hk] at hk'
        exact absurd (Option.some.inj hk').symm hne
    · intro hnone
      cases hnone
  · rw [if_neg hid]
    by_cases hkk : k' = k
    · subst hkk
      rw [if_pos rfl]
      constructor
      · rintro ⟨y, hy, -⟩
        cases hy
      · intro hlook
        rcases (h k' id).mpr hlook with ⟨y, hy, heq⟩
        rw [hx] at hy
        exact absurd (heq.symm.trans (congrArg _ (Option.some.inj hy).symm)) hid
    · rw [if_neg hkk]
      exact h k' id

/-- Both tables gain a reservation under a new id. -/
theorem Inverse.reserve (h : r.Inverse) {k : KeyPrefix} {x : Reservation}
    (hnone : r.reservations.lookup k = none) (hfree : r.reservedStableIds.lookup x.stableId = none)
    (hres : r'.reservations = r.reservations.insert k x)
    (hids : r'.reservedStableIds = r.reservedStableIds.insert x.stableId k) : r'.Inverse := by
  intro k' id
  rw [hres, hids, Map.lookup_insert_ite, Map.lookup_insert_ite]
  -- the new id, and any other one
  by_cases hid : id = x.stableId
  · subst hid
    rw [if_pos rfl]
    by_cases hkk : k' = k
    · subst hkk
      simp
    · rw [if_neg hkk]
      constructor
      · rintro ⟨y, hy, heq⟩
        have hlook := (h k' x.stableId).mp ⟨y, hy, heq⟩
        rw [hfree] at hlook
        cases hlook
      · intro heq
        exact absurd (Option.some.inj heq).symm hkk
  · rw [if_neg hid]
    by_cases hkk : k' = k
    · subst hkk
      rw [if_pos rfl]
      constructor
      · rintro ⟨y, hy, heq⟩
        obtain rfl := Option.some.inj hy
        exact absurd heq.symm hid
      · intro hlook
        rcases (h k' id).mpr hlook with ⟨y, hy, -⟩
        rw [hnone] at hy
        cases hy
    · rw [if_neg hkk]
      exact h k' id

end Routing

namespace Router

open Routing

/-- The ids of a run, and what they stand for at its end. -/
structure Disciplined (h : List (Router × RouterLabel)) (s : Router) : Prop where
  issued : s.routing.Issued (boundIds h)
  inverse : s.routing.Inverse
  hand : ∀ x, s.opening.reservation? = some x → x.stableId.raw ≤ s.routing.nextId ∧
    x.stableId ∉ boundIds h ∧
    ∀ k y, s.routing.reservations.lookup k = some y → y.stableId ≠ x.stableId
  live : ∀ id y, s.routing.pipes.lookup id = some y → id ∈ boundIds h
  range : ∀ id ∈ mintedIds h, 0 < id.raw ∧ id.raw ≤ s.routing.nextId
  increasing : (mintedIds h).Pairwise fun id id' => id.raw < id'.raw

namespace Disciplined

variable {h : List (Router × RouterLabel)} {s s' : Router} {l : RouterLabel}

/-- The step gives out no id. -/
theorem silent (hd : Disciplined h s) (hl : Silent s l) (hids : SameIds s.routing s'.routing)
    (hhand : ∀ x, s'.opening.reservation? = some x → s.opening.reservation? = some x)
    (hpipes : ∀ id y, s'.routing.pipes.lookup id = some y → s.routing.pipes.lookup id = some y) :
    Disciplined (h ++ [(s, l)]) s' := by
  -- nothing is bound or minted, so the lists are the same
  have hbound : boundIds (h ++ [(s, l)]) = boundIds h := by
    rw [boundIds_append, hl.2]
    simp
  have hminted : mintedIds (h ++ [(s, l)]) = mintedIds h := by
    rw [mintedIds_append, hl.1]
    simp
  refine ⟨?_, ?_, ?_, ?_, ?_, ?_⟩
  · rw [hbound]
    have hi := hd.issued
    refine ⟨hi.nodup, ?_, ?_, ?_⟩
    · rw [hids.nextId]
      exact hi.bound
    · rw [hids.nextId, hids.reservations]
      exact hi.reserved
    · rw [hids.reservations]
      exact hi.distinct
  · unfold Inverse
    rw [hids.reservations, hids.reservedStableIds]
    exact hd.inverse
  · intro x hx
    rw [hbound, hids.nextId, hids.reservations]
    exact hd.hand x (hhand x hx)
  · intro id y hy
    rw [hbound]
    exact hd.live id y (hpipes id y hy)
  · rw [hminted, hids.nextId]
    exact hd.range
  · rw [hminted]
    exact hd.increasing

/-- The ids minted so far, with the next one added to them. -/
theorem mint {t : Router} (hd : Disciplined h s) (hl : minted (s, l) = some ⟨s.routing.nextId + 1⟩)
    (hnext : t.routing.nextId = s.routing.nextId + 1) :
    (∀ id ∈ mintedIds (h ++ [(s, l)]), 0 < id.raw ∧ id.raw ≤ t.routing.nextId) ∧
      (mintedIds (h ++ [(s, l)])).Pairwise fun id id' => id.raw < id'.raw := by
  rw [mintedIds_append, hl, Option.toList_some]
  constructor
  · intro id hid
    rcases List.mem_append.mp hid with hid | hid
    · have hold := hd.range id hid
      omega
    · rw [List.mem_singleton.mp hid, hnext]
      exact ⟨Nat.succ_pos _, le_refl _⟩
  · refine List.pairwise_append.mpr ⟨hd.increasing, List.pairwise_singleton _ _, ?_⟩
    intro id hid id' hid'
    have hold := hd.range id hid
    rw [List.mem_singleton.mp hid']
    dsimp only
    omega

/-- A pipe is registered under `id`. -/
theorem bind {t : Router} (hd : Disciplined h s) {id : StableConnId} {pipe : Pipe}
    (hl : binds (s, l) = some id) (hpipes : t.routing.pipes = s.routing.pipes.insert id pipe)
    (hres : t.routing.reservations = s.routing.reservations)
    (hnext : s.routing.nextId ≤ t.routing.nextId) (hid : id.raw ≤ t.routing.nextId)
    (hfresh : id ∉ boundIds h)
    (hfree : ∀ k x, s.routing.reservations.lookup k = some x → x.stableId ≠ id) :
    t.routing.Issued (boundIds (h ++ [(s, l)])) ∧
      ∀ id' y, t.routing.pipes.lookup id' = some y → id' ∈ boundIds (h ++ [(s, l)]) := by
  rw [boundIds_append, hl, Option.toList_some]
  constructor
  · exact hd.issued.bind hres hnext hid hfresh hfree
  · intro id' y hy
    rw [hpipes, Map.lookup_insert_ite] at hy
    split at hy
    · rename_i heq
      rw [heq]
      exact List.mem_append_right _ (List.mem_singleton_self id)
    · exact List.mem_append_left _ (hd.live id' y hy)

theorem step (hd : Disciplined h s) (hs : system.step l s = some s') :
    Disciplined (h ++ [(s, l)]) s' := by
  cases does_of_step hs with
  | idles hsilent hids _ hpipes =>
      refine hd.silent hsilent hids (fun x hx => hx) ?_
      intro id y hy
      rw [← hpipes]
      exact hy
  -- a pipe that is closed gives its id back to nobody
  | closes _ hids _ hpipes =>
      refine hd.silent ⟨rfl, rfl⟩ hids (fun x hx => hx) ?_
      intro id y hy
      change AList.lookup id (_ : Routing).pipes = some y at hy
      rw [hpipes, Map.lookup_erase_ite] at hy
      split at hy
      · cases hy
      · exact hy
  -- evictions move wakers and entries of the pools, not ids
  | @evicts p r _ hevicts r' htables =>
      have hids : SameIds s.routing r' := by
        have h₁ := SameIds.of_tables htables
        have h₂ := hevicts.sameIds
        exact ⟨h₁.nextId.trans h₂.nextId, h₁.reservations.trans h₂.reservations,
          h₁.reservedStableIds.trans h₂.reservedStableIds⟩
      refine hd.silent ⟨rfl, rfl⟩ hids (fun x hx => hx) ?_
      intro id y hy
      rw [← hevicts.pipes, ← pipes_of_tables htables]
      exact hy
  | @hangsUp e p x _ _ r htables =>
      have hids := SameIds.of_tables htables
      refine hd.silent ⟨rfl, rfl⟩ ⟨hids.nextId, hids.reservations, hids.reservedStableIds⟩
        (fun x hx => hx) ?_
      intro id y hy
      have hpipes : r.pipes = s.routing.pipes := (pipes_of_tables htables :)
      rw [← hpipes]
      exact hy
  | promotes _ hpromotes =>
      refine hd.silent ⟨rfl, rfl⟩ hpromotes.sameIds (fun x hx => hx) ?_
      intro id y hy
      rw [← hpromotes.pipes]
      exact hy
  | @reserves now e r hfree hnext hres hreserved _ hpipes =>
      rcases hd.mint (t := { s with routing := r }) (minted_of_free hfree) hnext with
        ⟨hrange, hincreasing⟩
      have hbound : boundIds (h ++ [(s, .reserveOutbound now e)]) = boundIds h := by
        rw [boundIds_append]
        exact List.append_nil _
      rcases hd.issued.next with ⟨hunbound, hunreserved⟩
      -- the new id is neither that of another reservation nor the one in the driver's hand
      have hfreeId : s.routing.reservedStableIds.lookup ⟨s.routing.nextId + 1⟩ = none := by
        cases hk : s.routing.reservedStableIds.lookup ⟨s.routing.nextId + 1⟩ with
        | none => rfl
        | some k =>
            rcases (hd.inverse k _).mpr hk with ⟨x, hx, heq⟩
            exact absurd heq (hunreserved k x hx)
      refine ⟨?_, hd.inverse.reserve hfree hfreeId hres hreserved, ?_, ?_, hrange, hincreasing⟩
      · rw [hbound]
        exact hd.issued.reserve hres rfl hnext
      · intro x hx
        rcases hd.hand x hx with ⟨hle, hnot, hother⟩
        rw [hbound, hnext, hres]
        refine ⟨Nat.le_succ_of_le hle, hnot, ?_⟩
        intro k y hy
        rw [Map.lookup_insert_ite] at hy
        split at hy
        · obtain rfl := Option.some.inj hy
          intro heq
          rw [← heq] at hle
          dsimp only at hle
          omega
        · exact hother k y hy
      · intro id y hy
        rw [hbound]
        refine hd.live id y ?_
        rw [← hpipes]
        exact hy
  | misses hsilent hbefore hafter _ =>
      refine hd.silent hsilent (.refl _) ?_ (fun id y hy => hy)
      intro x hx
      rw [hafter] at hx
      cases hx
  | @consumes l device role k x r hsilent hfound hnext hres hreserved _ hpipes =>
      have hbound : boundIds (h ++ [(s, l)]) = boundIds h := by
        rw [boundIds_append, hsilent.2]
        exact List.append_nil _
      have hminted : mintedIds (h ++ [(s, l)]) = mintedIds h := by
        rw [mintedIds_append, hsilent.1]
        exact List.append_nil _
      rcases hd.issued.consume hfound hres hnext with ⟨hissued, hother⟩
      rcases hd.issued.reserved k x hfound with ⟨hle, hnot⟩
      refine ⟨?_, hd.inverse.consume hfound hres hreserved, ?_, ?_, ?_, ?_⟩
      · rw [hbound]
        exact hissued
      · intro y hy
        obtain rfl := Option.some.inj hy
        rw [hbound, hnext]
        exact ⟨hle, hnot, hother⟩
      · intro id y hy
        rw [hbound]
        refine hd.live id y ?_
        rw [← hpipes]
        exact hy
      · rw [hminted, hnext]
        exact hd.range
      · rw [hminted]
        exact hd.increasing
  | @binds now device role x r hbefore hids _ hpipes =>
      have hhand : s.opening.reservation? = some x := by
        rw [hbefore]
        rfl
      rcases hd.hand x hhand with ⟨hle, hnot, hother⟩
      have hminted : mintedIds (h ++ [(s, .register now)]) = mintedIds h := by
        rw [mintedIds_append, minted_of_reserved hbefore]
        exact List.append_nil _
      rcases hd.bind (t := { s with
          routing := r, opening := .registered x.stableId (some x.endpointId) })
        (binds_of_reserved hbefore) hpipes hids.reservations hids.nextId.ge (hids.nextId ▸ hle) hnot
        hother with ⟨hissued, hlive⟩
      refine ⟨hissued, ?_, ?_, hlive, ?_, ?_⟩
      · unfold Inverse
        rw [hids.reservations, hids.reservedStableIds]
        exact hd.inverse
      · intro y hy
        cases hy
      · rw [hminted, hids.nextId]
        exact hd.range
      · rw [hminted]
        exact hd.increasing
  | @mints now device role r hbefore hnext hres hreserved _ hpipes =>
      rcases hd.issued.next with ⟨hunbound, hunreserved⟩
      have hle : s.routing.nextId ≤ r.nextId := by omega
      rcases hd.mint (t := { s with
          routing := r, opening := .registered ⟨s.routing.nextId + 1⟩ none })
        (minted_of_unreserved hbefore) hnext with ⟨hrange, hincreasing⟩
      rcases hd.bind (t := { s with
          routing := r, opening := .registered ⟨s.routing.nextId + 1⟩ none })
        (binds_of_unreserved hbefore) hpipes hres hle hnext.ge hunbound hunreserved with
        ⟨hissued, hlive⟩
      refine ⟨hissued, ?_, ?_, hlive, hrange, hincreasing⟩
      · unfold Inverse
        rw [hres, hreserved]
        exact hd.inverse
      · intro y hy
        cases hy
  | @pends now id target r hbefore htables =>
      have hids := SameIds.of_tables htables
      refine hd.silent ⟨rfl, rfl⟩ ⟨hids.nextId, hids.reservations, hids.reservedStableIds⟩ ?_ ?_
      · intro x hx
        cases hx
      · intro id y hy
        have hpipes : r.pipes = s.routing.pipes := (pipes_of_tables htables :)
        rw [← hpipes]
        exact hy

/-- An id is bound for the first time. -/
theorem binds_fresh (hd : Disciplined h s) {id : StableConnId} (hs : system.step l s = some s')
    (hbinds : Router.binds (s, l) = some id) : id ∉ boundIds h := by
  have hnext := (hd.step hs).issued.nodup
  rw [boundIds_append, hbinds, Option.toList_some] at hnext
  intro hmem
  exact (List.nodup_append.mp hnext).2.2 id hmem id (List.mem_singleton_self id) rfl

end Disciplined

/-- The discipline is kept along every run. -/
theorem disciplined_of_run {h : List (Router × RouterLabel)} {s : Router}
    (hrun : system.Run h s) : Disciplined h s := by
  induction hrun with
  | init hs =>
      rcases hs with ⟨self, rfl⟩
      refine ⟨issued_empty, ?_, ?_, ?_, ?_, List.Pairwise.nil⟩
      · intro k id
        constructor
        · rintro ⟨x, hx, -⟩
          cases hx
        · intro hk
          cases hk
      · intro x hx
        cases hx
      · intro id y hy
        cases hy
      · intro id hid
        cases hid
  | step _ hs ih => exact ih.step hs

/-- The stable ids of every run: before the counter wraps, those minted are non-zero and
increase; none is bound to a second pipe, live or evicted; `reservations` and
`reserved_stable_ids` are inverse maps; no reserved id belongs to a live pipe, and neither does
the one that `register_pipe_with_id` is going to be called with. -/
theorem id_discipline {h : List (Router × RouterLabel)} {s : Router} (hrun : system.Run h s)
    (hwrap : s.routing.nextId < 2 ^ 64) :
    (∀ id ∈ mintedIds h, id.raw ≠ 0 ∧ id.raw < 2 ^ 64) ∧
    ((mintedIds h).Pairwise fun id id' => id.raw < id'.raw) ∧
    (boundIds h).Nodup ∧ (∀ id y, s.routing.pipes.lookup id = some y → id ∈ boundIds h) ∧
    (∀ k id, (∃ x, s.routing.reservations.lookup k = some x ∧ x.stableId = id) ↔
      s.routing.reservedStableIds.lookup id = some k) ∧
    (∀ k x, s.routing.reservations.lookup k = some x →
      s.routing.pipes.lookup x.stableId = none) ∧
    (∀ device role x, s.opening = .consumed device role (some x) →
      s.routing.pipes.lookup x.stableId = none) := by
  have hd := disciplined_of_run hrun
  -- every live id is bound, so one that is not bound is not live
  have hdead : ∀ id, id ∉ boundIds h → s.routing.pipes.lookup id = none := by
    intro id hnot
    cases hy : s.routing.pipes.lookup id with
    | none => rfl
    | some y => exact absurd (hd.live id y hy) hnot
  refine ⟨?_, hd.increasing, hd.issued.nodup, hd.live, hd.inverse, ?_, ?_⟩
  · intro id hid
    have hrange := hd.range id hid
    omega
  · intro k x hx
    exact hdead x.stableId (hd.issued.reserved k x hx).2
  · intro device role x hx
    refine hdead x.stableId (hd.hand x ?_).2.1
    rw [hx]
    rfl

theorem init_new (self : EndpointId) : system.Init { self := self } := ⟨self, rfl⟩

/-- A reserved id is in the driver's hand while another pipe has been opened. -/
def reservedRun : List RouterLabel :=
  [.startPipe "other" .peripheral none, .consumeForDevice, .register 0, .registerPending 0,
    .noteScanHint (prefixFromEndpoint peerEndpoint) "peer", .reserveOutbound 1 peerEndpoint,
    .startPipe "peer" .central none, .consumeForDevice]

/-- A run with a reservation that has been consumed, whose pipe is still to be registered. -/
theorem id_discipline_reservedRun : ∃ h s, system.Run h s ∧ h.map Prod.snd = reservedRun ∧
    mintedIds h = [⟨1⟩, ⟨2⟩] ∧ boundIds h = [⟨1⟩] ∧
    s.opening = .consumed "peer" .central (some ⟨⟨2⟩, peerEndpoint, 1⟩) ∧
    s.routing.pipes.lookup ⟨2⟩ = none := by
  rcases System.Run.of_trace (P := fun h s => mintedIds h = [⟨1⟩, ⟨2⟩] ∧ boundIds h = [⟨1⟩] ∧
      s.routing.nextId < 2 ^ 64 ∧
      s.opening = .consumed "peer" .central (some ⟨⟨2⟩, peerEndpoint, 1⟩))
    reservedRun (init_new localEndpoint) (by decide +kernel) with
    ⟨h, s, hrun, hlabels, hminted, hbound, hwrap, hopening⟩
  rcases id_discipline hrun hwrap with ⟨-, -, -, -, -, -, hdead⟩
  exact ⟨h, s, hrun, hlabels, hminted, hbound, hopening, hdead _ _ _ hopening⟩

end Router

end IrohBle
