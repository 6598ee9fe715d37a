import IrohBle.Routing.Table

/-! # Routing.Ids: the stable ids of the pipes

A pipe gets a fresh id, or the id that was reserved for it, so no id names two pipes
(`Issued`). The operations that open no pipe and reserve no id touch neither the counter nor
the reservations, and register no pipe (`Frame`).
-/

namespace IrohBle

open Lib

namespace Routing

/-- The ids given out so far are as they were, and no pipe was registered. -/
structure Frame (r r' : Routing) : Prop where
  nextId : r'.nextId = r.nextId
  reservations : r'.reservations = r.reservations
  pipes : ∀ id x, r'.pipes.lookup id = some x → r.pipes.lookup id = some x

namespace Frame

theorem refl (r : Routing) : Frame r r := ⟨rfl, rfl, fun _ _ h => h⟩

theorem trans {r r₁ r' : Routing} (h₁ : Frame r r₁) (h₂ : Frame r₁ r') : Frame r r' :=
  ⟨h₂.nextId.trans h₁.nextId, h₂.reservations.trans h₁.reservations,
    fun id x h => h₁.pipes id x (h₂.pipes id x h)⟩

theorem wakeEndpointWaiters (r : Routing) (endpoint : EndpointId) :
    Frame r (r.wakeEndpointWaiters endpoint) := ⟨rfl, rfl, fun _ _ h => h⟩

theorem wakeFor (r : Routing) (endpoint : Option EndpointId) : Frame r (r.wakeFor endpoint) := by
  cases endpoint with
  | none => exact refl r
  | some e => exact wakeEndpointWaiters r e

/-- Any fold of operations that keep the frame. -/
theorem foldl {α : Type} {f : Routing → α → Routing} (hf : ∀ r a, Frame r (f r a)) (l : List α)
    (r : Routing) : Frame r (l.foldl f r) := by
  induction l generalizing r with
  | nil => exact refl r
  | cons a l ih => exact (hf r a).trans (ih _)

theorem wakeEndpointWaitersForPrefix (r : Routing) (keyPrefix : KeyPrefix) :
    Frame r (r.wakeEndpointWaitersForPrefix keyPrefix) :=
  foldl (fun r e => wakeEndpointWaiters r e) _ r

/-- `evict_pipe` touches neither the counter nor the reservations. -/
theorem evictPipe (r : Routing) (now : ℕ) (id : StableConnId) : Frame r (r.evictPipe now id) := by
  unfold Routing.evictPipe
  split
  · exact refl r
  · refine ⟨rfl, rfl, fun id' x h => ?_⟩
    change (r.pipes.erase id).lookup id' = some x at h
    rw [Map.lookup_erase_ite] at h
    split at h
    · cases h
    · exact h

/-- A hint touches neither the counter nor the reservations. -/
theorem noteScanHint (r : Routing) (keyPrefix : KeyPrefix) (device : DeviceId) :
    Frame r (r.noteScanHint keyPrefix device).1 := by
  have hhint : Frame r { r with scanHint := r.scanHint.insert keyPrefix device } :=
    ⟨rfl, rfl, fun _ _ h => h⟩
  unfold Routing.noteScanHint
  dsimp only
  split
  · split
    · exact refl r
    · split
      · exact hhint.trans (wakeEndpointWaitersForPrefix _ _)
      · split
        · exact hhint
        · exact hhint.trans (wakeEndpointWaitersForPrefix _ _)
  · split
    · exact hhint.trans (wakeEndpointWaitersForPrefix _ _)
    · split
      · exact hhint
      · exact hhint.trans (wakeEndpointWaitersForPrefix _ _)

theorem evictRoutableIfPipe (r : Routing) (endpoint : EndpointId) (pipe : StableConnId) :
    Frame r (r.evictRoutableIfPipe endpoint pipe).1 := by
  unfold Routing.evictRoutableIfPipe
  split
  · split
    · exact ⟨rfl, rfl, fun _ _ h => h⟩
    · exact refl r
  · exact refl r

theorem evictRoutableOf (r : Routing) (pipe : StableConnId) : Frame r (r.evictRoutableOf pipe) := by
  unfold Routing.evictRoutableOf
  split
  · exact ⟨rfl, rfl, fun _ _ h => h⟩
  · exact refl r

theorem evictContender (r : Routing) (pipe : StableConnId) : Frame r (r.evictContender pipe) := by
  have hpending : Frame r { r with pending := r.pending.erase pipe } := ⟨rfl, rfl, fun _ _ h => h⟩
  exact hpending.trans (evictRoutableOf _ pipe)

theorem evictPipeState (r : Routing) (pipe : StableConnId) : Frame r (r.evictPipeState pipe).1 :=
  ((evictContender r pipe).trans (wakeFor _ _)).trans (wakeFor _ _)

/-- A promotion touches neither the counter nor the reservations. -/
theorem promote (r : Routing) (now : ℕ) (pipe : StableConnId) (self remote : EndpointId) :
    Frame r (r.promote now pipe self remote).1 := by
  unfold Routing.promote
  split
  · exact refl r
  · dsimp only
    split
    · exact refl r
    all_goals
      have hevict := foldl evictContender ((r.contenders pipe self remote).map Contender.pipe) r
      exact ⟨hevict.nextId, hevict.reservations, hevict.pipes⟩

theorem rehash {r r' : Routing} {o : Orders} (h : r.rehash o = some r') : Frame r r' := by
  unfold Routing.rehash at h
  split at h
  · obtain rfl := Option.some.inj h
    exact ⟨rfl, rfl, fun _ _ h => h⟩
  · cases h

end Frame

/-- Every id given out names one pipe, and no pipe has an id that is still reserved. -/
structure Issued (r : Routing) (ids : List StableConnId) : Prop where
  nodup : ids.Nodup
  bound : ∀ id ∈ ids, id.raw ≤ r.nextId
  reserved : ∀ k x, r.reservations.lookup k = some x → x.stableId.raw ≤ r.nextId ∧ x.stableId ∉ ids
  distinct : ∀ k k' x x', r.reservations.lookup k = some x → r.reservations.lookup k' = some x' →
    x.stableId = x'.stableId → k = k'

/-- What has been issued stays issued where no ids change. -/
theorem Issued.frame {r r' : Routing} {ids : List StableConnId} (h : r.Issued ids)
    (hf : Frame r r') : r'.Issued ids := by
  refine ⟨h.nodup, ?_, ?_, ?_⟩
  · rw [hf.nextId]
    exact h.bound
  · rw [hf.reservations, hf.nextId]
    exact h.reserved
  · rw [hf.reservations]
    exact h.distinct

theorem issued_empty : Issued {} [] :=
  ⟨List.nodup_nil, nofun, nofun, nofun⟩

section Issued

variable {r r' : Routing} {ids : List StableConnId}

/-- A reservation is used up. -/
theorem Issued.consume (hi : r.Issued ids) {k : KeyPrefix} {x : Reservation}
    (hx : r.reservations.lookup k = some x) (hres : r'.reservations = r.reservations.erase k)
    (hnext : r'.nextId = r.nextId) :
    r'.Issued ids ∧ ∀ k' y, r'.reservations.lookup k' = some y → y.stableId ≠ x.stableId := by
  have hother : ∀ k' y, r'.reservations.lookup k' = some y →
      k' ≠ k ∧ r.reservations.lookup k' = some y := by
    intro k' y hy
    rw [hres, Map.lookup_erase_ite] at hy
    split at hy
    · cases hy
    · rename_i hk
      exact ⟨hk, hy⟩
  refine ⟨⟨hi.nodup, ?_, ?_, ?_⟩, ?_⟩
  · rw [hnext]
    exact hi.bound
  · intro k' y hy
    rw [hnext]
    exact hi.reserved k' y (hother k' y hy).2
  · intro k₁ k₂ x₁ x₂ h₁ h₂ heq
    exact hi.distinct k₁ k₂ x₁ x₂ (hother k₁ x₁ h₁).2 (hother k₂ x₂ h₂).2 heq
  · intro k' y hy heq
    rcases hother k' y hy with ⟨hk, hy⟩
    exact hk (hi.distinct k' k y x hy hx heq)

/-- An id that is neither bound nor reserved is bound to a pipe. -/
theorem Issued.bind (hi : r.Issued ids) {id : StableConnId} (hres : r'.reservations = r.reservations)
    (hnext : r.nextId ≤ r'.nextId) (hid : id.raw ≤ r'.nextId) (hfresh : id ∉ ids)
    (hfree : ∀ k x, r.reservations.lookup k = some x → x.stableId ≠ id) :
    r'.Issued (ids ++ [id]) := by
  refine ⟨?_, ?_, ?_, ?_⟩
  · refine List.nodup_append.mpr ⟨hi.nodup, List.nodup_singleton id, ?_⟩
    intro a ha b hb heq
    rw [List.mem_singleton.mp hb] at heq
    rw [heq] at ha
    exact hfresh ha
  · intro a ha
    rcases List.mem_append.mp ha with ha | ha
    · exact (hi.bound a ha).trans hnext
    · rw [List.mem_singleton.mp ha]
      exact hid
  · intro k x hx
    rw [hres] at hx
    rcases hi.reserved k x hx with ⟨hle, hnot⟩
    refine ⟨hle.trans hnext, ?_⟩
    intro hmem
    rcases List.mem_append.mp hmem with hmem | hmem
    · exact hnot hmem
    · exact hfree k x hx (List.mem_singleton.mp hmem)
  · rw [hres]
    exact hi.distinct

/-- The next id is neither bound nor reserved. -/
theorem Issued.next (hi : r.Issued ids) : (⟨r.nextId + 1⟩ : StableConnId) ∉ ids ∧
    ∀ k x, r.reservations.lookup k = some x → x.stableId ≠ ⟨r.nextId + 1⟩ := by
  constructor
  · intro hmem
    have hle : r.nextId + 1 ≤ r.nextId := hi.bound _ hmem
    omega
  · intro k x hx heq
    have hle := (hi.reserved k x hx).1
    rw [heq] at hle
    dsimp only at hle
    omega

/-- The next id is reserved. -/
theorem Issued.reserve (hi : r.Issued ids) {k : KeyPrefix} {x : Reservation}
    (hres : r'.reservations = r.reservations.insert k x) (hid : x.stableId = ⟨r.nextId + 1⟩)
    (hnext : r'.nextId = r.nextId + 1) : r'.Issued ids := by
  rcases hi.next with ⟨hunbound, hunreserved⟩
  -- a reservation is the new one or was there before
  have hcases : ∀ k' y, r'.reservations.lookup k' = some y →
      k' = k ∧ y = x ∨ r.reservations.lookup k' = some y := by
    intro k' y hy
    rw [hres, Map.lookup_insert_ite] at hy
    split at hy
    · rename_i hk
      exact .inl ⟨hk, (Option.some.inj hy).symm⟩
    · exact .inr hy
  refine ⟨hi.nodup, ?_, ?_, ?_⟩
  · intro id hmem
    rw [hnext]
    exact Nat.le_succ_of_le (hi.bound id hmem)
  · intro k' y hy
    rw [hnext]
    rcases hcases k' y hy with ⟨-, rfl⟩ | hold
    · rw [hid]
      exact ⟨Nat.le_refl _, hunbound⟩
    · rcases hi.reserved k' y hold with ⟨hle, hnot⟩
      exact ⟨Nat.le_succ_of_le hle, hnot⟩
  · intro k₁ k₂ x₁ x₂ h₁ h₂ heq
    rcases hcases k₁ x₁ h₁ with ⟨rfl, rfl⟩ | hold₁
    · rcases hcases k₂ x₂ h₂ with ⟨rfl, -⟩ | hold₂
      · rfl
      · exact absurd (heq.symm.trans hid) (hunreserved k₂ x₂ hold₂)
    · rcases hcases k₂ x₂ h₂ with ⟨rfl, rfl⟩ | hold₂
      · exact absurd (heq.trans hid) (hunreserved k₁ x₁ hold₁)
      · exact hi.distinct k₁ k₂ x₁ x₂ hold₁ hold₂ heq

end Issued

/-- No reservation was found, or one that is used up now. -/
def Consumed (r : Routing) (b : Routing × Option Reservation) : Prop :=
  b = (r, none) ∨ ∃ k x, r.reservations.lookup k = some x ∧
    b = ({ r with
        reservations := r.reservations.erase k
        reservedStableIds := r.reservedStableIds.erase x.stableId
        pipeTombstones := r.pipeTombstones.erase x.stableId }, some x)

/-- A reservation is consumed by its prefix. -/
theorem consumed_forPrefix (keyPrefix : KeyPrefix) (r : Routing) :
    Consumed r (r.consumeReservationForPrefix keyPrefix) := by
  unfold consumeReservationForPrefix
  split
  · exact .inl rfl
  · rename_i x hx
    exact .inr ⟨keyPrefix, x, hx, rfl⟩

theorem consumed_forDevice (device : DeviceId) (r : Routing) :
    Consumed r (r.consumeReservationForDevice device) := by
  unfold consumeReservationForDevice
  split
  · exact .inl rfl
  · exact consumed_forPrefix _ r

/-- The pipe is registered under a reserved id, which is then free, or under a new one. -/
def Opened (now : ℕ) (device : DeviceId) (role : ConnectRole) (r r' : Routing)
    (id : StableConnId) : Prop :=
  r'.pipes = r.pipes.insert id ⟨id, device, directionForRole role, now⟩ ∧
    ((∃ k x, r.reservations.lookup k = some x ∧ id = x.stableId ∧ r'.nextId = r.nextId ∧
        r'.reservations = r.reservations.erase k) ∨
      id = ⟨r.nextId + 1⟩ ∧ r'.nextId = r.nextId + 1 ∧ r'.reservations = r.reservations)

/-- A pipe opened without a target. -/
theorem openPipe_none {now : ℕ} {device : DeviceId} {role : ConnectRole} {r r' : Routing}
    {id : StableConnId} (h : r.openPipe now device role none = (r', id)) :
    Opened now device role r r' id := by
  unfold openPipe at h
  rcases consumed_forDevice device r with hd | ⟨k, x, hx, hd⟩
  · simp only [hd] at h
    cases h
    exact ⟨rfl, .inr ⟨rfl, rfl, rfl⟩⟩
  · simp only [hd] at h
    cases h
    exact ⟨rfl, .inl ⟨k, x, hx, rfl, rfl, rfl⟩⟩

/-- A pipe that is opened, under a reservation or a fresh id. -/
theorem openPipe_cases {now : ℕ} {device : DeviceId} {role : ConnectRole}
    {target : Option EndpointId} {r r' : Routing} {id : StableConnId}
    (h : r.openPipe now device role target = (r', id)) : Opened now device role r r' id := by
  cases target with
  | none => exact openPipe_none h
  | some endpoint =>
      rcases consumed_forPrefix (prefixFromEndpoint endpoint) r with he | ⟨k, x, hx, he⟩
      · -- nothing is reserved for the endpoint: as if there were no target
        simp only [openPipe, consumeReservationForEndpoint, he] at h
        exact openPipe_none h
      · simp only [openPipe, consumeReservationForEndpoint, he] at h
        cases h
        exact ⟨rfl, .inl ⟨k, x, hx, rfl, rfl, rfl⟩⟩

/-- The id of an opened pipe was issued to no pipe before. -/
theorem Issued.openPipe {now : ℕ} {device : DeviceId} {role : ConnectRole}
    {target : Option EndpointId} {r r' : Routing} {id : StableConnId} {ids : List StableConnId}
    (hi : r.Issued ids) (h : r.openPipe now device role target = (r', id)) :
    r'.Issued (ids ++ [id]) := by
  rcases openPipe_cases h with ⟨-, ⟨k, x, hx, rfl, hnext, hres⟩ | ⟨rfl, hnext, hres⟩⟩
  · -- the reservation is used up first
    have hconsumed : ({ r with reservations := r.reservations.erase k } : Routing).Issued ids ∧
        ∀ k' y, (r.reservations.erase k).lookup k' = some y → y.stableId ≠ x.stableId :=
      hi.consume hx rfl rfl
    rcases hi.reserved k x hx with ⟨hle, hnot⟩
    exact hconsumed.1.bind hres hnext.ge (hnext ▸ hle) hnot hconsumed.2
  · rcases hi.next with ⟨hunbound, hunreserved⟩
    exact hi.bind hres (by omega) hnext.ge hunbound hunreserved

/-- A reservation issues no id to a pipe. -/
theorem Issued.reserveOutbound {r : Routing} {ids : List StableConnId} (hi : r.Issued ids) (now : ℕ)
    (endpoint : EndpointId) : (r.reserveOutbound now endpoint).1.Issued ids := by
  unfold Routing.reserveOutbound
  dsimp only
  split
  · exact ⟨hi.nodup, hi.bound, hi.reserved, hi.distinct⟩
  · exact hi.reserve rfl rfl rfl

theorem reserveOutbound_pipes (r : Routing) (now : ℕ) (endpoint : EndpointId) :
    (r.reserveOutbound now endpoint).1.pipes = r.pipes := by
  unfold reserveOutbound
  dsimp only
  split <;> rfl

end Routing

end IrohBle
