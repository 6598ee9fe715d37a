import IrohBle.Routing.Discipline

/-! # Routing.Reserved: the reservation for a device

`consume_reservation_for_device` knows the device that a pipe has been opened to and looks for
its prefix in the scan hints. It takes the first prefix in the iteration order of the table and
asks only for the reservation of that one, while a device that has advertised under several
prefixes has a hint for each of them.

* `Finds`: under every order a reservation for a prefix of the device is found and taken.
* `finds_iff`: that is so exactly if every prefix of the device has a reservation, or none has.
* `two_hints_order`: a device with two prefixes, and a reservation for one of them.
-/

namespace IrohBle.Routing

open Lib Router

/-- The table with its scan hints in the order of `ks`. -/
def hinted (r : Routing) (ks : List KeyPrefix) : Routing :=
  { r with scanHint := r.scanHint.reorder ks }

/-- `x` is the reservation of a prefix that the device has advertised. -/
structure ReservedFor (r : Routing) (device : DeviceId) (k : KeyPrefix) (x : Reservation) :
    Prop where
  hint : r.scanHint.lookup k = some device
  reservation : r.reservations.lookup k = some x

/-- The reservation `x` of `k` is in neither table any more, and the others are as before. -/
structure Releases (r r' : Routing) (k : KeyPrefix) (x : Reservation) : Prop where
  reservations : r'.reservations = r.reservations.erase k
  reserved : r'.reservedStableIds = r.reservedStableIds.erase x.stableId
  gone : ∀ k' y, r'.reservations.lookup k' = some y → y.stableId ≠ x.stableId

/-- If there is a reservation for the device, one is found and taken, whatever the order. -/
def Finds (r : Routing) (device : DeviceId) : Prop :=
  ∀ ks, ks.Perm r.scanHint.keys → (∃ k x, r.ReservedFor device k x) →
    ∃ k x, r.ReservedFor device k x ∧
      ((r.hinted ks).consumeReservationForDevice device).2 = some x ∧
      r.Releases ((r.hinted ks).consumeReservationForDevice device).1 k x

/-- Every prefix of the device has a reservation, or none has. -/
def AllOrNone (r : Routing) (device : DeviceId) : Prop :=
  (∀ k, r.scanHint.lookup k = some device → ∃ x, r.reservations.lookup k = some x) ∨
    ∀ k, r.scanHint.lookup k = some device → r.reservations.lookup k = none

variable {r : Routing} {device : DeviceId} {ks : List KeyPrefix} {k : KeyPrefix} {x : Reservation}

/-- The prefix that the search comes to is one of the device. -/
theorem hint_of_prefixForDevice (hks : ks.Perm r.scanHint.keys)
    (h : (r.hinted ks).prefixForDevice device = some k) : r.scanHint.lookup k = some device := by
  obtain ⟨d, hd, hbeq⟩ := Map.findKey?_eq_some h
  rw [← Map.lookup_reorder hks k, ← eq_of_beq hbeq]
  exact hd

/-- There is a prefix to come to if the device has advertised one. -/
theorem exists_prefixForDevice (hks : ks.Perm r.scanHint.keys)
    (hk : r.scanHint.lookup k = some device) :
    ∃ k', (r.hinted ks).prefixForDevice device = some k' := by
  cases hfind : (r.hinted ks).prefixForDevice device with
  | some k' => exact ⟨k', rfl⟩
  | none =>
      have hlook : (r.hinted ks).scanHint.lookup k = some device :=
        (Map.lookup_reorder hks k).trans hk
      have hfalse := Map.findKey?_eq_none hfind hlook
      rw [beq_self_eq_true] at hfalse
      cases hfalse

/-- What is consumed is the reservation of the prefix that the search comes to. -/
theorem consume_hinted (hfind : (r.hinted ks).prefixForDevice device = some k) :
    (r.hinted ks).consumeReservationForDevice device =
      (r.hinted ks).consumeReservationForPrefix k := by
  unfold consumeReservationForDevice
  rw [hfind]

/-- Consuming a reservation returns it and releases its prefix. -/
theorem releases_consume (hr : r.Inverse) (hx : r.reservations.lookup k = some x) :
    ((r.hinted ks).consumeReservationForPrefix k).2 = some x ∧
      r.Releases ((r.hinted ks).consumeReservationForPrefix k).1 k x := by
  have hx' : (r.hinted ks).reservations.lookup k = some x := hx
  unfold consumeReservationForPrefix
  rw [hx']
  refine ⟨rfl, rfl, rfl, ?_⟩
  -- another prefix cannot have the same id, since the id leads back to one prefix only
  intro k' y hy heq
  change (r.reservations.erase k).lookup k' = some y at hy
  rw [Map.lookup_erase_ite] at hy
  split at hy
  · cases hy
  · rename_i hne
    have hback := (hr k x.stableId).mp ⟨x, hx, rfl⟩
    have hback' := (hr k' x.stableId).mp ⟨y, hy, heq⟩
    exact hne (Option.some.inj (hback'.symm.trans hback))

/-- Where every prefix of the device is reserved, or none, whichever is tried first will do. -/
theorem AllOrNone.finds (h : r.AllOrNone device) (hr : r.Inverse) : r.Finds device := by
  rintro ks hks ⟨k, x, hres⟩
  obtain ⟨k', hfind⟩ := exists_prefixForDevice hks hres.hint
  have hhint := hint_of_prefixForDevice hks hfind
  rcases h with hall | hnone
  · obtain ⟨x', hx'⟩ := hall k' hhint
    refine ⟨k', x', ⟨hhint, hx'⟩, ?_⟩
    rw [consume_hinted hfind]
    exact releases_consume hr hx'
  · -- then there was no reservation to find
    have hgone := hnone k hres.hint
    rw [hres.reservation] at hgone
    cases hgone

/-- With a prefix first that has no reservation, nothing is found. -/
theorem misses_of_first (hk : r.scanHint.lookup k = some device)
    (hnone : r.reservations.lookup k = none) : ∃ ks, ks.Perm r.scanHint.keys ∧
      ((r.hinted ks).consumeReservationForDevice device).2 = none := by
  have hmem : k ∈ r.scanHint.keys := Map.mem_keys_of_lookup hk
  -- the order that comes to `k` first
  have hks : (k :: r.scanHint.keys.erase k).Perm r.scanHint.keys := (List.perm_cons_erase hmem).symm
  refine ⟨_, hks, ?_⟩
  have hfind : (r.hinted (k :: r.scanHint.keys.erase k)).prefixForDevice device = some k :=
    Map.findKey?_reorder_cons hks hk (beq_self_eq_true device)
  have hnone' : (r.hinted (k :: r.scanHint.keys.erase k)).reservations.lookup k = none := hnone
  rw [consume_hinted hfind, consumeReservationForPrefix, hnone']

/-- Otherwise an order exists in which the prefix that is tried has no reservation. -/
theorem Finds.allOrNone (h : r.Finds device) : r.AllOrNone device := by
  by_cases hres : ∃ k x, r.ReservedFor device k x
  · left
    intro k hk
    cases hlook : r.reservations.lookup k with
    | some x => exact ⟨x, rfl⟩
    | none =>
        obtain ⟨ks, hks, hmiss⟩ := misses_of_first hk hlook
        obtain ⟨k', x, -, hfound, -⟩ := h ks hks hres
        rw [hmiss] at hfound
        cases hfound
  · right
    intro k hk
    cases hlook : r.reservations.lookup k with
    | none => rfl
    | some x => exact absurd ⟨k, x, hk, hlook⟩ hres

/-- In every state of a run, a reservation for the device is found under every order of the scan
hints exactly if every prefix of the device has one, or none has. -/
theorem finds_iff {h : List (Router × RouterLabel)} {s : Router} (hrun : Router.system.Run h s)
    (device : DeviceId) : s.routing.Finds device ↔ s.routing.AllOrNone device := by
  constructor
  · exact Finds.allOrNone
  · intro hall
    exact hall.finds (Router.disciplined_of_run hrun).inverse

/-- A device advertises, and an endpoint with its prefix is reserved. -/
def oneHintRun : List RouterLabel :=
  [.noteScanHint (prefixFromEndpoint peerEndpoint) "peer", .reserveOutbound 0 peerEndpoint]

/-- A run with one prefix for the device, and a reservation for it. -/
theorem finds_iff_oneHintRun : ∃ h s, Router.system.Run h s ∧ h.map Prod.snd = oneHintRun ∧
    s.routing.Finds "peer" ∧ ∃ k x, s.routing.ReservedFor "peer" k x := by
  obtain ⟨h, s, hrun, hlabels, hhints, hhint, hres⟩ := System.Run.of_exec
    (P := fun s : Router => s.routing.scanHint.keys = [prefixFromEndpoint peerEndpoint] ∧
      s.routing.scanHint.lookup (prefixFromEndpoint peerEndpoint) = some "peer" ∧
      s.routing.reservations.lookup (prefixFromEndpoint peerEndpoint) =
        some ⟨⟨1⟩, peerEndpoint, 0⟩)
    oneHintRun (Router.init_new localEndpoint) (by decide +kernel)
  refine ⟨h, s, hrun, hlabels, (finds_iff hrun "peer").mpr (.inl ?_), ⟨_, _, hhint, hres⟩⟩
  intro k hk
  have hmem : k ∈ s.routing.scanHint.keys := Map.mem_keys_of_lookup hk
  rw [hhints, List.mem_singleton] at hmem
  exact ⟨_, hmem ▸ hres⟩

/-- A device advertises under two prefixes, and an endpoint with the second is reserved. -/
def twoHintsRun : List RouterLabel :=
  [.noteScanHint (prefixFromEndpoint otherEndpoint) "peer",
    .noteScanHint (prefixFromEndpoint peerEndpoint) "peer", .reserveOutbound 0 peerEndpoint]

/-- The reservation is found in one order of the hints and missed in the other. -/
theorem two_hints_order : ∃ h s, Router.system.Run h s ∧ h.map Prod.snd = twoHintsRun ∧
    s.routing.ReservedFor "peer" (prefixFromEndpoint peerEndpoint) ⟨⟨1⟩, peerEndpoint, 0⟩ ∧
    ((s.routing.hinted [prefixFromEndpoint peerEndpoint,
      prefixFromEndpoint otherEndpoint]).consumeReservationForDevice "peer").2 =
        some ⟨⟨1⟩, peerEndpoint, 0⟩ ∧
    ((s.routing.hinted [prefixFromEndpoint otherEndpoint,
      prefixFromEndpoint peerEndpoint]).consumeReservationForDevice "peer").2 = none ∧
    ¬ s.routing.Finds "peer" := by
  obtain ⟨h, s, hrun, hlabels, hhint, hres, hperm, hfound, hmissed⟩ := System.Run.of_exec
    (P := fun s : Router =>
      s.routing.scanHint.lookup (prefixFromEndpoint peerEndpoint) = some "peer" ∧
      s.routing.reservations.lookup (prefixFromEndpoint peerEndpoint) =
        some ⟨⟨1⟩, peerEndpoint, 0⟩ ∧
      [prefixFromEndpoint otherEndpoint, prefixFromEndpoint peerEndpoint].Perm
        s.routing.scanHint.keys ∧
      ((s.routing.hinted [prefixFromEndpoint peerEndpoint,
        prefixFromEndpoint otherEndpoint]).consumeReservationForDevice "peer").2 =
          some ⟨⟨1⟩, peerEndpoint, 0⟩ ∧
      ((s.routing.hinted [prefixFromEndpoint otherEndpoint,
        prefixFromEndpoint peerEndpoint]).consumeReservationForDevice "peer").2 = none)
    twoHintsRun (Router.init_new localEndpoint) (by decide +kernel)
  refine ⟨h, s, hrun, hlabels, ⟨hhint, hres⟩, hfound, hmissed, ?_⟩
  intro hfinds
  obtain ⟨k, x, -, hfind, -⟩ := hfinds _ hperm ⟨_, _, hhint, hres⟩
  rw [hmissed] at hfind
  cases hfind

end IrohBle.Routing
