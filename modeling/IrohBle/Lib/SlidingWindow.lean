import Mathlib.Data.List.Basic
import Mathlib.Data.List.Nodup
import Mathlib.Data.List.Pairwise

/-! # Lib.SlidingWindow: one direction of a selective-repeat protocol

The abstract protocol numbers fragments `0, 1, 2, …` without wrap-around. One
direction (`Half`) joins a sender window `[base, next)` to a receiver that has
accepted everything below `rcvd`, over two FIFO links that may lose messages:
`wire` carries fragment indices, `acks` carries cumulative acknowledgements
(`r` acknowledges every index below `r`).

`Inv W K` bounds how far a message on either link can be from the state it
meets, for a window of `W` fragments and acknowledgements that were at most
`K` fragments old when they were emitted:

* every index on the wire lies in `[rcvd - W, rcvd + W)` (`Inv.wire`);
* every acknowledgement lies in `[base - K, rcvd]` (`Inv.ack`).

A numbering modulo `M` with `2 * W ≤ M` and `W + K < M` therefore decodes both
links without ambiguity. Each operation of the protocol keeps `Inv`; the lemmas
below are named after the operations.
-/

namespace Lib.SlidingWindow

/-- One direction of the protocol, with absolute fragment numbers. -/
structure Half where
  /-- Oldest index the sender still holds. -/
  base : ℕ
  /-- Next index the sender will use. -/
  next : ℕ
  /-- Indices in transit, oldest first. -/
  wire : List ℕ
  /-- The receiver has accepted exactly the indices below this one. -/
  rcvd : ℕ
  /-- Indices held out of order by the receiver. -/
  buf : List ℕ
  /-- Cumulative acknowledgements in transit, oldest first. -/
  acks : List ℕ

/-- The window invariant of one direction. -/
structure Inv (W K : ℕ) (h : Half) : Prop where
  base_le : h.base ≤ h.rcvd
  rcvd_le : h.rcvd ≤ h.next
  next_le : h.next ≤ h.base + W
  /-- An index in transit was inside the sender's window, and the receiver can
  have moved by at most one window since. -/
  wire : ∀ i ∈ h.wire, i < h.next ∧ h.rcvd ≤ i + W ∧ i < h.rcvd + W
  wire_order : h.wire.Pairwise fun i j => i < j + W
  buf : ∀ j ∈ h.buf, h.rcvd ≤ j ∧ j < h.next
  buf_nodup : h.buf.Nodup
  buf_wire : ∀ j ∈ h.buf, ∀ i ∈ h.wire, j < i + W
  ack : ∀ r ∈ h.acks, r ≤ h.rcvd ∧ h.base ≤ r + K
  ack_order : h.acks.Pairwise fun r r' => r ≤ r' + K

variable {W K : ℕ} {h : Half}

/-- Nothing has been sent yet. -/
theorem inv_init : Inv W K ⟨0, 0, [], 0, [], []⟩ := by
  constructor <;> simp

namespace Inv

/-! ## The sender -/

/-- The sender uses the next index while its window has room. -/
theorem push (hI : Inv W K h) (hroom : h.next < h.base + W) :
    Inv W K { h with next := h.next + 1, wire := h.wire ++ [h.next] } := by
  have hb := hI.base_le
  have hr := hI.rcvd_le
  refine { hI with
    rcvd_le := by simp only; omega
    next_le := by simp only; omega
    wire := ?_, wire_order := ?_, buf := ?_, buf_wire := ?_ }
  · intro i hi
    simp only [List.mem_append, List.mem_singleton] at hi
    rcases hi with hi | rfl
    · obtain ⟨h1, h2, h3⟩ := hI.wire i hi
      exact ⟨by simp only; omega, h2, h3⟩
    · exact ⟨by simp only; omega, by simp only; omega, by simp only; omega⟩
  · rw [List.pairwise_append]
    refine ⟨hI.wire_order, List.pairwise_singleton _ _, fun i hi j hj => ?_⟩
    obtain rfl := List.mem_singleton.mp hj
    have := (hI.wire i hi).1
    omega
  · intro j hj
    have := hI.buf j hj
    exact ⟨this.1, by simp only; omega⟩
  · intro j hj i hi
    simp only [List.mem_append, List.mem_singleton] at hi
    rcases hi with hi | rfl
    · exact hI.buf_wire j hj i hi
    · have := (hI.buf j hj).2
      omega

/-- The sender repeats the oldest index it holds. -/
theorem resend (hI : Inv W K h) (hne : h.base < h.next) :
    Inv W K { h with wire := h.wire ++ [h.base] } := by
  have hb := hI.base_le
  have hr := hI.rcvd_le
  have hn := hI.next_le
  refine { hI with wire := ?_, wire_order := ?_, buf_wire := ?_ }
  · intro i hi
    simp only [List.mem_append, List.mem_singleton] at hi
    rcases hi with hi | rfl
    · exact hI.wire i hi
    · exact ⟨hne, by simp only; omega, by simp only; omega⟩
  · rw [List.pairwise_append]
    refine ⟨hI.wire_order, List.pairwise_singleton _ _, fun i hi j hj => ?_⟩
    obtain rfl := List.mem_singleton.mp hj
    have := (hI.wire i hi).1
    omega
  · intro j hj i hi
    simp only [List.mem_append, List.mem_singleton] at hi
    rcases hi with hi | rfl
    · exact hI.buf_wire j hj i hi
    · have := (hI.buf j hj).2
      omega

/-- The sender takes an acknowledgement off the link and slides its window to
it. -/
theorem slide (hI : Inv W K h) {r : ℕ} {as : List ℕ} (hacks : h.acks = r :: as)
    (hr : h.base ≤ r) : Inv W K { h with base := r, acks := as } := by
  have hpw := hI.ack_order
  rw [hacks, List.pairwise_cons] at hpw
  have hn := hI.next_le
  refine { hI with
    base_le := (hI.ack r (by simp [hacks])).1
    next_le := by simp only; omega
    ack := fun r' hr' => ⟨(hI.ack r' (by simp [hacks, hr'])).1, hpw.1 r' hr'⟩
    ack_order := hpw.2 }

/-! ## The receiver -/

/-- The receiver takes `i` off the wire. Afterwards it has accepted everything below `m` and
holds `b`: together what it had before, and `i`. Whether `i` was accepted, held, or had been
there already does not matter. -/
theorem arrive (hI : Inv W K h) {i m : ℕ} {is b : List ℕ} (hwire : h.wire = i :: is)
    (hm : h.rcvd ≤ m) (hb : ∀ j ∈ b, m ≤ j) (hnodup : b.Nodup)
    (hset : ∀ j, (j < m ∨ j ∈ b) ↔ (j < h.rcvd ∨ j ∈ h.buf ∨ j = i)) :
    Inv W K { h with wire := is, rcvd := m, buf := b } := by
  have hpw := hI.wire_order
  rw [hwire, List.pairwise_cons] at hpw
  have hmem : i ∈ h.wire := by rw [hwire]; exact List.mem_cons_self
  have hsub : ∀ j ∈ is, j ∈ h.wire := fun j hj => by rw [hwire]; exact List.mem_cons_of_mem _ hj
  have hbase := hI.base_le
  have hrcvd := hI.rcvd_le
  -- whatever is new to the receiver was held or has just arrived
  have hnew : ∀ j, h.rcvd ≤ j → j < m ∨ j ∈ b → j < h.next ∧ ∀ k ∈ is, j < k + W := by
    intro j hj hjm
    rcases (hset j).mp hjm with hlt | hbuf | rfl
    · omega
    · exact ⟨(hI.buf j hbuf).2, fun k hk => hI.buf_wire j hbuf k (hsub k hk)⟩
    · exact ⟨(hI.wire j hmem).1, fun k hk => hpw.1 k hk⟩
  have hlast : m = h.rcvd ∨ (m - 1 < h.next ∧ ∀ k ∈ is, m - 1 < k + W) := by
    by_cases heq : m = h.rcvd
    · exact Or.inl heq
    · exact Or.inr (hnew (m - 1) (by omega) (Or.inl (by omega)))
  refine { hI with
    base_le := by simp only; omega
    rcvd_le := ?_
    wire := ?_
    wire_order := hpw.2
    buf := ?_
    buf_nodup := hnodup
    buf_wire := ?_
    ack := ?_ }
  · show m ≤ h.next
    rcases hlast with heq | ⟨hlt, -⟩
    · omega
    · omega
  · intro k hk
    obtain ⟨hk1, hk2, hk3⟩ := hI.wire k (hsub k hk)
    refine ⟨hk1, ?_, ?_⟩
    · show m ≤ k + W
      rcases hlast with heq | ⟨-, hlt⟩
      · omega
      · have := hlt k hk
        omega
    · show k < m + W
      omega
  · intro j hj
    have hmj := hb j hj
    exact ⟨hmj, (hnew j (by omega) (Or.inr hj)).1⟩
  · intro j hj k hk
    have hmj := hb j hj
    exact (hnew j (by omega) (Or.inr hj)).2 k hk
  · intro r hr
    obtain ⟨hr1, hr2⟩ := hI.ack r hr
    exact ⟨by simp only; omega, hr2⟩

/-- The receiver emits an acknowledgement that is at most `K` fragments old. -/
theorem emit (hI : Inv W K h) {r : ℕ} (hr : r ≤ h.rcvd) (hK : h.rcvd ≤ r + K) :
    Inv W K { h with acks := h.acks ++ [r] } := by
  have hb := hI.base_le
  refine { hI with ack := ?_, ack_order := ?_ }
  · intro r' hr'
    simp only [List.mem_append, List.mem_singleton] at hr'
    rcases hr' with hr' | rfl
    · exact hI.ack r' hr'
    · exact ⟨hr, by simp only; omega⟩
  · rw [List.pairwise_append]
    refine ⟨hI.ack_order, List.pairwise_singleton _ _, fun a ha b hb => ?_⟩
    obtain rfl := List.mem_singleton.mp hb
    have := (hI.ack a ha).1
    omega

/-! ## Loss -/

/-- Losing (or ignoring) any messages on either link keeps the invariant. -/
theorem lose (hI : Inv W K h) {ws as : List ℕ} (hw : ws.Sublist h.wire)
    (ha : as.Sublist h.acks) : Inv W K { h with wire := ws, acks := as } :=
  { hI with
    wire := fun i hi => hI.wire i (hw.subset hi)
    wire_order := hI.wire_order.sublist hw
    buf_wire := fun j hj i hi => hI.buf_wire j hj i (hw.subset hi)
    ack := fun r hr => hI.ack r (ha.subset hr)
    ack_order := hI.ack_order.sublist ha }

end Inv

end Lib.SlidingWindow
