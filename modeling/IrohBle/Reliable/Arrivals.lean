import IrohBle.Reliable.Pair
import Mathlib.Order.Bounds.Basic

/-! # Reliable.Arrivals: the receiver under loss, duplication and reordering

A stream of fragments numbered `0, 1, 2, …`, each sent under its number modulo sixteen. Any
of them may arrive, any number of times and in any order, with any second header byte, as
long as its number is at most ten behind and at most five ahead of what the receiver waits
for. The receiver's own calls of `next_send_action` may come in between.

* `exact_step`: an arrival adds its fragment to those the receiver has, and nothing else.
* `receive_exact`: the receiver waits for the least number that has not arrived, and what it
  has delivered is what the fragments below deliver when they are fed in order.
-/

namespace IrohBle.Reliable

open ReliableChannel Lib

/-- What a sender may send: every fragment is recognised as data. -/
structure FragmentStream where
  frag : ℕ → FragmentEntry
  hasData : ∀ i, ((frag i).first || (frag i).last || !(frag i).payload.isEmpty) = true

namespace FragmentStream

/-- The fragments below `n`. -/
def below (fs : FragmentStream) (n : ℕ) : List FragmentEntry := (List.range n).map fs.frag

/-- The message that carries the fragment `i`. -/
def message (fs : FragmentStream) (i : ℕ) (b1 : UInt8) : Bytes :=
  dataByte (UInt8.ofNat (i % 16)) (fs.frag i).first (fs.frag i).last :: b1 ::
    ((fs.frag i).payload ++ [fragmentCanary])

theorem below_getElem (fs : FragmentStream) {i n : ℕ} (h : i < n) :
    (fs.below n)[i]? = some (fs.frag i) := by
  simp [below, h]

theorem below_take (fs : FragmentStream) {n m : ℕ} (h : n ≤ m) : (fs.below m).take n = fs.below n := by
  unfold below
  rw [← List.map_take, List.take_range, Nat.min_eq_left h]

end FragmentStream

/-- The receiver, with the number it waits for and what has arrived. -/
structure Receiver where
  ch : ReliableChannel
  /-- Unwrapped `recv_next`. -/
  next : ℕ
  arrived : List ℕ

/-- What may happen to the receiver. -/
inductive Arrival where
  /-- The fragment `i` arrives with `b1` for its second header byte. -/
  | fragment (i : ℕ) (b1 : UInt8) (now : ℕ)
  /-- A call of `next_send_action` on the receiver's side. -/
  | send (now : ℕ)
deriving DecidableEq, Repr

namespace Receiver

variable (fs : FragmentStream)

/-- One call of `receive_fragment`. -/
def receive (i : ℕ) (b1 : UInt8) (now : ℕ) (r : Receiver) : Receiver :=
  let ch := receiveFragment now (fs.message i b1) r.ch
  { ch := ch
    next := unwrap r.next r.ch.state.recvNext ch.state.recvNext
    arrived := i :: r.arrived }

/-- One arrival, within the range the receiver can tell apart, or one call on its own side. -/
def step : Arrival → Receiver → Option Receiver
  | .fragment i b1 now, r =>
    if r.next ≤ i + 10 ∧ i ≤ r.next + 5 then some (r.receive fs i b1 now) else none
  | .send now, r => some { r with ch := (nextSendAction now r.ch).1 }

/-- A receiver with a fresh channel. -/
def start (chunkSize now : ℕ) : Receiver := ⟨ReliableChannel.new chunkSize now, 0, []⟩

/-- The receiver of a stream as a transition system. -/
def system : System Receiver Arrival where
  Init r := ∃ chunkSize now, r = start chunkSize now
  step := step fs

/-- What the receiver has is what has arrived. -/
structure Exact (r : Receiver) : Prop where
  receives : ∀ n, r.next + 6 ≤ n → Receives (fs.below n) r.next r.ch
  settled : Settled r.next r.ch
  near : ∀ j ∈ heldIdx r.next r.ch, j < r.next + 6
  arrived : ∀ j, j ∈ r.arrived ↔ Has r.next r.ch j

variable {fs}

/-- A fresh receiver has exactly what has arrived, namely nothing. -/
theorem exact_start (chunkSize now : ℕ) : Exact fs (start chunkSize now) where
  receives := by
    intro n _
    constructor
    · exact wraps_zero
    · exact List.forall_mem_nil _
    · exact List.forall_mem_nil _
    · rfl
    · intro v hv
      cases hv
  settled := ⟨List.nodup_nil, List.not_mem_nil⟩
  near := List.forall_mem_nil _
  arrived := by
    intro j
    simp [start, Has, heldIdx, ReliableChannel.new]

/-- Sending leaves the receiving half alone. -/
theorem nextSendAction_recvPart (now : ℕ) (ch : ReliableChannel) :
    recvPart (nextSendAction now ch).1 = recvPart ch ∧
      ((nextSendAction now ch).1.state.ackPending = none ∨
        (nextSendAction now ch).1.state.ackPending = ch.state.ackPending) := by
  obtain ⟨-, -, -, hrp, hap⟩ := refill_frame ch
  have hact := nextSendAction_cases now ch
  generalize nextSendAction now ch = r at hact
  cases hact with
  | dead _ => exact ⟨rfl, Or.inr rfl⟩
  | @data frag rest _ _ _ =>
      obtain ⟨-, -, -, -, -, -, hpart, hack, -⟩ := sendFragment_spec now frag rest (refill ch) rfl
      exact ⟨hpart.trans hrp, Or.inl hack⟩
  | pureAck _ _ _ => exact ⟨hrp, Or.inl rfl⟩
  | wait _ _ _ => exact ⟨hrp, Or.inr hap⟩

/-- A call of the sending half leaves the received part alone. -/
theorem Exact.send {r : Receiver} (h : r.Exact fs) (now : ℕ) :
    Exact fs { r with ch := (nextSendAction now r.ch).1 } := by
  obtain ⟨hpart, hack⟩ := nextSendAction_recvPart now r.ch
  have hheld := heldIdx_congr (n := r.next) hpart
  refine ⟨?_, ?_, ?_, ?_⟩
  · intro n hn
    exact (h.receives n hn).congr hpart hack
  · exact ⟨by rw [hheld]; exact h.settled.nodup, by rw [hheld]; exact h.settled.next⟩
  · rw [hheld]
    exact h.near
  · intro j
    show _ ↔ j < r.next ∨ j ∈ heldIdx r.next (nextSendAction now r.ch).1
    rw [hheld]
    exact h.arrived j

/-- An arrival adds its fragment to what the receiver has. -/
theorem Exact.receive {r : Receiver} (h : r.Exact fs) {i : ℕ} (hold : r.next ≤ i + 10)
    (hnew : i ≤ r.next + 5) (b1 : UInt8) (now : ℕ) : Exact fs (r.receive fs i b1 now) := by
  have hseq : Wraps (UInt8.ofNat (i % 16)) i := by
    unfold Wraps
    rw [UInt8.toNat_ofNat']
    omega
  -- the acknowledgement is read first, and leaves the receiving half alone
  obtain ⟨hpart, hack⟩ := readAck_recvPart now b1 r.ch
  have hheld := heldIdx_congr (n := r.next) hpart
  have hset : Settled r.next (readAck now b1 r.ch) :=
    ⟨by rw [hheld]; exact h.settled.nodup, by rw [hheld]; exact h.settled.next⟩
  have hhad : ∀ j, Has r.next (readAck now b1 r.ch) j ↔ Has r.next r.ch j := by
    intro j
    unfold Has
    rw [hheld]
  have hch : receiveFragment now (fs.message i b1) r.ch =
      receiveData now (UInt8.ofNat (i % 16)) (fs.frag i).first (fs.frag i).last (fs.frag i).payload
        (readAck now b1 r.ch) :=
    receiveFragment_message now hseq b1 (fs.hasData i) r.ch
  -- where the receiver gets to does not depend on how much of the stream is looked at
  have hreach : ∀ n, r.next + 6 ≤ n →
      ∃ m, r.next ≤ m ∧ m ≤ r.next + 6 ∧ (r.receive fs i b1 now).next = m ∧
        Receives (fs.below n) m (receiveFragment now (fs.message i b1) r.ch) ∧
        Settled m (receiveFragment now (fs.message i b1) r.ch) ∧
        ∀ j, Has m (receiveFragment now (fs.message i b1) r.ch) j ↔ Has r.next r.ch j ∨ j = i := by
    intro n hn
    have hR := (h.receives n hn).congr hpart (Or.inr hack)
    obtain ⟨m, hm, hRm, hsetm, hhas⟩ :=
      hR.offer hset hseq (fs.below_getElem (by omega)) hold (by omega) now
    rw [← hch] at hRm hsetm hhas
    have hhas' : ∀ j, Has m (receiveFragment now (fs.message i b1) r.ch) j ↔
        Has r.next r.ch j ∨ j = i := by
      intro j
      rw [hhas j, hhad j]
    have hle : m ≤ r.next + 6 := by
      by_cases hlt : m ≤ r.next
      · omega
      · -- the last fragment accepted had been held, or has just arrived
        have hlast : Has m (receiveFragment now (fs.message i b1) r.ch) (m - 1) :=
          Or.inl (by omega)
        rcases (hhas' (m - 1)).mp hlast with (hbelow | hin) | heq
        · omega
        · have := h.near _ hin
          omega
        · omega
    have hnext : (r.receive fs i b1 now).next = m :=
      unwrap_eq (h.receives n hn).wraps hRm.wraps hm (by omega)
    exact ⟨m, hm, hle, hnext, hRm, hsetm, hhas'⟩
  obtain ⟨m, hm, -, hnext, -, hsetm, hhas⟩ := hreach (r.next + 6) (le_refl _)
  refine ⟨?_, ?_, ?_, ?_⟩
  · intro n hn
    rw [hnext] at hn
    obtain ⟨m', -, -, hnext', hRm, -, -⟩ := hreach n (by omega)
    rw [hnext']
    exact hRm
  · rw [hnext]
    exact hsetm
  · rw [hnext]
    intro j hj
    rcases (hhas j).mp (Or.inr hj) with (hbelow | hin) | heq
    · omega
    · have := h.near j hin
      omega
    · omega
  · intro j
    rw [hnext]
    show j ∈ i :: r.arrived ↔ Has m (receiveFragment now (fs.message i b1) r.ch) j
    rw [hhas j, List.mem_cons, h.arrived j, or_comm]

/-- An arrival adds its fragment to those the receiver has, and nothing else. -/
theorem exact_step {r r' : Receiver} {l : Arrival} (h : r.Exact fs)
    (hs : (system fs).step l r = some r') : r'.Exact fs := by
  cases l with
  | fragment i b1 now =>
      change (if _ then some _ else none) = _ at hs
      split at hs
      · rename_i hnear
        obtain rfl := Option.some.inj hs
        exact h.receive hnear.1 hnear.2 b1 now
      · cases hs
  | send now =>
      obtain rfl := Option.some.inj hs
      exact h.send now

/-- In every state of every schedule, the receiver waits for the least number that has not
arrived, and has delivered what the fragments below it deliver in order, each once. -/
theorem receive_exact {h : List (Receiver × Arrival)} {r : Receiver} (hrun : (system fs).Run h r)
    (chunkSize now : ℕ) :
    IsLeast {i | i ∉ r.arrived} r.next ∧ Wraps r.ch.state.recvNext r.next ∧
      r.ch.datagramTx =
        (feed now (fs.below r.next) (ReliableChannel.new chunkSize now)).datagramTx := by
  have hexact : r.Exact fs := by
    refine hrun.invariant_all ?_ ?_
    · rintro r ⟨c, t, rfl⟩
      exact exact_start c t
    · intro r l r' hr hs
      exact exact_step hr hs
  have hR := hexact.receives (r.next + 6) (le_refl _)
  refine ⟨⟨?_, ?_⟩, hR.wraps, ?_⟩
  · show r.next ∉ r.arrived
    rw [hexact.arrived]
    rintro (hlt | hin)
    · omega
    · exact hexact.settled.next hin
  · intro i hi
    rcases Nat.lt_or_ge i r.next with hlt | hge
    · exact absurd ((hexact.arrived i).mpr (Or.inl hlt)) hi
    · exact hge
  · have hasm := hR.asm
    rw [fs.below_take (by omega)] at hasm
    have hfeed := feed_asm now (fs.below r.next) (ReliableChannel.new chunkSize now)
    exact (congrArg Asm.delivered hasm).trans (congrArg Asm.delivered hfeed).symm

theorem init_start (chunkSize now : ℕ) : (system fs).Init (start chunkSize now) :=
  ⟨chunkSize, now, rfl⟩

/-- Datagrams of two bytes, each cut in two. -/
def twoByteStream : FragmentStream where
  frag i := ⟨[UInt8.ofNat i], i % 2 == 0, i % 2 == 1⟩
  hasData := by
    intro i
    simp

/-- Eighteen fragments, past the end of the sequence numbers: some early, some twice, and one
acknowledgement sent on the way. -/
def shuffledRun : List Arrival :=
  [1, 0, 0, 2, 5, 4, 3, 6, 7, 9, 8, 10].map (fun i => .fragment i 0x1F 0) ++ [.send (millis 20)] ++
    [11, 12, 3, 13, 14, 15, 17, 16, 9].map (fun i => .fragment i 0 0)

/-- A run in which fragments arrive out of order and repeated, past a wrap of the counter. -/
theorem receive_exact_shuffledRun :
    ∃ h r, (system twoByteStream).Run h r ∧ h.map Prod.snd = shuffledRun ∧ r.next = 18 ∧
      r.ch.state.recvNext = 2 ∧ r.ch.datagramTx.length = 9 ∧ IsLeast {i | i ∉ r.arrived} r.next ∧
      r.ch.datagramTx =
        (feed 0 (twoByteStream.below 18) (ReliableChannel.new 20 0)).datagramTx := by
  obtain ⟨h, r, hrun, hl, hnext, hrecv, hlen⟩ := System.Run.of_exec
    (P := fun r : Receiver => r.next = 18 ∧ r.ch.state.recvNext = 2 ∧ r.ch.datagramTx.length = 9)
    shuffledRun (init_start 20 0 : (system twoByteStream).Init (start 20 0)) (by decide +kernel)
  obtain ⟨hleast, -, htx⟩ := receive_exact hrun 20 0
  rw [hnext] at htx
  exact ⟨h, r, hrun, hl, hnext, hrecv, hlen, hleast, htx⟩

end Receiver

end IrohBle.Reliable
