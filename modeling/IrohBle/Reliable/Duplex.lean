import IrohBle.Lib.System
import IrohBle.Lib.SlidingWindow
import IrohBle.Reliable.Reassembly

/-! # Reliable.Duplex: two channels over two lossy FIFO links

Two `ReliableChannel`s joined by one link each way. A link may lose any message
but neither reorders nor invents one. Any interleaving of `enqueueDatagram`,
`nextSendAction`, the retransmission step of `run_send_loop`, `receiveFragment`,
`setChunkSize` and losses is a run.

History variables never feed back into a step: `Side.base`, `Side.next` and
`Side.rcvd` unwrap the 4-bit counters of the channel, `Packet.idx` is the absolute
number of the fragment a message carries, and `Packet.ack` is the value of
`rcvd` when its ACK byte was written. A stored message keeps that stamp, so a
retransmission without a pending acknowledgement shows how old its ACK byte is.
-/

namespace IrohBle.Reliable

open ReliableChannel Lib

/-- A message on the air. -/
structure Packet where
  bytes : Bytes
  /-- Absolute number of the fragment carried, if any. -/
  idx : Option ℕ
  /-- Absolute `recv_next` of the sender when the ACK byte was written. -/
  ack : Option ℕ
deriving DecidableEq, Repr

/-- One endpoint: its channel and the history variables. -/
structure Side where
  ch : ReliableChannel
  /-- Unwrapped `send_base`. -/
  base : ℕ
  /-- Unwrapped `send_next`. -/
  next : ℕ
  /-- Unwrapped `recv_next`. -/
  rcvd : ℕ
  /-- `in_flight` with its stamps. -/
  flight : List Packet
  /-- Every fragment given a sequence number, in order. -/
  sent : List FragmentEntry
  /-- Every datagram `enqueue_datagram` accepted, in order. -/
  accepted : List Bytes

/-- Follow a 4-bit counter: `n` counted `old`, now the counter shows `new`. -/
def unwrap (n : ℕ) (old new : UInt8) : ℕ := n + (seqDist old new).toNat

namespace Side

/-- A side at the start. -/
def fresh (chunkSize : ℕ) (now : ℕ) : Side :=
  ⟨ReliableChannel.new chunkSize now, 0, 0, 0, [], [], []⟩

/-- `enqueue_datagram`, noting what was accepted. -/
def enqueue (d : Bytes) (p : Side) : Side :=
  let r := enqueueDatagram d p.ch
  { p with ch := r.1, accepted := if r.2 then p.accepted ++ [d] else p.accepted }

/-- `set_chunk_size`. -/
def setChunkSize (n : ℕ) (p : Side) : Side := { p with ch := p.ch.setChunkSize n }

/-- The stamp of an ACK byte written now. -/
def stamp (p : Side) : Option ℕ :=
  if p.ch.state.ackPending.isSome then some p.rcvd else none

/-- One call of `next_send_action`, and the message it puts on the link. -/
def send (now : ℕ) (p : Side) : Side × Option Packet :=
  let r := nextSendAction now p.ch
  match r.2 with
  | .send msg =>
    let isData := p.ch.state.inFlight.length < r.1.state.inFlight.length
    let k : Packet := ⟨msg, if isData then some p.next else none, p.stamp⟩
    ({ p with
       ch := r.1
       next := unwrap p.next p.ch.state.sendNext r.1.state.sendNext
       flight := if isData then p.flight ++ [k] else p.flight
       sent := if isData then p.sent ++ (refill p.ch).state.fragQueue.take 1 else p.sent },
      some k)
  | _ => ({ p with ch := r.1 }, none)

/-- The retransmission step, and the message it puts on the link. -/
def resend (p : Side) : Side × Option Packet :=
  let r := resendFront p.ch
  match r.2, p.flight with
  | some msg, stored :: _ =>
    ({ p with ch := r.1 }, some ⟨msg, stored.idx, p.stamp.or stored.ack⟩)
  | _, _ => ({ p with ch := r.1 }, none)

/-- One call of `receive_fragment`. -/
def receive (now : ℕ) (k : Packet) (p : Side) : Side :=
  let ch := receiveFragment now k.bytes p.ch
  { p with
    ch := ch
    base := unwrap p.base p.ch.state.sendBase ch.state.sendBase
    rcvd := unwrap p.rcvd p.ch.state.recvNext ch.state.recvNext
    flight := p.flight.drop (p.flight.length - ch.state.inFlight.length) }

end Side

/-- The two ends of the pair. -/
inductive Node where
  | a
  | b
deriving DecidableEq, Repr

/-- The end across. -/
def Node.other : Node → Node
  | .a => .b
  | .b => .a

@[simp] theorem Node.other_other (w : Node) : w.other.other = w := by
  cases w <;> rfl

@[simp] theorem Node.other_ne (w : Node) : w.other ≠ w := by
  cases w <;> decide

theorem Node.eq_or_eq_other (v w : Node) : v = w ∨ v = w.other := by
  cases v <;> cases w <;> simp [Node.other]

/-- The two endpoints, the link out of each, and the clock. -/
structure Duplex where
  side : Node → Side
  link : Node → List Packet
  clock : ℕ

/-- The steps of the pair. -/
inductive DuplexLabel where
  | enqueue (w : Node) (d : Bytes)
  | setChunkSize (w : Node) (n : ℕ)
  | send (w : Node) (now : ℕ)
  | resend (w : Node)
  | receive (w : Node) (now : ℕ)
  /-- The link out of `w` loses its `i`-th message. -/
  | lose (w : Node) (i : ℕ)
deriving DecidableEq, Repr

namespace Duplex

/-- One step of one side, or a loss on one link. -/
def step : DuplexLabel → Duplex → Option Duplex
  | .enqueue w d, s => some { s with side := Function.update s.side w ((s.side w).enqueue d) }
  -- a chunk holds at least a header, the canary and one byte
  | .setChunkSize w n, s =>
    if 4 ≤ n then
      some { s with side := Function.update s.side w ((s.side w).setChunkSize n) }
    else none
  -- the clock does not go back
  | .send w now, s =>
    if s.clock ≤ now then
      let r := (s.side w).send now
      some ⟨Function.update s.side w r.1,
        Function.update s.link w (s.link w ++ r.2.toList), now⟩
    else none
  | .resend w, s =>
    let r := (s.side w).resend
    some { s with
      side := Function.update s.side w r.1
      link := Function.update s.link w (s.link w ++ r.2.toList) }
  -- messages arrive in the order in which they were sent, unless they are lost
  | .receive w now, s =>
    match s.link w.other with
    | [] => none
    | k :: ks =>
      if s.clock ≤ now then
        some ⟨Function.update s.side w ((s.side w).receive now k),
          Function.update s.link w.other ks, now⟩
      else none
  | .lose w i, s => some { s with link := Function.update s.link w ((s.link w).eraseIdx i) }

/-- Two fresh channels, whatever their chunk sizes, and empty links. -/
def start (chunkSize : Node → ℕ) (now : ℕ) : Duplex :=
  ⟨fun w => Side.fresh (chunkSize w) now, fun _ => [], now⟩

/-- The pair as a transition system, for chunk sizes that fit a fragment. -/
def system : System Duplex DuplexLabel where
  Init s := ∃ (chunkSize : Node → ℕ) (now : ℕ), (∀ w, 4 ≤ chunkSize w) ∧
    s = start chunkSize now
  step := step

/-- Only a fragment that is on the link is received. -/
theorem receive_eq {s s' : Duplex} {w : Node} {now : ℕ}
    (hs : system.step (.receive w now) s = some s') :
    ∃ k ks, s.link w.other = k :: ks ∧
      s' = ⟨Function.update s.side w ((s.side w).receive now k),
        Function.update s.link w.other ks, now⟩ := by
  simp only [system, step] at hs
  split at hs
  · cases hs
  · rename_i k ks hlink
    split at hs
    · exact ⟨k, ks, hlink, (Option.some.inj hs).symm⟩
    · cases hs

end Duplex

/-! ## The receiver against the fragments the peer has sent -/

/-- Absolute number of a buffered fragment while `recv_next = u` counts `n`. -/
def absIdx (n : ℕ) (u : UInt8) (f : BufferedFragment) : ℕ := n + (seqDist u f.seq).toNat

/-- Absolute numbers of the buffered fragments. -/
def heldIdx (n : ℕ) (ch : ReliableChannel) : List ℕ :=
  ch.state.recvBuf.map (absIdx n ch.state.recvNext)

/-- The receiver has accepted the first `n` of `sent`, and buffers others. -/
structure Receives (sent : List FragmentEntry) (n : ℕ) (ch : ReliableChannel) : Prop where
  wraps : Wraps ch.state.recvNext n
  seqs : ∀ f ∈ ch.state.recvBuf, f.seq.toNat < 16
  held : ∀ f ∈ ch.state.recvBuf,
    sent[absIdx n ch.state.recvNext f]? = some ⟨f.payload, f.first, f.last⟩
  asm : asmOf ch = acceptAll Asm.init (sent.take n)
  ack : ∀ v, ch.state.ackPending = some v → Wraps v (n + 15)

/-- The absolute number of a buffered fragment. -/
theorem absIdx_toNat {n : ℕ} {u : UInt8} {f : BufferedFragment} (hu : Wraps u n)
    (hf : f.seq.toNat < 16) : absIdx n u f = n + (f.seq.toNat + 16 - n % 16) % 16 := by
  have hs : Wraps f.seq f.seq.toNat := (Nat.mod_eq_of_lt hf).symm
  unfold absIdx
  rw [seqDist_toNat hu hs, Nat.mod_eq_of_lt hf]

/-- Within sixteen numbers of `recv_next` a sequence byte names one fragment. -/
theorem absIdx_eq_iff {n i : ℕ} {u seq : UInt8} {f : BufferedFragment} (hu : Wraps u n)
    (hf : f.seq.toNat < 16) (hseq : Wraps seq i) (h1 : n ≤ i) (h2 : i < n + 16) :
    f.seq = seq ↔ absIdx n u f = i := by
  rw [absIdx_toNat hu hf, ← UInt8.toNat_inj, hseq]
  omega

/-- What is buffered under a number is held under the absolute number. -/
theorem isBuffered_iff {sent : List FragmentEntry} {n i : ℕ} {ch : ReliableChannel} {seq : UInt8}
    (hR : Receives sent n ch) (hseq : Wraps seq i) (h1 : n ≤ i) (h2 : i < n + 16) :
    ch.state.isBuffered seq = true ↔ i ∈ heldIdx n ch := by
  unfold ChannelState.isBuffered heldIdx
  simp only [List.any_eq_true, beq_iff_eq, List.mem_map]
  constructor
  · rintro ⟨f, hf, he⟩
    exact ⟨f, hf, (absIdx_eq_iff hR.wraps (hR.seqs f hf) hseq h1 h2).mp he⟩
  · rintro ⟨f, hf, he⟩
    exact ⟨f, hf, (absIdx_eq_iff hR.wraps (hR.seqs f hf) hseq h1 h2).mpr he⟩

/-- Accepting the fragment `n` moves the receiver to `n + 1` and keeps the
numbers of what it buffers. -/
theorem Receives.accept {sent : List FragmentEntry} {n : ℕ} {ch : ReliableChannel}
    (hR : Receives sent n ch) {f : FragmentEntry} (hf : sent[n]? = some f)
    (hn : n ∉ heldIdx n ch) (now : ℕ) :
    Receives sent (n + 1) (acceptAndDeliver now f.first f.last f.payload ch) ∧
    heldIdx (n + 1) (acceptAndDeliver now f.first f.last f.payload ch) = heldIdx n ch := by
  obtain ⟨hnext, hbuf, hack⟩ := acceptAndDeliver_recv now f.first f.last f.payload ch
  have hw' : Wraps (acceptAndDeliver now f.first f.last f.payload ch).state.recvNext (n + 1) := by
    rw [hnext]
    exact hR.wraps.succ
  -- a buffered fragment is at distance at least one, so its number does not move
  have habs : ∀ g ∈ ch.state.recvBuf,
      absIdx (n + 1) (acceptAndDeliver now f.first f.last f.payload ch).state.recvNext g =
        absIdx n ch.state.recvNext g := by
    intro g hg
    have hne : absIdx n ch.state.recvNext g ≠ n := by
      intro he
      exact hn (List.mem_map.mpr ⟨g, hg, he⟩)
    have h1 := absIdx_toNat hR.wraps (hR.seqs g hg)
    have h2 := absIdx_toNat hw' (hR.seqs g hg)
    rw [h1] at hne ⊢
    rw [h2]
    have := hR.seqs g hg
    omega
  constructor
  · constructor
    · exact hw'
    · rw [hbuf]
      exact hR.seqs
    · rw [hbuf]
      intro g hg
      rw [habs g hg]
      exact hR.held g hg
    · rw [acceptAndDeliver_asm, hR.asm, List.take_add_one, hf]
      simp [acceptAll, List.foldl_append]
    · intro v hv
      rw [hack, Option.some.injEq] at hv
      subst hv
      exact hw'.pred
  · unfold heldIdx
    rw [hbuf]
    exact List.map_congr_left habs

theorem le_of_mem_heldIdx {n j : ℕ} {ch : ReliableChannel} (h : j ∈ heldIdx n ch) : n ≤ j := by
  obtain ⟨g, -, rfl⟩ := List.mem_map.mp h
  exact Nat.le_add_right n _

/-- Nothing is buffered twice, and the next fragment is not in the buffer. -/
structure Settled (n : ℕ) (ch : ReliableChannel) : Prop where
  nodup : (heldIdx n ch).Nodup
  next : n ∉ heldIdx n ch

/-- The receiver has `j`: accepted, or in its buffer. -/
def Has (n : ℕ) (ch : ReliableChannel) (j : ℕ) : Prop := j < n ∨ j ∈ heldIdx n ch

/-- `drain_recv_buf` accepts out of the buffer until the next fragment is
missing. -/
theorem Receives.drain {sent : List FragmentEntry} {n : ℕ} {ch : ReliableChannel} (k : ℕ)
    (hR : Receives sent n ch) (hnd : (heldIdx n ch).Nodup) (hk : ch.state.recvBuf.length ≤ k)
    (now : ℕ) :
    ∃ m, n ≤ m ∧ Receives sent m (drainLoop now k ch) ∧ Settled m (drainLoop now k ch) ∧
      ∀ j, Has m (drainLoop now k ch) j ↔ Has n ch j := by
  induction k generalizing n ch with
  | zero =>
      have hnil : ch.state.recvBuf = [] := List.length_eq_zero_iff.mp (by omega)
      have hheld : heldIdx n ch = [] := by simp [heldIdx, hnil]
      exact ⟨n, le_refl n, hR, ⟨hnd, by simp [drainLoop, hheld]⟩, fun j => Iff.rfl⟩
  | succ k ih =>
      have hiff : ∀ g ∈ ch.state.recvBuf,
          (g.seq == ch.state.recvNext) = true ↔ absIdx n ch.state.recvNext g = n := by
        intro g hg
        rw [beq_iff_eq]
        exact absIdx_eq_iff hR.wraps (hR.seqs g hg) hR.wraps (le_refl n) (by omega)
      unfold drainLoop
      split
      · -- the gap is not filled: the loop stops here
        rename_i hnone
        refine ⟨n, le_refl n, hR, ⟨hnd, ?_⟩, fun j => Iff.rfl⟩
        intro hmem
        obtain ⟨g, hg, he⟩ := List.mem_map.mp hmem
        exact absurd ((hiff g hg).mpr he) (List.find?_eq_none.mp hnone g hg)
      · rename_i frag hsome
        have hfm : frag ∈ ch.state.recvBuf := List.mem_of_find?_eq_some hsome
        have hfb : (frag.seq == ch.state.recvNext) = true := by
          have := List.find?_some hsome
          exact this
        have hfi : absIdx n ch.state.recvNext frag = n := (hiff frag hfm).mp hfb
        have hfs : sent[n]? = some ⟨frag.payload, frag.first, frag.last⟩ := by
          have := hR.held frag hfm
          rwa [hfi] at this
        -- the channel with `frag` taken out of its buffer
        set ch₁ : ReliableChannel := { ch with state := { ch.state with
          recvBuf := ch.state.recvBuf.eraseP (·.seq == ch.state.recvNext) } } with hch₁
        have hsub : ∀ g ∈ ch₁.state.recvBuf, g ∈ ch.state.recvBuf :=
          fun g hg => List.mem_of_mem_eraseP hg
        have herase : heldIdx n ch₁ = (heldIdx n ch).erase n := map_eraseP hiff
        have hnmem : n ∉ heldIdx n ch₁ := by
          rw [herase]
          exact hnd.not_mem_erase
        have hR₁ : Receives sent n ch₁ :=
          ⟨hR.wraps, fun g hg => hR.seqs g (hsub g hg), fun g hg => hR.held g (hsub g hg),
            hR.asm, hR.ack⟩
        obtain ⟨hR₂, hidx⟩ := hR₁.accept hfs hnmem now
        have hlen : (acceptAndDeliver now frag.first frag.last frag.payload ch₁).state.recvBuf.length
            ≤ k := by
          rw [(acceptAndDeliver_recv now frag.first frag.last frag.payload ch₁).2.1]
          show (ch.state.recvBuf.eraseP _).length ≤ k
          rw [List.length_eraseP_of_mem hfm hfb]
          omega
        obtain ⟨m, hm, hRm, hset, hhas⟩ := ih hR₂ (by rw [hidx, herase]; exact hnd.erase n) hlen
        refine ⟨m, by omega, hRm, hset, ?_⟩
        intro j
        rw [hhas j]
        unfold Has
        rw [hidx, herase, hnd.mem_erase_iff]
        have hmem : n ∈ heldIdx n ch := List.mem_map.mpr ⟨frag, hfm, hfi⟩
        by_cases hj : j = n
        · subst hj
          exact iff_of_true (Or.inl (by omega)) (Or.inr hmem)
        · constructor
          · rintro (hlt | ⟨-, hheld⟩)
            · exact Or.inl (by omega)
            · exact Or.inr hheld
          · rintro (hlt | hheld)
            · exact Or.inl (by omega)
            · exact Or.inr ⟨hj, hheld⟩

/-- Acknowledging again changes nothing that has been received. -/
theorem Receives.reAck {sent : List FragmentEntry} {n : ℕ} {ch : ReliableChannel}
    (hR : Receives sent n ch) (now : ℕ) : Receives sent n (reAck now ch) where
  wraps := hR.wraps
  seqs := hR.seqs
  held := hR.held
  asm := hR.asm
  ack := by
    intro v hv
    have hv' : some ((ch.state.recvNext + seqModulus - 1) % seqModulus) = some v := hv
    rw [Option.some.injEq] at hv'
    subst hv'
    exact hR.wraps.pred

/-- Buffering the fragment `i`. -/
theorem Receives.hold {sent : List FragmentEntry} {n i : ℕ} {ch : ReliableChannel}
    (hR : Receives sent n ch) {seq : UInt8} {f : FragmentEntry} (hseq : Wraps seq i)
    (hf : sent[i]? = some f) (h1 : n ≤ i) (h2 : i < n + 16) {ch' : ReliableChannel}
    (hch : ch' = { ch with state := { ch.state with
      recvBuf := ch.state.recvBuf ++ [⟨seq, f.first, f.last, f.payload⟩] } }) :
    Receives sent n ch' ∧ heldIdx n ch' = heldIdx n ch ++ [i] := by
  subst hch
  have hlt : seq.toNat < 16 := by
    rw [hseq]
    exact Nat.mod_lt _ (by omega)
  have habs : absIdx n ch.state.recvNext ⟨seq, f.first, f.last, f.payload⟩ = i :=
    (absIdx_eq_iff hR.wraps hlt hseq h1 h2).mp rfl
  constructor
  · constructor
    · exact hR.wraps
    · intro g hg
      rcases List.mem_append.mp hg with hg | hg
      · exact hR.seqs g hg
      · rw [List.mem_singleton.mp hg]
        exact hlt
    · intro g hg
      rcases List.mem_append.mp hg with hg | hg
      · exact hR.held g hg
      · rw [List.mem_singleton.mp hg, habs]
        exact hf
    · exact hR.asm
    · exact hR.ack
  · unfold heldIdx
    simp only [List.map_append, List.map_cons, List.map_nil, habs]

/-- A fragment that arrives is accepted, buffered or ignored as its absolute number says: the
receiver has what it had, and this fragment. Sixteen numbers around `n` are told apart. -/
theorem Receives.offer {sent : List FragmentEntry} {n i : ℕ} {ch : ReliableChannel}
    (hR : Receives sent n ch) (hset : Settled n ch) {seq : UInt8} {f : FragmentEntry}
    (hseq : Wraps seq i) (hf : sent[i]? = some f) (hold : n ≤ i + 10) (hnew : i < n + 6)
    (now : ℕ) :
    ∃ m, n ≤ m ∧ Receives sent m (receiveData now seq f.first f.last f.payload ch) ∧
      Settled m (receiveData now seq f.first f.last f.payload ch) ∧
      ∀ j, Has m (receiveData now seq f.first f.last f.payload ch) j ↔ Has n ch j ∨ j = i := by
  have hdist := seqDist_toNat hR.wraps hseq
  have hne : i ≠ n → ¬ seq = ch.state.recvNext := by
    intro hi' he
    have h1 : seq.toNat = i % 16 := hseq
    have h2 : ch.state.recvNext.toNat = n % 16 := hR.wraps
    rw [he] at h1
    omega
  -- nothing changes for a fragment the receiver has
  have hhad : Has n ch i → ∀ j, Has n ch j ↔ Has n ch j ∨ j = i := by
    intro hi j
    constructor
    · exact Or.inl
    · rintro (hj | rfl)
      · exact hj
      · exact hi
  rcases Nat.lt_trichotomy i n with hlt | heq | hgt
  · -- an old fragment again: only the acknowledgement is repeated
    have hout : ch.state.inRecvWindow seq = false := by
      unfold ChannelState.inRecvWindow
      rw [decide_eq_false_iff_not, UInt8.lt_iff_toNat_lt, hdist]
      show ¬ _ < 6
      omega
    have heq : receiveData now seq f.first f.last f.payload ch = ReliableChannel.reAck now ch := by
      unfold receiveData
      rw [if_neg (hne (by omega)), hout]
      rfl
    rw [heq]
    exact ⟨n, le_refl n, hR.reAck now, ⟨hset.nodup, hset.next⟩, hhad (Or.inl hlt)⟩
  · -- the fragment the receiver waits for
    subst heq
    have hse : seq = ch.state.recvNext := hseq.inj hR.wraps
    obtain ⟨hR₁, hidx⟩ := hR.accept hf hset.next now
    obtain ⟨m, hm, hRm, hsetm, hhas⟩ :=
      hR₁.drain _ (by rw [hidx]; exact hset.nodup) (le_refl _) now
    have heq : receiveData now seq f.first f.last f.payload ch =
        drainRecvBuf now (acceptAndDeliver now f.first f.last f.payload ch) := by
      unfold receiveData
      rw [if_pos hse]
    rw [heq]
    refine ⟨m, by omega, hRm, hsetm, ?_⟩
    intro j
    refine (hhas j).trans ?_
    unfold Has
    rw [hidx]
    constructor
    · rintro (hlt | hheld)
      · rcases Nat.lt_or_ge j i with h | h
        · exact Or.inl (Or.inl h)
        · exact Or.inr (by omega)
      · exact Or.inl (Or.inr hheld)
    · rintro ((hlt | hheld) | rfl)
      · exact Or.inl (by omega)
      · exact Or.inr hheld
      · exact Or.inl (by omega)
  · -- ahead of the gap: buffered once
    have hin : ch.state.inRecvWindow seq = true := by
      unfold ChannelState.inRecvWindow
      rw [decide_eq_true_eq, UInt8.lt_iff_toNat_lt, hdist]
      show _ < 6
      omega
    have hbuf := isBuffered_iff hR hseq (Nat.le_of_lt hgt) (by omega)
    by_cases hb : i ∈ heldIdx n ch
    · have heq : receiveData now seq f.first f.last f.payload ch = ch := by
        unfold receiveData
        rw [if_neg (hne (by omega)), hin, hbuf.mpr hb]
        rfl
      rw [heq]
      exact ⟨n, le_refl n, hR, hset, hhad (Or.inr hb)⟩
    · have hb' : ch.state.isBuffered seq = false := by
        rw [Bool.eq_false_iff]
        exact fun hc => hb (hbuf.mp hc)
      obtain ⟨hR₁, hidx⟩ := hR.hold hseq hf (Nat.le_of_lt hgt) (by omega) rfl
      have heq : receiveData now seq f.first f.last f.payload ch =
          ReliableChannel.reAck now { ch with state := { ch.state with
            recvBuf := ch.state.recvBuf ++ [⟨seq, f.first, f.last, f.payload⟩] } } := by
        unfold receiveData
        rw [if_neg (hne (by omega)), hin, hb']
        rfl
      have hheld : heldIdx n (ReliableChannel.reAck now { ch with state := { ch.state with
          recvBuf := ch.state.recvBuf ++ [⟨seq, f.first, f.last, f.payload⟩] } }) =
          heldIdx n ch ++ [i] := hidx
      rw [heq]
      refine ⟨n, le_refl n, hR₁.reAck now, ⟨?_, ?_⟩, ?_⟩
      · rw [hheld, List.nodup_append]
        refine ⟨hset.nodup, List.nodup_singleton i, ?_⟩
        intro x hx y hy hxy
        obtain rfl := List.mem_singleton.mp hy
        exact hb (hxy ▸ hx)
      · rw [hheld]
        intro hmem
        rcases List.mem_append.mp hmem with hmem | hmem
        · exact hset.next hmem
        · have := List.mem_singleton.mp hmem
          omega
      · intro j
        unfold Has
        rw [hheld, List.mem_append, List.mem_singleton, or_assoc]

end IrohBle.Reliable
