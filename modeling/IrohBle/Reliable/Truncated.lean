import IrohBle.Reliable.Invariant

/-! # Reliable.Truncated: a fragment that lost its tail

The canary at the end of a data message is there to detect that a host stack has cut the
message short. `receive_fragment` looks for it only in messages longer than a header, since a
pure ACK has none, and decides by the header flags whether a message of two bytes is one.

* `receiveFragment_long`: a truncation longer than the header is dropped and counted.
* `truncated_iff`: a truncation leaves the receiving half alone, unless it is the bare header
  of a first or last fragment whose number the receiver takes.
-/

namespace IrohBle.Reliable

open ReliableChannel

/-- The receiver neither advances, nor buffers, nor reassembles, nor delivers. -/
structure Untouched (ch ch' : ReliableChannel) : Prop where
  recvNext : ch'.state.recvNext = ch.state.recvNext
  recvBuf : ch'.state.recvBuf = ch.state.recvBuf
  reassembly : ch'.state.reassembly = ch.state.reassembly
  delivered : ch'.datagramTx = ch.datagramTx

/-- Where the received part is the same, nothing is touched. -/
theorem Untouched.of_recvPart {ch ch' : ReliableChannel} (h : recvPart ch' = recvPart ch) :
    Untouched ch ch' where
  recvNext := congrArg RecvPart.recvNext h
  recvBuf := congrArg RecvPart.recvBuf h
  reassembly := congrArg RecvPart.reassembly h
  delivered := congrArg RecvPart.datagramTx h

/-- The receiver waits for `seq`, or has room for it ahead of the gap. -/
def Takes (ch : ReliableChannel) (seq : UInt8) : Prop :=
  seq = ch.state.recvNext ∨ (ch.state.inRecvWindow seq = true ∧ ch.state.isBuffered seq = false)

/-- The two header bytes of a first or last fragment that the receiver takes. -/
def BareHeader (ch : ReliableChannel) (value : Bytes) : Prop :=
  ∃ b0 b1, value = [b0, b1] ∧ ((b0 &&& flagFirst) != 0 || (b0 &&& flagLast) != 0) = true ∧
    Takes ch (b0 &&& seqMask)

/-- `drain_recv_buf` takes something out of the buffer, or leaves the receiver where it is. -/
theorem drainLoop_moves (now n : ℕ) (ch : ReliableChannel) :
    drainLoop now n ch = ch ∨
      (drainLoop now n ch).state.recvBuf.length < ch.state.recvBuf.length := by
  induction n generalizing ch with
  | zero => exact Or.inl rfl
  | succ n ih =>
      unfold drainLoop
      split
      · exact Or.inl rfl
      · rename_i frag hsome
        have hmem : frag ∈ ch.state.recvBuf := List.mem_of_find?_eq_some hsome
        have heq : (frag.seq == ch.state.recvNext) = true := by
          have := List.find?_some hsome
          exact this
        have hpos : 0 < ch.state.recvBuf.length := List.length_pos_of_mem hmem
        right
        dsimp only
        generalize hch₁ : acceptAndDeliver now frag.first frag.last frag.payload { ch with state :=
          { ch.state with recvBuf := ch.state.recvBuf.eraseP (·.seq == ch.state.recvNext) } } = ch₁
        have hlen : ch₁.state.recvBuf.length = ch.state.recvBuf.length - 1 := by
          rw [← hch₁, (acceptAndDeliver_recv now frag.first frag.last frag.payload _).2.1]
          exact List.length_eraseP_of_mem hmem heq
        rcases ih ch₁ with hstay | hless
        · rw [hstay, hlen]
          omega
        · omega

/-- A fragment the receiver takes moves `recv_next` or changes the buffer. -/
theorem receiveData_takes {ch : ReliableChannel} {seq : UInt8} (h : Takes ch seq) (now : ℕ)
    (first last : Bool) (payload : Bytes) :
    ¬ Untouched ch (receiveData now seq first last payload ch) := by
  intro hun
  by_cases heq : seq = ch.state.recvNext
  · have hdata : receiveData now seq first last payload ch =
        drainRecvBuf now (acceptAndDeliver now first last payload ch) := by
      unfold receiveData
      rw [if_pos heq]
    rw [hdata] at hun
    obtain ⟨hnext, hbuf, -⟩ := acceptAndDeliver_recv now first last payload ch
    generalize acceptAndDeliver now first last payload ch = ch₁ at hun hnext hbuf
    rcases drainLoop_moves now ch₁.state.recvBuf.length ch₁ with hstay | hless
    · -- nothing was buffered behind it: the counter has moved
      have hsame : (drainRecvBuf now ch₁).state.recvNext = ch.state.recvNext := hun.recvNext
      unfold drainRecvBuf at hsame
      rw [hstay, hnext] at hsame
      have hnat := congrArg UInt8.toNat hsame
      rw [toNat_succ_mod] at hnat
      omega
    · have hsame : (drainRecvBuf now ch₁).state.recvBuf.length = ch.state.recvBuf.length :=
        congrArg List.length hun.recvBuf
      unfold drainRecvBuf at hsame
      have hlen : ch₁.state.recvBuf.length = ch.state.recvBuf.length := congrArg List.length hbuf
      omega
  · rcases h with h | ⟨hin, hnot⟩
    · exact heq h
    · have hsame := congrArg List.length hun.recvBuf
      unfold receiveData at hsame
      rw [if_neg heq, hin, hnot] at hsame
      simp [ReliableChannel.reAck, notifyOne, ChannelState.scheduleAck] at hsame

/-- Any other fragment leaves the receiving half alone. -/
theorem receiveData_ignored {ch : ReliableChannel} {seq : UInt8} (h : ¬ Takes ch seq) (now : ℕ)
    (first last : Bool) (payload : Bytes) :
    recvPart (receiveData now seq first last payload ch) = recvPart ch := by
  have hne : seq ≠ ch.state.recvNext := fun he => h (Or.inl he)
  unfold receiveData
  rw [if_neg hne]
  split
  · rename_i hcond
    obtain ⟨hin, hnot⟩ := Bool.and_eq_true_iff.mp hcond
    exact absurd (Or.inr ⟨hin, by simpa using hnot⟩) h
  · split <;> rfl

/-- Two bytes are a pure ACK exactly if neither flag is set. -/
theorem receiveFragment_header (now : ℕ) (b0 b1 : UInt8) (ch : ReliableChannel) :
    Untouched ch (receiveFragment now [b0, b1] ch) ↔ ¬ BareHeader ch [b0, b1] := by
  obtain ⟨hpart, -⟩ := readAck_recvPart now b1 ch
  have hack := Untouched.of_recvPart hpart
  -- reading the acknowledgement does not change what the receiver takes
  have htakes : ∀ seq, Takes (readAck now b1 ch) seq ↔ Takes ch seq := by
    intro seq
    unfold Takes ChannelState.inRecvWindow ChannelState.isBuffered
    rw [hack.recvNext, hack.recvBuf]
  have hbare : BareHeader ch [b0, b1] ↔
      ((b0 &&& flagFirst) != 0 || (b0 &&& flagLast) != 0) = true ∧ Takes ch (b0 &&& seqMask) := by
    constructor
    · rintro ⟨c0, c1, heq, hflags, ht⟩
      simp only [List.cons.injEq] at heq
      rw [heq.1]
      exact ⟨hflags, ht⟩
    · rintro ⟨hflags, ht⟩
      exact ⟨b0, b1, rfl, hflags, ht⟩
  rw [hbare]
  show Untouched ch (receiveBody now b0 b1 [] ch) ↔ _
  rw [receiveBody_readAck]
  simp only [List.isEmpty_nil, Bool.not_true, Bool.or_false]
  by_cases hflags : ((b0 &&& flagFirst) != 0 || (b0 &&& flagLast) != 0) = true
  · rw [if_pos hflags]
    by_cases ht : Takes ch (b0 &&& seqMask)
    · refine iff_of_false ?_ (fun hn => hn ⟨hflags, ht⟩)
      intro hun
      refine receiveData_takes ((htakes _).mpr ht) now _ _ _
        ⟨hun.recvNext.trans hack.recvNext.symm, hun.recvBuf.trans hack.recvBuf.symm,
          hun.reassembly.trans hack.reassembly.symm, hun.delivered.trans hack.delivered.symm⟩
    · refine iff_of_true ?_ (fun hn => ht hn.2)
      have hignored := receiveData_ignored (fun h => ht ((htakes _).mp h)) now
        ((b0 &&& flagFirst) != 0) ((b0 &&& flagLast) != 0) []
      exact Untouched.of_recvPart (hignored.trans hpart)
  · rw [if_neg hflags]
    exact iff_of_true hack (fun hn => hflags hn.1)

/-- What is longer than a header and has no canary is dropped and counted. -/
theorem receiveFragment_long {value : Bytes} (hlen : 2 < value.length)
    (hlast : value.getLast? ≠ some fragmentCanary) (now : ℕ) (ch : ReliableChannel) :
    receiveFragment now value ch = { ch with truncationCounter := ch.truncationCounter + 1 } := by
  match value with
  | [] => simp at hlen
  | [_] => simp at hlen
  | [_, _] => simp at hlen
  | b0 :: b1 :: b2 :: rest =>
      have hrest : (b2 :: rest).getLast? ≠ some fragmentCanary := by
        simpa [List.getLast?_cons_cons] using hlast
      simp only [receiveFragment, hrest, ne_eq, not_false_eq_true, if_true]

/-- Bytes that do not end in a canary. -/
theorem receiveFragment_untouched_iff {value : Bytes}
    (hlast : value.getLast? ≠ some fragmentCanary) (now : ℕ) (ch : ReliableChannel) :
    Untouched ch (receiveFragment now value ch) ↔ ¬ BareHeader ch value := by
  have hnot : value.length ≠ 2 → ¬ BareHeader ch value := by
    rintro hlen ⟨b0, b1, rfl, -⟩
    exact hlen rfl
  match hv : value with
  | [] => exact iff_of_true ⟨rfl, rfl, rfl, rfl⟩ (hnot (by simp))
  | [b] => exact iff_of_true ⟨rfl, rfl, rfl, rfl⟩ (hnot (by simp))
  | [b0, b1] => exact receiveFragment_header now b0 b1 ch
  | b0 :: b1 :: b2 :: rest =>
      refine iff_of_true ?_ (hnot (by simp))
      rw [receiveFragment_long (by simp) hlast now ch]
      exact ⟨rfl, rfl, rfl, rfl⟩

/-- `msg` is a data message of `next_send_action`. -/
def DataMessage (now : ℕ) (tx : ReliableChannel) (msg : Bytes) : Prop :=
  (nextSendAction now tx).2 = .send msg ∧
    tx.state.inFlight.length < (nextSendAction now tx).1.state.inFlight.length

instance (now : ℕ) (tx : ReliableChannel) (msg : Bytes) : Decidable (DataMessage now tx msg) :=
  inferInstanceAs (Decidable (_ ∧ _))

/-- A data message that was cut short and does not end in a canary leaves every receiver alone,
unless all that is left of it is the header of a first or last fragment that the receiver takes. -/
theorem truncated_iff {t : ℕ} {tx : ReliableChannel} {msg value : Bytes}
    (_hmsg : DataMessage t tx msg) (_hcut : value <+: msg ∧ value ≠ msg)
    (hlast : value.getLast? ≠ some fragmentCanary) (now : ℕ) (rx : ReliableChannel) :
    Untouched rx (receiveFragment now value rx) ↔ ¬ BareHeader rx value :=
  receiveFragment_untouched_iff hlast now rx

/-- A channel with one datagram of one byte to send. -/
def oneByteSender : ReliableChannel := (enqueueDatagram [7] (ReliableChannel.new 20 0)).1

/-- Cut after the header and its first payload byte, the message is dropped. -/
theorem truncated_dropped :
    DataMessage 0 oneByteSender [0x30, 0, 7, 0x5A] ∧
      Untouched (ReliableChannel.new 20 0)
        (receiveFragment 0 [0x30, 0, 7] (ReliableChannel.new 20 0)) := by
  have hmsg : DataMessage 0 oneByteSender [0x30, 0, 7, 0x5A] := by decide
  refine ⟨hmsg, ?_⟩
  refine (truncated_iff hmsg (by decide) (by decide) 0 (ReliableChannel.new 20 0)).mpr ?_
  rintro ⟨b0, b1, heq, -⟩
  cases heq

/-- Cut after its header, the same message is accepted as an empty fragment. The receiver takes
the whole message for a duplicate when it is sent again, and the datagram is lost. -/
theorem truncated_accepted :
    DataMessage 0 oneByteSender [0x30, 0, 7, 0x5A] ∧
      (([0x30, 0] : Bytes) <+: [0x30, 0, 7, 0x5A] ∧ ([0x30, 0] : Bytes) ≠ [0x30, 0, 7, 0x5A]) ∧
      ([0x30, 0] : Bytes).getLast? ≠ some fragmentCanary ∧
      (receiveFragment 0 [0x30, 0] (ReliableChannel.new 20 0)).state.recvNext = 1 ∧
      ¬ Untouched (ReliableChannel.new 20 0) (receiveFragment 0 [0x30, 0] (ReliableChannel.new 20 0)) ∧
      (receiveFragment 0 [0x30, 0, 7, 0x5A]
        (receiveFragment 0 [0x30, 0] (ReliableChannel.new 20 0))).datagramTx = [] := by
  refine ⟨by decide, by decide, by decide, by decide, ?_, by decide⟩
  intro hun
  exact absurd hun.recvNext (by decide)

end IrohBle.Reliable
