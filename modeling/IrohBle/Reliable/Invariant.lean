import IrohBle.Lib.System
import IrohBle.Reliable.Reassembly
import IrohBle.Reliable.Sender

/-! # Reliable.Invariant: one channel against any peer

One `ReliableChannel` whose peer may send any bytes. `enqueue_datagram`, `set_chunk_size`,
`mark_dead`, `next_send_action`, the retransmission of the head of `in_flight` and
`receive_fragment` come in any order.

The two halves are kept apart. `Flight` is the sending half on absolute numbers: `in_flight`
carries the numbers of the window, one after another. `Inbox` is the receiving half: what is
buffered lies within the window, each number once, and what is reassembled or delivered has
the size of a datagram.

* `representation`: the invariant `Rep` in every state of every run.
* `receiveAdditions_fit`, `sendAdditions_fit`: no addition of two bytes overflows in a call from such a
  state.
-/

namespace IrohBle.Reliable

open ReliableChannel Lib

/-! ## The sending half -/

/-- The message of an in-flight fragment carries its number. -/
def InFlightFragment.Named (f : InFlightFragment) : Prop :=
  ∃ b0 tail, f.wireMsg = b0 :: tail ∧ b0 &&& seqMask = f.seq

/-- `in_flight` carries the numbers from `base` up to `next`. -/
structure Flight (base next : ℕ) (ch : ReliableChannel) : Prop where
  sendBase : Wraps ch.state.sendBase base
  sendNext : Wraps ch.state.sendNext next
  le : base ≤ next
  window : next ≤ base + 6
  seqs : ch.state.inFlight.map (·.seq) =
    (List.range' base (next - base)).map fun n => UInt8.ofNat (n % 16)
  named : ∀ f ∈ ch.state.inFlight, f.Named

theorem Flight.length {base next : ℕ} {ch : ReliableChannel} (h : Flight base next ch) :
    ch.state.inFlight.length = next - base := by
  have hlen := congrArg List.length h.seqs
  simpa using hlen

/-- The sending half depends on the two counters and the fragments in flight. -/
theorem Flight.congr {base next : ℕ} {ch ch' : ReliableChannel} (h : Flight base next ch)
    (hb : ch'.state.sendBase = ch.state.sendBase) (hn : ch'.state.sendNext = ch.state.sendNext)
    (hf : ch'.state.inFlight = ch.state.inFlight) : Flight base next ch' where
  sendBase := by rw [hb]; exact h.sendBase
  sendNext := by rw [hn]; exact h.sendNext
  le := h.le
  window := h.window
  seqs := by rw [hf]; exact h.seqs
  named := by rw [hf]; exact h.named

/-- The header of a message that `next_send_action` builds carries its number. -/
theorem sendFragment_named {now : ℕ} {frag : FragmentEntry} {rest : List FragmentEntry}
    {ch : ReliableChannel} {msg : Bytes} {n : ℕ} (hn : Wraps ch.state.sendNext n)
    (hmsg : (sendFragment now frag rest ch).2 = .send msg) :
    InFlightFragment.Named ⟨ch.state.sendNext, msg⟩ := by
  obtain ⟨-, -, hseq⟩ := dataByte_decode hn frag.first frag.last
  unfold sendFragment at hmsg
  dsimp only at hmsg
  rw [SendAction.send.injEq] at hmsg
  cases hack : ch.state.ackPending with
  | none =>
      rw [hack] at hmsg
      exact ⟨dataByte ch.state.sendNext frag.first frag.last, _, hmsg.symm, hseq⟩
  | some v =>
      rw [hack] at hmsg
      exact ⟨dataByte ch.state.sendNext frag.first frag.last, _, hmsg.symm, hseq⟩

/-- A fragment goes out under the next number. -/
theorem Flight.sendFragment {base next : ℕ} {ch : ReliableChannel} (h : Flight base next ch)
    (hcan : ch.state.canSend = true) (now : ℕ) (frag : FragmentEntry)
    (rest : List FragmentEntry) : Flight base (next + 1) (sendFragment now frag rest ch).1 := by
  have hroom := (canSend_iff h.sendBase h.sendNext h.le h.window).mp hcan
  obtain ⟨msg, hmsg⟩ : ∃ msg, (ReliableChannel.sendFragment now frag rest ch).2 = .send msg :=
    ⟨_, rfl⟩
  obtain ⟨hfl, hsn, hsb, -⟩ := sendFragment_spec now frag rest ch hmsg
  have hnamed := sendFragment_named h.sendNext hmsg
  have hle := h.le
  refine ⟨?_, ?_, by omega, by omega, ?_, ?_⟩
  · rw [hsb]
    exact h.sendBase
  · rw [hsn]
    exact h.sendNext.succ
  · have hcount : next + 1 - base = next - base + 1 := by omega
    rw [hfl, List.map_append, h.seqs, hcount, List.range'_concat, List.map_append]
    simp only [List.map_cons, List.map_nil, Nat.one_mul]
    rw [Nat.add_sub_cancel' hle, h.sendNext.eq_ofNat]
  · rw [hfl]
    intro f hf
    rcases List.mem_append.mp hf with hf | hf
    · exact h.named f hf
    · rw [List.mem_singleton.mp hf]
      exact hnamed

/-- Whatever an ACK names, it takes a prefix off `in_flight`. -/
theorem Flight.receiveAck {base next : ℕ} {ch : ReliableChannel} (h : Flight base next ch)
    (now : ℕ) (ackSeq : UInt8) :
    ∃ d, d ≤ next - base ∧ Flight (base + d) next (receiveAck now ackSeq ch) ∧
      (receiveAck now ackSeq ch).state.inFlight = ch.state.inFlight.drop d := by
  have hle := h.le
  have hwin := h.window
  rcases receiveAck_cases h.sendBase h.sendNext hle hwin h.length now ackSeq with heq | ⟨d, hd, hw, heq⟩
  · rw [heq]
    exact ⟨0, by omega, h, rfl⟩
  · rw [heq]
    refine ⟨d, hd, ⟨hw, h.sendNext, by omega, by omega, ?_, ?_⟩, rfl⟩
    · show (ch.state.inFlight.drop d).map _ = _
      rw [List.map_drop, h.seqs, ← List.map_drop, List.drop_range']
      congr 2 <;> omega
    · intro f hf
      exact h.named f (List.mem_of_mem_drop hf)

/-! ## The receiving half -/

/-- What is reassembled fits a datagram, and so does everything delivered. -/
structure Asm.Sized (a : Asm) : Prop where
  size : a.reassembly.length ≤ maxDatagramSize
  delivered : ∀ d ∈ a.delivered, Carried d

/-- A reassembly that is started again fits. -/
theorem Asm.Sized.reset {a : Asm} (h : a.Sized) (first : Bool) : (a.reset first).Sized := by
  unfold Asm.reset
  split
  · exact ⟨Nat.zero_le _, h.delivered⟩
  · exact h

/-- One that is extended fits, or has overflowed. -/
theorem Asm.Sized.extend {a : Asm} (h : a.Sized) (payload : Bytes) : (a.extend payload).Sized := by
  unfold Asm.extend
  split
  · exact h
  · split
    · exact ⟨Nat.zero_le _, h.delivered⟩
    · rename_i hle
      exact ⟨by simpa using hle, h.delivered⟩

/-- One that is finished delivers only what fits. -/
theorem Asm.Sized.finish {a : Asm} (h : a.Sized) (last : Bool) : (a.finish last).Sized := by
  unfold Asm.finish
  split
  · refine ⟨Nat.zero_le _, ?_⟩
    dsimp only
    split
    · exact h.delivered
    · rename_i hne
      intro d hd
      rcases List.mem_append.mp hd with hd | hd
      · exact h.delivered d hd
      · rw [List.mem_singleton.mp hd]
        refine ⟨?_, h.size⟩
        cases hr : a.reassembly with
        | nil => simp [hr] at hne
        | cons b bs => simp
  · exact h

theorem Asm.Sized.acceptFrag {a : Asm} (h : a.Sized) (f : FragmentEntry) : (acceptFrag a f).Sized :=
  ((h.reset f.first).extend f.payload).finish f.last

/-- The receiving half. Between two passes of `drain_recv_buf` the next fragment may still be
in the buffer. -/
structure Inbox (ch : ReliableChannel) : Prop where
  next : ch.state.recvNext.toNat < 16
  seqs : ∀ f ∈ ch.state.recvBuf, f.seq.toNat < 16
  near : ∀ f ∈ ch.state.recvBuf, (seqDist ch.state.recvNext f.seq).toNat ≤ 5
  nodup : (ch.state.recvBuf.map (·.seq)).Nodup
  sized : (asmOf ch).Sized
  ack : ∀ v, ch.state.ackPending = some v →
    v = (ch.state.recvNext + seqModulus - 1) % seqModulus

/-- The next fragment is not in the buffer. -/
def Drained (ch : ReliableChannel) : Prop :=
  ∀ f ∈ ch.state.recvBuf, f.seq ≠ ch.state.recvNext

/-- The distance of two sequence numbers. -/
theorem seqDist_of_lt {a b : UInt8} (ha : a.toNat < 16) (hb : b.toNat < 16) :
    (seqDist a b).toNat = (b.toNat + 16 - a.toNat) % 16 := by
  have hwa : Wraps a a.toNat := (Nat.mod_eq_of_lt ha).symm
  have hwb : Wraps b b.toNat := (Nat.mod_eq_of_lt hb).symm
  rw [seqDist_toNat hwa hwb]
  omega

theorem toNat_succ_mod (u : UInt8) :
    ((u + 1) % seqModulus).toNat = (u.toNat + 1) % 16 := by
  simp only [seqModulus, UInt8.toNat_mod, UInt8.toNat_add, UInt8.reduceToNat]
  omega

/-- A drained buffer stays within the window when `recv_next` moves on. -/
theorem Inbox.acceptAndDeliver {ch : ReliableChannel} (h : Inbox ch) (hd : Drained ch) (now : ℕ)
    (first last : Bool) (payload : Bytes) :
    Inbox (acceptAndDeliver now first last payload ch) := by
  obtain ⟨hnext, hbuf, hack⟩ := acceptAndDeliver_recv now first last payload ch
  have hlt : ((ch.state.recvNext + 1) % seqModulus).toNat < 16 := by
    rw [toNat_succ_mod ch.state.recvNext]
    omega
  refine ⟨?_, ?_, ?_, ?_, ?_, ?_⟩
  · rw [hnext]
    exact hlt
  · rw [hbuf]
    exact h.seqs
  · -- the number that was waited for is not in the buffer, so the rest is one step nearer
    rw [hbuf, hnext]
    intro f hf
    have hseq := h.seqs f hf
    have hnear := h.near f hf
    have hne : f.seq.toNat ≠ ch.state.recvNext.toNat := by
      intro he
      exact hd f hf (UInt8.toNat_inj.mp he)
    have hsucc := toNat_succ_mod ch.state.recvNext
    have hn := h.next
    rw [seqDist_of_lt h.next hseq] at hnear
    rw [seqDist_of_lt hlt hseq]
    omega
  · rw [hbuf]
    exact h.nodup
  · have hasm := acceptAndDeliver_asm now ⟨payload, first, last⟩ ch
    dsimp only at hasm
    rw [hasm]
    exact h.sized.acceptFrag _
  · intro v hv
    rw [hack, Option.some.injEq] at hv
    exact hv.symm

/-- What stays in the buffer when the next fragment is taken out of it. -/
theorem Inbox.take {ch : ReliableChannel} (h : Inbox ch) :
    Inbox { ch with state := { ch.state with
      recvBuf := ch.state.recvBuf.eraseP (·.seq == ch.state.recvNext) } } ∧
    Drained { ch with state := { ch.state with
      recvBuf := ch.state.recvBuf.eraseP (·.seq == ch.state.recvNext) } } := by
  have hsub : ∀ f ∈ ch.state.recvBuf.eraseP (·.seq == ch.state.recvNext), f ∈ ch.state.recvBuf :=
    fun f hf => List.mem_of_mem_eraseP hf
  have hmap : (ch.state.recvBuf.eraseP (·.seq == ch.state.recvNext)).map (·.seq) =
      (ch.state.recvBuf.map (·.seq)).erase ch.state.recvNext := by
    apply map_eraseP
    intro f _
    rw [beq_iff_eq]
  constructor
  · refine ⟨h.next, fun f hf => h.seqs f (hsub f hf), fun f hf => h.near f (hsub f hf), ?_,
      h.sized, h.ack⟩
    show ((ch.state.recvBuf.eraseP _).map _).Nodup
    rw [hmap]
    exact h.nodup.erase _
  · intro f hf he
    have hmem : f.seq ∈ (ch.state.recvBuf.map (·.seq)).erase ch.state.recvNext := by
      rw [← hmap]
      exact List.mem_map_of_mem hf
    rw [h.nodup.mem_erase_iff] at hmem
    exact hmem.1 he

/-- `drain_recv_buf` ends: every pass takes one fragment out of the buffer. -/
theorem Inbox.drainLoop {ch : ReliableChannel} (h : Inbox ch) (n now : ℕ)
    (hn : ch.state.recvBuf.length ≤ n) :
    Inbox (drainLoop now n ch) ∧ Drained (drainLoop now n ch) := by
  induction n generalizing ch with
  | zero =>
      have hnil : ch.state.recvBuf = [] := List.length_eq_zero_iff.mp (by omega)
      refine ⟨h, ?_⟩
      intro f hf
      change f ∈ ch.state.recvBuf at hf
      rw [hnil] at hf
      cases hf
  | succ n ih =>
      unfold ReliableChannel.drainLoop
      split
      · rename_i hnone
        refine ⟨h, ?_⟩
        intro f hf he
        exact List.find?_eq_none.mp hnone f hf (by simpa using he)
      · rename_i frag hsome
        have hmem : frag ∈ ch.state.recvBuf := List.mem_of_find?_eq_some hsome
        have heq : (frag.seq == ch.state.recvNext) = true := by
          have := List.find?_some hsome
          exact this
        obtain ⟨hbox, hdrained⟩ := h.take
        apply ih (hbox.acceptAndDeliver hdrained now frag.first frag.last frag.payload)
        rw [(acceptAndDeliver_recv now frag.first frag.last frag.payload _).2.1]
        show (ch.state.recvBuf.eraseP _).length ≤ n
        rw [List.length_eraseP_of_mem hmem heq]
        omega

/-- Acknowledging again what was received leaves the rest alone. -/
theorem Inbox.reAck {ch : ReliableChannel} (h : Inbox ch) (now : ℕ) : Inbox (reAck now ch) where
  next := h.next
  seqs := h.seqs
  near := h.near
  nodup := h.nodup
  sized := h.sized
  ack := by
    intro v hv
    change some ((ch.state.recvNext + seqModulus - 1) % seqModulus) = some v at hv
    exact (Option.some.inj hv).symm

/-- A data fragment keeps the receiving half, and leaves nothing that is its turn in the buffer.
-/
theorem Inbox.receiveData {ch : ReliableChannel} (h : Inbox ch) (hd : Drained ch) (now : ℕ)
    {seq : UInt8} (hseq : seq.toNat < 16) (first last : Bool) (payload : Bytes) :
    Inbox (receiveData now seq first last payload ch) ∧
      Drained (receiveData now seq first last payload ch) := by
  unfold ReliableChannel.receiveData
  split
  · exact (h.acceptAndDeliver hd now first last payload).drainLoop _ now (le_refl _)
  · rename_i hne
    split
    · -- within the window, ahead of the gap, and not there yet
      rename_i hcond
      obtain ⟨hin, hnot⟩ := Bool.and_eq_true_iff.mp hcond
      have hnear : (seqDist ch.state.recvNext seq).toNat < 6 := by
        unfold ChannelState.inRecvWindow at hin
        rw [decide_eq_true_eq, UInt8.lt_iff_toNat_lt] at hin
        exact hin
      have hfresh : ∀ f ∈ ch.state.recvBuf, f.seq ≠ seq := by
        intro f hf he
        have hany : ch.state.isBuffered seq = true := by
          unfold ChannelState.isBuffered
          rw [List.any_eq_true]
          exact ⟨f, hf, by simpa using he⟩
        rw [hany] at hnot
        cases hnot
      constructor
      · apply Inbox.reAck
        refine ⟨h.next, ?_, ?_, ?_, h.sized, h.ack⟩
        · intro f hf
          rcases List.mem_append.mp hf with hf | hf
          · exact h.seqs f hf
          · rw [List.mem_singleton.mp hf]
            exact hseq
        · intro f hf
          rcases List.mem_append.mp hf with hf | hf
          · exact h.near f hf
          · rw [List.mem_singleton.mp hf]
            exact Nat.le_of_lt_succ hnear
        · show ((ch.state.recvBuf ++ [_]).map BufferedFragment.seq).Nodup
          rw [List.map_append, List.nodup_append]
          refine ⟨h.nodup, List.nodup_singleton _, ?_⟩
          intro a ha b hb hab
          obtain ⟨f, hf, rfl⟩ := List.mem_map.mp ha
          obtain rfl := List.mem_singleton.mp hb
          exact hfresh f hf hab
      · intro f hf
        rcases List.mem_append.mp hf with hf | hf
        · exact hd f hf
        · rw [List.mem_singleton.mp hf]
          exact hne
    · split
      · exact ⟨h.reAck now, hd⟩
      · exact ⟨h, hd⟩

/-- The receiving half depends on the received part and the pending acknowledgement. -/
theorem Inbox.congr {ch ch' : ReliableChannel} (h : Inbox ch) (hp : recvPart ch' = recvPart ch)
    (ha : ch'.state.ackPending = none ∨ ch'.state.ackPending = ch.state.ackPending) :
    Inbox ch' := by
  have hn : ch'.state.recvNext = ch.state.recvNext := congrArg RecvPart.recvNext hp
  have hb : ch'.state.recvBuf = ch.state.recvBuf := congrArg RecvPart.recvBuf hp
  have hr : ch'.state.reassembly = ch.state.reassembly := congrArg RecvPart.reassembly hp
  have hd : ch'.datagramTx = ch.datagramTx := congrArg RecvPart.datagramTx hp
  refine ⟨?_, ?_, ?_, ?_, ⟨?_, ?_⟩, ?_⟩
  · rw [hn]
    exact h.next
  · rw [hb]
    exact h.seqs
  · rw [hb, hn]
    exact h.near
  · rw [hb]
    exact h.nodup
  · show ch'.state.reassembly.length ≤ maxDatagramSize
    rw [hr]
    exact h.sized.size
  · show ∀ d ∈ ch'.datagramTx, Carried d
    rw [hd]
    exact h.sized.delivered
  · intro v hv
    rw [hn]
    rcases ha with ha | ha
    · rw [ha] at hv
      cases hv
    · exact h.ack v (by rw [← ha]; exact hv)

/-- Whether it is drained depends on the received part. -/
theorem Drained.congr {ch ch' : ReliableChannel} (h : Drained ch)
    (hp : recvPart ch' = recvPart ch) : Drained ch' := by
  have hn : ch'.state.recvNext = ch.state.recvNext := congrArg RecvPart.recvNext hp
  have hb : ch'.state.recvBuf = ch.state.recvBuf := congrArg RecvPart.recvBuf hp
  unfold Drained
  rw [hb, hn]
  exact h

/-! ## Both halves -/

/-- The two halves of a channel between two calls. -/
def Good (ch : ReliableChannel) : Prop :=
  (∃ base next, Flight base next ch) ∧ Inbox ch ∧ Drained ch

/-- An operation that touches neither window nor receiving half. -/
theorem Good.congr {ch ch' : ReliableChannel} (h : Good ch)
    (hb : ch'.state.sendBase = ch.state.sendBase) (hn : ch'.state.sendNext = ch.state.sendNext)
    (hf : ch'.state.inFlight = ch.state.inFlight) (hp : recvPart ch' = recvPart ch)
    (ha : ch'.state.ackPending = none ∨ ch'.state.ackPending = ch.state.ackPending) : Good ch' := by
  obtain ⟨⟨base, next, hfl⟩, hbox, hd⟩ := h
  exact ⟨⟨base, next, hfl.congr hb hn hf⟩, hbox.congr hp ha, hd.congr hp⟩

/-- A fresh channel is good. -/
theorem good_new (chunkSize now : ℕ) : Good (ReliableChannel.new chunkSize now) := by
  refine ⟨⟨0, 0, ⟨wraps_zero, wraps_zero, le_refl 0, by omega, rfl, List.forall_mem_nil _⟩⟩, ?_, ?_⟩
  · refine ⟨Nat.zero_lt_succ 15, List.forall_mem_nil _, List.forall_mem_nil _, List.nodup_nil,
      ⟨Nat.zero_le _, List.forall_mem_nil _⟩, ?_⟩
    intro v hv
    cases hv
  · exact List.forall_mem_nil _

/-- A datagram taken on keeps it so. -/
theorem Good.enqueue {ch : ReliableChannel} (h : Good ch) (d : Bytes) :
    Good (enqueueDatagram d ch).1 := by
  unfold enqueueDatagram
  split
  · exact h
  · exact h.congr rfl rfl rfl rfl (Or.inr rfl)

/-- A call of `next_send_action` keeps a channel good. -/
theorem Good.send {ch : ReliableChannel} (h : Good ch) (now : ℕ) :
    Good (nextSendAction now ch).1 := by
  obtain ⟨hfb, hfn, hff, hrp, hap⟩ := refill_frame ch
  have hrefill : Good (refill ch) := h.congr hfb hfn hff hrp (Or.inr hap)
  have hact := nextSendAction_cases now ch
  generalize nextSendAction now ch = r at hact
  cases hact with
  | dead _ => exact h
  | @data frag rest _ hcan _ =>
      obtain ⟨⟨base, next, hfl⟩, hbox, hd⟩ := hrefill
      obtain ⟨-, -, -, -, -, -, hpart, hack, -⟩ := sendFragment_spec now frag rest (refill ch) rfl
      exact ⟨⟨base, next + 1, hfl.sendFragment hcan now frag rest⟩, hbox.congr hpart (Or.inl hack),
        hd.congr hpart⟩
  | pureAck _ _ _ => exact hrefill.congr rfl rfl rfl rfl (Or.inl rfl)
  | wait _ _ _ => exact hrefill

theorem Good.resend {ch : ReliableChannel} (h : Good ch) : Good (resendFront ch).1 := by
  unfold resendFront
  split
  · exact h
  · exact h.congr rfl rfl rfl rfl (Or.inl rfl)

/-- An acknowledgement keeps a channel good, and pops a prefix of the fragments in flight. -/
theorem Good.readAck {ch : ReliableChannel} (h : Good ch) (now : ℕ) (b1 : UInt8) :
    Good (readAck now b1 ch) ∧
      ∃ k, (readAck now b1 ch).state.inFlight = ch.state.inFlight.drop k := by
  obtain ⟨hpart, hack⟩ := readAck_recvPart now b1 ch
  obtain ⟨⟨base, next, hfl⟩, hbox, hd⟩ := h
  have hflight : ∃ base' k, Flight base' next (ReliableChannel.readAck now b1 ch) ∧
      (ReliableChannel.readAck now b1 ch).state.inFlight = ch.state.inFlight.drop k := by
    unfold ReliableChannel.readAck
    split
    · obtain ⟨k, -, hfl', hdrop⟩ := hfl.receiveAck now (b1 &&& ackSeqMask)
      exact ⟨base + k, k, hfl', hdrop⟩
    · exact ⟨base, 0, hfl, rfl⟩
  obtain ⟨base', k, hfl', hdrop⟩ := hflight
  exact ⟨⟨⟨base', next, hfl'⟩, hbox.congr hpart (Or.inr hack), hd.congr hpart⟩, k, hdrop⟩

/-- A masked byte is a sequence number. -/
theorem and_seqMask_lt (b : UInt8) : (b &&& seqMask).toNat < 16 := by
  have hmod : b.toNat &&& 15 = b.toNat % 16 := Nat.and_two_pow_sub_one_eq_mod b.toNat 4
  have hand : (b &&& seqMask).toNat = b.toNat &&& 15 := UInt8.toNat_and b seqMask
  omega

/-- A whole fragment behind its header keeps a channel good. -/
theorem Good.receiveBody {ch : ReliableChannel} (h : Good ch) (now : ℕ) (b0 b1 : UInt8)
    (payload : Bytes) :
    Good (receiveBody now b0 b1 payload ch) ∧
      ∃ k, (receiveBody now b0 b1 payload ch).state.inFlight = ch.state.inFlight.drop k := by
  obtain ⟨hgood, k, hdrop⟩ := h.readAck now b1
  rw [receiveBody_readAck]
  split
  · generalize hf : ((b0 &&& flagFirst) != 0) = first
    generalize hl : ((b0 &&& flagLast) != 0) = last
    obtain ⟨⟨base, next, hfl⟩, hbox, hd⟩ := hgood
    have hsp := receiveData_sendPart now (b0 &&& seqMask) first last payload
      (ReliableChannel.readAck now b1 ch)
    have hif := congrArg SendPart.inFlight hsp
    obtain ⟨hbox', hd'⟩ := hbox.receiveData hd now (and_seqMask_lt b0) first last payload
    refine ⟨⟨⟨base, next, hfl.congr (congrArg SendPart.sendBase hsp)
      (congrArg SendPart.sendNext hsp) hif⟩, hbox', hd'⟩, k, ?_⟩
    exact Eq.trans hif hdrop
  · exact ⟨hgood, k, hdrop⟩

/-- Whatever arrives, the channel stays good, and only a prefix of `in_flight` goes. -/
theorem Good.receive {ch : ReliableChannel} (h : Good ch) (now : ℕ) (value : Bytes) :
    Good (receiveFragment now value ch) ∧
      ∃ k, (receiveFragment now value ch).state.inFlight = ch.state.inFlight.drop k := by
  unfold receiveFragment
  split
  · exact ⟨h, 0, rfl⟩
  · exact ⟨h, 0, rfl⟩
  · exact h.receiveBody now _ _ _
  · split
    · exact ⟨h.congr rfl rfl rfl rfl (Or.inr rfl), 0, rfl⟩
    · exact h.receiveBody now _ _ _

/-! ## Additions of bytes -/

/-- The `u8` additions of `accept_and_deliver`. -/
def acceptAdditions (ch : ReliableChannel) : List (UInt8 × UInt8) :=
  [(ch.state.recvNext, 1), ((ch.state.recvNext + 1) % seqModulus, seqModulus)]

/-- Those of `drain_recv_buf`. -/
def drainAdditions (now : ℕ) : ℕ → ReliableChannel → List (UInt8 × UInt8)
  | 0, _ => []
  | n + 1, ch =>
    match ch.state.recvBuf.find? (·.seq == ch.state.recvNext) with
    | none => []
    | some frag =>
      let s := { ch.state with
        recvBuf := ch.state.recvBuf.eraseP (·.seq == ch.state.recvNext) }
      acceptAdditions { ch with state := s } ++
        drainAdditions now n
          (acceptAndDeliver now frag.first frag.last frag.payload { ch with state := s })

/-- Those of the `if has_data` block of `receive_fragment`. -/
def dataAdditions (now : ℕ) (seq : UInt8) (first last : Bool) (payload : Bytes)
    (ch : ReliableChannel) : List (UInt8 × UInt8) :=
  if seq = ch.state.recvNext then
    let ch' := acceptAndDeliver now first last payload ch
    acceptAdditions ch ++ drainAdditions now ch'.state.recvBuf.length ch'
  else if ch.state.inRecvWindow seq && !ch.state.isBuffered seq then
    [(ch.state.recvNext, seqModulus)]
  else if !ch.state.inRecvWindow seq then [(ch.state.recvNext, seqModulus)]
  else []

/-- Those of `receive_fragment` once the canary is off. -/
def bodyAdditions (now : ℕ) (b0 b1 : UInt8) (payload : Bytes) (ch : ReliableChannel) :
    List (UInt8 × UInt8) :=
  let first := (b0 &&& flagFirst) != 0
  let last := (b0 &&& flagLast) != 0
  -- the acknowledged number is incremented for the distance and again for `send_base`
  (if (b1 &&& flagAck) != 0 then [(b1 &&& ackSeqMask, 1), (b1 &&& ackSeqMask, 1)] else []) ++
    if first || last || !payload.isEmpty then
      dataAdditions now (b0 &&& seqMask) first last payload (readAck now b1 ch)
    else []

/-- The additions of two bytes in `receive_fragment`. -/
def receiveAdditions (now : ℕ) (value : Bytes) (ch : ReliableChannel) : List (UInt8 × UInt8) :=
  match value with
  | [] | [_] => []
  | [b0, b1] => bodyAdditions now b0 b1 [] ch
  | b0 :: b1 :: rest =>
    if rest.getLast? ≠ some fragmentCanary then [] else bodyAdditions now b0 b1 rest.dropLast ch

/-- The only `u8` addition of `next_send_action`, made when a fragment is sent. -/
def sendAdditions (ch : ReliableChannel) : List (UInt8 × UInt8) := [(ch.state.sendNext, 1)]

/-- The sum of two bytes is a byte. -/
def Fits (x : UInt8 × UInt8) : Prop := x.1.toNat + x.2.toNat < 256

/-- Accepting a fragment overflows nothing. -/
theorem acceptAdditions_fit {ch : ReliableChannel} (h : ch.state.recvNext.toNat < 16) :
    ∀ x ∈ acceptAdditions ch, Fits x := by
  have hsucc := toNat_succ_mod ch.state.recvNext
  intro x hx
  rcases List.mem_cons.mp hx with rfl | hx
  · show ch.state.recvNext.toNat + 1 < 256
    omega
  · obtain rfl := List.mem_singleton.mp hx
    show ((ch.state.recvNext + 1) % seqModulus).toNat + 16 < 256
    omega

/-- Draining the buffer overflows nothing. -/
theorem drainAdditions_fit (now n : ℕ) {ch : ReliableChannel} (h : ch.state.recvNext.toNat < 16) :
    ∀ x ∈ drainAdditions now n ch, Fits x := by
  induction n generalizing ch with
  | zero => exact List.forall_mem_nil _
  | succ n ih =>
      unfold drainAdditions
      split
      · exact List.forall_mem_nil _
      · rename_i frag _
        intro x hx
        rcases List.mem_append.mp hx with hx | hx
        · refine acceptAdditions_fit ?_ x hx
          exact h
        · refine ih ?_ x hx
          rw [(acceptAndDeliver_recv now frag.first frag.last frag.payload _).1, toNat_succ_mod]
          omega

/-- A data fragment overflows nothing. -/
theorem dataAdditions_fit (now : ℕ) (seq : UInt8) (first last : Bool) (payload : Bytes)
    {ch : ReliableChannel} (h : ch.state.recvNext.toNat < 16) :
    ∀ x ∈ dataAdditions now seq first last payload ch, Fits x := by
  have hreAck : ∀ x ∈ [(ch.state.recvNext, seqModulus)], Fits x := by
    intro x hx
    obtain rfl := List.mem_singleton.mp hx
    show ch.state.recvNext.toNat + 16 < 256
    omega
  unfold dataAdditions
  split
  · intro x hx
    rcases List.mem_append.mp hx with hx | hx
    · exact acceptAdditions_fit h x hx
    · refine drainAdditions_fit now _ ?_ x hx
      rw [(acceptAndDeliver_recv now first last payload ch).1, toNat_succ_mod]
      omega
  · split
    · exact hreAck
    · split
      · exact hreAck
      · exact List.forall_mem_nil _

/-- No message that arrives overflows anything. -/
theorem receiveAdditions_fit (now : ℕ) (value : Bytes) {ch : ReliableChannel}
    (h : ch.state.recvNext.toNat < 16) : ∀ x ∈ receiveAdditions now value ch, Fits x := by
  -- an acknowledged number is masked to four bits before it is increased
  have hbody : ∀ b0 b1 payload, ∀ x ∈ bodyAdditions now b0 b1 payload ch, Fits x := by
    intro b0 b1 payload x hx
    have hnibble : Fits (b1 &&& ackSeqMask, 1) := by
      have hlt : (b1 &&& ackSeqMask).toNat < 16 := and_seqMask_lt b1
      show (b1 &&& ackSeqMask).toNat + 1 < 256
      omega
    unfold bodyAdditions at hx
    rcases List.mem_append.mp hx with hx | hx
    · split at hx
      · rcases List.mem_cons.mp hx with rfl | hx
        · exact hnibble
        · obtain rfl := List.mem_singleton.mp hx
          exact hnibble
      · cases hx
    · split at hx
      · refine dataAdditions_fit now _ _ _ _ ?_ x hx
        have hn : (readAck now b1 ch).state.recvNext = ch.state.recvNext :=
          congrArg RecvPart.recvNext (readAck_recvPart now b1 ch).1
        rw [hn]
        exact h
      · cases hx
  unfold receiveAdditions
  split
  · exact List.forall_mem_nil _
  · exact List.forall_mem_nil _
  · exact hbody _ _ _
  · split
    · exact List.forall_mem_nil _
    · exact hbody _ _ _

/-! ## The invariant in every run -/

/-- The calls on one channel. -/
inductive ChannelLabel where
  | enqueue (d : Bytes)
  | setChunkSize (n : ℕ)
  | markDead
  | send (now : ℕ)
  | resend
  /-- Any bytes arrive. -/
  | receive (now : ℕ) (value : Bytes)
deriving DecidableEq, Repr

/-- One call. -/
def channelStep : ChannelLabel → ReliableChannel → ReliableChannel
  | .enqueue d, ch => (enqueueDatagram d ch).1
  | .setChunkSize n, ch => ch.setChunkSize n
  | .markDead, ch => ch.markDead
  | .send now, ch => (nextSendAction now ch).1
  | .resend, ch => (resendFront ch).1
  | .receive now value, ch => receiveFragment now value ch

/-- One channel against any peer, as a transition system. -/
def channelSystem : System ReliableChannel ChannelLabel where
  Init ch := ∃ chunkSize now, ch = ReliableChannel.new chunkSize now
  step l ch := some (channelStep l ch)

/-- The representation invariant. -/
structure Rep (ch : ReliableChannel) : Prop where
  inFlight_length : ch.state.inFlight.length = (seqDist ch.state.sendBase ch.state.sendNext).toNat
  inFlight_le : ch.state.inFlight.length ≤ 6
  inFlight_seq : ∀ i f, ch.state.inFlight[i]? = some f →
    f.seq.toNat = (ch.state.sendBase.toNat + i) % 16
  inFlight_named : ∀ f ∈ ch.state.inFlight, f.Named
  recvNext_lt : ch.state.recvNext.toNat < 16
  recvBuf_nodup : (ch.state.recvBuf.map (·.seq)).Nodup
  recvBuf_near : ∀ f ∈ ch.state.recvBuf,
    1 ≤ (seqDist ch.state.recvNext f.seq).toNat ∧ (seqDist ch.state.recvNext f.seq).toNat ≤ 5
  recvBuf_le : ch.state.recvBuf.length ≤ 5
  reassembly_le : ch.state.reassembly.length ≤ maxDatagramSize
  ackPending_eq : ∀ v, ch.state.ackPending = some v → v.toNat = (ch.state.recvNext.toNat + 15) % 16
  delivered : ∀ d ∈ ch.datagramTx, 1 ≤ d.length ∧ d.length ≤ maxDatagramSize

/-- Five numbers are all there is between the gap and the end of the window. -/
theorem recvBuf_length_le {ch : ReliableChannel} (h : Inbox ch) (hd : Drained ch) :
    ch.state.recvBuf.length ≤ 5 := by
  -- the distances from the gap are distinct, and between one and five
  have hlen : (ch.state.recvBuf.map fun f => (seqDist ch.state.recvNext f.seq).toNat).Nodup := by
    have hinj : ∀ a ∈ ch.state.recvBuf.map (·.seq), ∀ b ∈ ch.state.recvBuf.map (·.seq),
        (seqDist ch.state.recvNext a).toNat = (seqDist ch.state.recvNext b).toNat → a = b := by
      intro a ha b hb hab
      obtain ⟨f, hf, rfl⟩ := List.mem_map.mp ha
      obtain ⟨g, hg, rfl⟩ := List.mem_map.mp hb
      have hfs := h.seqs f hf
      have hgs := h.seqs g hg
      have hn := h.next
      rw [seqDist_of_lt h.next hfs, seqDist_of_lt h.next hgs] at hab
      apply UInt8.toNat_inj.mp
      omega
    have hmap := List.Nodup.map_on hinj h.nodup
    rwa [List.map_map] at hmap
  have hsub : (ch.state.recvBuf.map fun f => (seqDist ch.state.recvNext f.seq).toNat) ⊆
      List.range' 1 5 := by
    intro d hdmem
    obtain ⟨f, hf, rfl⟩ := List.mem_map.mp hdmem
    have hnear := h.near f hf
    have hpos : (seqDist ch.state.recvNext f.seq).toNat ≠ 0 := by
      intro hzero
      have hfs := h.seqs f hf
      have hn := h.next
      rw [seqDist_of_lt h.next hfs] at hzero
      exact hd f hf (UInt8.toNat_inj.mp (by omega))
    rw [List.mem_range'_1]
    omega
  have hle := (List.subperm_of_subset hlen hsub).length_le
  simpa using hle

/-- A good channel satisfies the invariant as it is stated. -/
theorem Good.rep {ch : ReliableChannel} (h : Good ch) : Rep ch := by
  obtain ⟨⟨base, next, hfl⟩, hbox, hd⟩ := h
  have hle := hfl.le
  have hwin := hfl.window
  have hlen := hfl.length
  refine ⟨?_, by omega, ?_, hfl.named, hbox.next, hbox.nodup, ?_, recvBuf_length_le hbox hd,
    hbox.sized.size, ?_, hbox.sized.delivered⟩
  · -- `in_flight` is as long as the counters say
    rw [hlen, seqDist_toNat hfl.sendBase hfl.sendNext]
    omega
  · -- and numbered from `send_base` on
    intro i f hf
    have hlt : i < next - base := by
      rw [← hlen]
      exact (List.getElem?_eq_some_iff.mp hf).1
    have hseq : (ch.state.inFlight.map (·.seq))[i]? = some f.seq := by
      rw [List.getElem?_map, hf]
      rfl
    rw [hfl.seqs, List.getElem?_map, List.getElem?_range' hlt, Option.map_some,
      Option.some.injEq] at hseq
    have hbase : ch.state.sendBase.toNat = base % 16 := hfl.sendBase
    rw [← hseq, UInt8.toNat_ofNat', hbase]
    omega
  · -- what is buffered is ahead of the gap
    intro f hf
    refine ⟨?_, hbox.near f hf⟩
    have hne : f.seq.toNat ≠ ch.state.recvNext.toNat := by
      intro he
      exact hd f hf (UInt8.toNat_inj.mp he)
    have hseq := hbox.seqs f hf
    have hn := hbox.next
    rw [seqDist_of_lt hn hseq]
    omega
  · intro v hv
    have hn := hbox.next
    rw [hbox.ack v hv]
    simp only [seqModulus, UInt8.toNat_mod, UInt8.toNat_sub, UInt8.toNat_add, UInt8.reduceToNat]
    omega

/-- Every call keeps a channel good. -/
theorem good_step {ch : ReliableChannel} (h : Good ch) (l : ChannelLabel) :
    Good (channelStep l ch) := by
  cases l with
  | enqueue d => exact h.enqueue d
  | setChunkSize n => exact h.congr rfl rfl rfl rfl (Or.inr rfl)
  | markDead => exact h.congr rfl rfl rfl rfl (Or.inr rfl)
  | send now => exact h.send now
  | resend => exact h.resend
  | receive now value => exact (h.receive now value).1

/-- In every state of every run the representation invariant holds; from it, whatever bytes
arrive next take only a prefix off `in_flight`, and no addition of bytes overflows. -/
theorem representation {h : List (ReliableChannel × ChannelLabel)} {ch : ReliableChannel}
    (hrun : channelSystem.Run h ch) :
    Rep ch ∧
      (∀ now value, ∃ k, (receiveFragment now value ch).state.inFlight = ch.state.inFlight.drop k) ∧
      (∀ now value, ∀ x ∈ receiveAdditions now value ch, Fits x) ∧
      ∀ x ∈ sendAdditions ch, Fits x := by
  have hgood : Good ch := by
    refine hrun.invariant_all ?_ ?_
    · rintro ch ⟨chunkSize, now, rfl⟩
      exact good_new chunkSize now
    · intro ch l ch' hg hs
      obtain rfl := Option.some.inj hs
      exact good_step hg l
  refine ⟨hgood.rep, ?_, ?_, ?_⟩
  · intro now value
    exact (hgood.receive now value).2
  · intro now value
    exact receiveAdditions_fit now value hgood.2.1.next
  · intro x hx
    obtain rfl := List.mem_singleton.mp hx
    obtain ⟨⟨base, next, hfl⟩, -⟩ := hgood
    have hnext : ch.state.sendNext.toNat = next % 16 := hfl.sendNext
    show ch.state.sendNext.toNat + 1 < 256
    omega

theorem channelSystem_init (chunkSize now : ℕ) :
    channelSystem.Init (ReliableChannel.new chunkSize now) :=
  ⟨chunkSize, now, rfl⟩

/-- A datagram in three fragments; then a fragment ahead of the gap, an ACK of a fragment that
was never sent, an ACK of the first one, a message without its canary, and a retransmission. -/
def hostileRun : List ChannelLabel :=
  [.setChunkSize 5, .enqueue [1, 2, 3, 4, 5], .send 0, .send 0, .receive 0 [0x32, 0x1E, 9, 0x5A],
    .receive 0 [0, 0x1B], .receive 0 [0xC0, 0x10], .receive 0 [0x30, 0, 7], .resend, .send 0]

/-- A run against a peer that sends a truncated fragment and one out of turn. -/
theorem representation_hostileRun :
    ∃ h ch, channelSystem.Run h ch ∧ h.map Prod.snd = hostileRun ∧ ch.state.inFlight.length = 2 ∧
      ch.state.recvBuf.length = 1 ∧ ch.truncationCounter = 1 ∧ Rep ch := by
  obtain ⟨h, ch, hrun, hl, hflight, hbuf, hcount⟩ := System.Run.of_exec
    (P := fun ch : ReliableChannel => ch.state.inFlight.length = 2 ∧ ch.state.recvBuf.length = 1 ∧
      ch.truncationCounter = 1)
    hostileRun (channelSystem_init 20 0) (by decide +kernel)
  exact ⟨h, ch, hrun, hl, hflight, hbuf, hcount, (representation hrun).1⟩

end IrohBle.Reliable
