import IrohBle.Reliable.Channel
import Mathlib.Data.Nat.Bitwise
import Mathlib.Tactic

/-! # Reliable.Spec: one specification lemma per channel operation

Sequence numbers are read through `Wraps u n`: the byte `u` is the absolute
number `n` modulo 16. The lemmas below restate the arithmetic of the channel on
absolute numbers (`seqDist_toNat`), decode a header built by the sender
(`receiveFragment_data`, `receiveFragment_pureAck`), and say which part of the
state an operation can touch: receiving data leaves the sender part alone
(`receiveData_sendPart`), receiving an acknowledgement leaves the receiver part
alone (`receiveAck_recvPart`).
-/

namespace IrohBle.Reliable

/-! ## Wrapped sequence numbers -/

/-- The byte `u` carries the absolute number `n`. -/
def Wraps (u : UInt8) (n : ℕ) : Prop := u.toNat = n % 16

theorem wraps_zero : Wraps 0 0 := rfl

/-- Counters advance together. -/
theorem Wraps.succ {u : UInt8} {n : ℕ} (h : Wraps u n) :
    Wraps ((u + 1) % seqModulus) (n + 1) := by
  unfold Wraps at *
  simp only [seqModulus, UInt8.toNat_mod, UInt8.toNat_add, h, UInt8.reduceToNat]
  omega

/-- The byte of a number. -/
theorem Wraps.eq_ofNat {u : UInt8} {n : ℕ} (h : Wraps u n) : u = UInt8.ofNat (n % 16) := by
  apply UInt8.toNat_inj.mp
  rw [h, UInt8.toNat_ofNat']
  omega

theorem Wraps.inj {u v : UInt8} {n : ℕ} (hu : Wraps u n) (hv : Wraps v n) : u = v :=
  hu.eq_ofNat.trans hv.eq_ofNat.symm

/-- The distance of two bytes is that of their numbers modulo sixteen. -/
theorem seqDist_toNat {a b : UInt8} {x y : ℕ} (ha : Wraps a x) (hb : Wraps b y) :
    (seqDist a b).toNat = (y % 16 + 16 - x % 16) % 16 := by
  unfold Wraps at *
  simp only [seqDist, seqModulus, UInt8.toNat_mod, UInt8.toNat_sub, ha, hb, UInt8.reduceToNat]
  omega

/-- `(recv_next + SEQ_MODULUS - 1) % SEQ_MODULUS` names the fragment before
`recv_next`. -/
theorem Wraps.pred {u : UInt8} {n : ℕ} (h : Wraps u n) :
    Wraps ((u + seqModulus - 1) % seqModulus) (n + 15) := by
  unfold Wraps at *
  simp only [seqModulus, UInt8.toNat_mod, UInt8.toNat_add, UInt8.toNat_sub, h, UInt8.reduceToNat]
  omega

/-- Removing the entry a key names, seen through the keys. -/
theorem map_eraseP {α β : Type} [DecidableEq β] {l : List α} {p : α → Bool} {key : α → β} {k : β}
    (h : ∀ x ∈ l, p x = true ↔ key x = k) : (l.eraseP p).map key = (l.map key).erase k := by
  induction l with
  | nil => rfl
  | cons x l ih =>
      have hx := h x (by simp)
      by_cases hk : key x = k
      · rw [List.eraseP_cons_of_pos (hx.mpr hk), List.map_cons, hk, List.erase_cons_head]
      · rw [List.eraseP_cons_of_neg (fun hp => hk (hx.mp hp)), List.map_cons, List.map_cons,
          List.erase_cons_tail (by simpa using hk), ih (fun y hy => h y (by simp [hy]))]

/-! ## Header codec -/

/-- Second header byte: no acknowledgement, or everything below `r` received. -/
def ackByte : Option ℕ → UInt8
  | none => 0
  | some r => (UInt8.ofNat ((r + 15) % 16) &&& ackSeqMask) ||| flagAck

/-- First header byte. -/
def dataByte (seq : UInt8) (first last : Bool) : UInt8 :=
  (seq &&& seqMask) ||| (if first then flagFirst else 0) ||| (if last then flagLast else 0)

theorem setAck_cons {b0 b1 v : UInt8} {r : ℕ} (rest : Bytes) (hv : Wraps v (r + 15)) :
    setAck (b0 :: b1 :: rest) v = b0 :: ackByte (some r) :: rest := by
  rw [hv.eq_ofNat]
  rfl

/-- What is read off the first byte of a data message is what was put into it. -/
theorem dataByte_decode {seq : UInt8} {i : ℕ} (h : Wraps seq i) (first last : Bool) :
    ((dataByte seq first last &&& flagFirst) != 0) = first ∧
    ((dataByte seq first last &&& flagLast) != 0) = last ∧
    dataByte seq first last &&& seqMask = seq := by
  have key : ∀ s : Fin 16, ∀ f l : Bool,
      ((dataByte (UInt8.ofNat s.val) f l &&& flagFirst) != 0) = f ∧
      ((dataByte (UInt8.ofNat s.val) f l &&& flagLast) != 0) = l ∧
      dataByte (UInt8.ofNat s.val) f l &&& seqMask = UInt8.ofNat s.val := by
    decide +kernel
  rw [h.eq_ofNat]
  exact key ⟨i % 16, Nat.mod_lt _ (by omega)⟩ first last

/-- What is read off the second byte is the acknowledgement. -/
theorem ackByte_decode (r : ℕ) :
    ((ackByte (some r) &&& flagAck) != 0) = true ∧
    ackByte (some r) &&& ackSeqMask = UInt8.ofNat ((r + 15) % 16) := by
  have key : ∀ s : Fin 16,
      ((((UInt8.ofNat s.val &&& ackSeqMask) ||| flagAck) &&& flagAck) != 0) = true ∧
      ((UInt8.ofNat s.val &&& ackSeqMask) ||| flagAck) &&& ackSeqMask = UInt8.ofNat s.val := by
    decide +kernel
  exact key ⟨(r + 15) % 16, Nat.mod_lt _ (by omega)⟩

/-- The acknowledgement nibble of `r` names `r` again after the increment. -/
theorem ackSeq_succ_wraps (r : ℕ) :
    Wraps ((UInt8.ofNat ((r + 15) % 16) + 1) % seqModulus) r := by
  unfold Wraps
  simp only [seqModulus, UInt8.toNat_mod, UInt8.toNat_add, UInt8.toNat_ofNat', UInt8.reduceToNat]
  omega

namespace ReliableChannel

/-- What a receiver does with the second header byte of a message. -/
def readAck (now : ℕ) (b1 : UInt8) (ch : ReliableChannel) : ReliableChannel :=
  if (b1 &&& flagAck) != 0 then receiveAck now (b1 &&& ackSeqMask) ch else ch

theorem receiveBody_readAck (now : ℕ) (b0 b1 : UInt8) (payload : Bytes) (ch : ReliableChannel) :
    receiveBody now b0 b1 payload ch =
      if (b0 &&& flagFirst) != 0 || (b0 &&& flagLast) != 0 || !payload.isEmpty then
        receiveData now (b0 &&& seqMask) ((b0 &&& flagFirst) != 0) ((b0 &&& flagLast) != 0) payload
          (readAck now b1 ch)
      else readAck now b1 ch :=
  rfl

/-- A message with its canary is longer than a header. -/
theorem receiveFragment_canary (now : ℕ) (b0 b1 : UInt8) (payload : Bytes) (ch : ReliableChannel) :
    receiveFragment now (b0 :: b1 :: (payload ++ [fragmentCanary])) ch =
      receiveBody now b0 b1 payload ch := by
  have hne : payload ++ [fragmentCanary] ≠ [] := by simp
  obtain ⟨x, xs, hx⟩ := List.exists_cons_of_ne_nil hne
  have hlast : (x :: xs).getLast? = some fragmentCanary := by rw [← hx]; simp
  have hdrop : (x :: xs).dropLast = payload := by rw [← hx]; simp
  rw [hx]
  simp only [receiveFragment, hlast, hdrop, ne_eq, not_true_eq_false, if_false]

/-- A data message first moves the sender's window, then offers its fragment. -/
theorem receiveFragment_message (now : ℕ) {seq : UInt8} {i : ℕ} (hseq : Wraps seq i) (b1 : UInt8)
    {f : FragmentEntry} (hf : f.first || f.last || !f.payload.isEmpty) (ch : ReliableChannel) :
    receiveFragment now (dataByte seq f.first f.last :: b1 :: (f.payload ++ [fragmentCanary])) ch =
      receiveData now seq f.first f.last f.payload (readAck now b1 ch) := by
  obtain ⟨h1, h2, h3⟩ := dataByte_decode hseq f.first f.last
  rw [receiveFragment_canary, receiveBody_readAck, h1, h2, h3, if_pos hf]

/-- What a receiver does with the acknowledgement of a message. -/
def applyAck (now : ℕ) (ack : Option ℕ) (ch : ReliableChannel) : ReliableChannel :=
  match ack with
  | none => ch
  | some r => receiveAck now (UInt8.ofNat ((r + 15) % 16)) ch

/-- Reading the second byte applies the acknowledgement it was written with. -/
theorem readAck_ackByte (now : ℕ) (ack : Option ℕ) (ch : ReliableChannel) :
    readAck now (ackByte ack) ch = applyAck now ack ch := by
  cases ack with
  | none => rfl
  | some r =>
      obtain ⟨h1, h2⟩ := ackByte_decode r
      unfold readAck applyAck
      simp only [h1, h2, if_true]

/-- A pure ACK only moves the sender's window. -/
theorem receiveFragment_pureAck (now : ℕ) (r : ℕ) (ch : ReliableChannel) :
    receiveFragment now [0, ackByte (some r)] ch = applyAck now (some r) ch := by
  show receiveBody now 0 (ackByte (some r)) [] ch = _
  rw [receiveBody_readAck, readAck_ackByte]
  rfl

theorem receiveFragment_data (now : ℕ) {seq : UInt8} {i : ℕ} (hseq : Wraps seq i)
    (ack : Option ℕ) {f : FragmentEntry} (hf : f.first || f.last || !f.payload.isEmpty)
    (ch : ReliableChannel) :
    receiveFragment now
        (dataByte seq f.first f.last :: ackByte ack :: (f.payload ++ [fragmentCanary])) ch =
      receiveData now seq f.first f.last f.payload (applyAck now ack ch) := by
  rw [receiveFragment_message now hseq _ hf, readAck_ackByte]

/-! ## What an operation leaves alone -/

/-- The part of the state the sending half works on. -/
structure SendPart where
  sendQueue : List Bytes
  fragQueue : List FragmentEntry
  sendNext : UInt8
  sendBase : UInt8
  inFlight : List InFlightFragment
  lastProgressAt : ℕ
  linkDead : Bool
  chunkSize : ℕ

/-- The part of a channel that sends. -/
def sendPart (ch : ReliableChannel) : SendPart :=
  ⟨ch.state.sendQueue, ch.state.fragQueue, ch.state.sendNext, ch.state.sendBase,
    ch.state.inFlight, ch.state.lastProgressAt, ch.state.linkDead, ch.chunkSize⟩

/-- The part of the state the receiving half works on, acknowledgements apart. -/
structure RecvPart where
  recvNext : UInt8
  reassembly : Bytes
  reassemblyOverflow : Bool
  recvBuf : List BufferedFragment
  datagramTx : List Bytes

/-- The part of a channel that receives. -/
def recvPart (ch : ReliableChannel) : RecvPart :=
  ⟨ch.state.recvNext, ch.state.reassembly, ch.state.reassemblyOverflow, ch.state.recvBuf,
    ch.datagramTx⟩

/-- Accepting a fragment leaves the sending part alone. -/
theorem acceptAndDeliver_sendPart (now : ℕ) (first last : Bool) (payload : Bytes)
    (ch : ReliableChannel) :
    sendPart (acceptAndDeliver now first last payload ch) = sendPart ch := by
  unfold acceptAndDeliver sendPart notifyOne ChannelState.scheduleAck
  cases first <;> cases last <;> simp only [if_true, Bool.false_eq_true, if_false] <;>
    split <;> (try split) <;> rfl

/-- What it does to the receiving part. -/
theorem acceptAndDeliver_recv (now : ℕ) (first last : Bool) (payload : Bytes)
    (ch : ReliableChannel) :
    let ch' := acceptAndDeliver now first last payload ch
    ch'.state.recvNext = (ch.state.recvNext + 1) % seqModulus ∧
    ch'.state.recvBuf = ch.state.recvBuf ∧
    ch'.state.ackPending = some ((ch'.state.recvNext + seqModulus - 1) % seqModulus) := by
  unfold acceptAndDeliver notifyOne ChannelState.scheduleAck
  cases first <;> cases last <;> simp only [if_true, Bool.false_eq_true, if_false] <;>
    split <;> (try split) <;> refine ⟨rfl, rfl, ?_⟩ <;> first | rfl | trivial

theorem drainLoop_sendPart (now : ℕ) (n : ℕ) (ch : ReliableChannel) :
    sendPart (drainLoop now n ch) = sendPart ch := by
  induction n generalizing ch with
  | zero => rfl
  | succ n ih =>
      unfold drainLoop
      split
      · rfl
      · rw [ih, acceptAndDeliver_sendPart]
        rfl

theorem receiveData_sendPart (now : ℕ) (seq : UInt8) (first last : Bool) (payload : Bytes)
    (ch : ReliableChannel) :
    sendPart (receiveData now seq first last payload ch) = sendPart ch := by
  unfold receiveData
  split
  · unfold drainRecvBuf
    rw [drainLoop_sendPart, acceptAndDeliver_sendPart]
  · split
    · rfl
    · split <;> rfl

/-- An acknowledgement leaves the receiving part alone. -/
theorem readAck_recvPart (now : ℕ) (b1 : UInt8) (ch : ReliableChannel) :
    recvPart (readAck now b1 ch) = recvPart ch ∧
    (readAck now b1 ch).state.ackPending = ch.state.ackPending := by
  unfold readAck receiveAck
  dsimp only
  split
  · split <;> exact ⟨rfl, rfl⟩
  · exact ⟨rfl, rfl⟩

theorem applyAck_recvPart (now : ℕ) (ack : Option ℕ) (ch : ReliableChannel) :
    recvPart (applyAck now ack ch) = recvPart ch ∧
    (applyAck now ack ch).state.ackPending = ch.state.ackPending := by
  rw [← readAck_ackByte]
  exact readAck_recvPart now (ackByte ack) ch

/-! ## The sender's window on absolute numbers -/

/-- An acknowledgement of everything below `r` that is at most nine fragments
behind the window, and not past its end, slides the window exactly when it is
ahead of `base`. -/
theorem receiveAck_spec {ch : ReliableChannel} {base next r : ℕ}
    (hbase : Wraps ch.state.sendBase base) (hnext : Wraps ch.state.sendNext next)
    (hlen : ch.state.inFlight.length = next - base)
    (hbn : base ≤ next) (hwin : next ≤ base + 6) (hr : r ≤ next) (hold : base ≤ r + 9)
    (now : ℕ) :
    receiveAck now (UInt8.ofNat ((r + 15) % 16)) ch =
      if base < r then
        notifyOne { ch with state := { ch.state with
          inFlight := ch.state.inFlight.drop (r - base)
          sendBase := UInt8.ofNat (r % 16)
          lastProgressAt := now } }
      else ch := by
  have hw := ackSeq_succ_wraps r
  have hd := seqDist_toNat hbase hw
  have hc : ch.state.inFlightCount.toNat = (next % 16 + 16 - base % 16) % 16 :=
    seqDist_toNat hbase hnext
  unfold receiveAck
  simp only [UInt8.lt_iff_toNat_lt, UInt8.le_iff_toNat_le, hd, hc, windowSize, UInt8.reduceToNat]
  by_cases hlt : base < r
  · have hdist : (r % 16 + 16 - base % 16) % 16 = r - base := by omega
    rw [if_pos (by omega), if_pos hlt, hdist, hw.eq_ofNat, hlen, Nat.min_eq_left (by omega)]
  · rw [if_neg (by omega), if_neg hlt]

/-- The window has room for six, in absolute numbers. -/
theorem canSend_iff {s : ChannelState} {base next : ℕ} (hbase : Wraps s.sendBase base)
    (hnext : Wraps s.sendNext next) (hbn : base ≤ next) (hwin : next ≤ base + 6) :
    s.canSend = true ↔ next < base + 6 := by
  have hc : s.inFlightCount.toNat = (next % 16 + 16 - base % 16) % 16 :=
    seqDist_toNat hbase hnext
  unfold ChannelState.canSend
  simp only [decide_eq_true_eq, UInt8.lt_iff_toNat_lt, hc, windowSize, UInt8.reduceToNat]
  omega

/-! ## Everything `next_send_action` can do -/

/-- Every datagram has a fragment. -/
theorem fragments_ne_nil (c : ℕ) (d : Bytes) : fragments c d ≠ [] := by
  unfold fragments
  dsimp only
  split
  · simp
  · rename_i hlong
    cases d with
    | nil => simp at hlong
    | cons b bs => simp [chunks, chunksAux]

/-- `next_send_action` refills twice; the second time finds the queue filled. -/
theorem refill_refill (ch : ReliableChannel) : refill (refill ch) = refill ch := by
  cases hf : ch.state.fragQueue with
  | cons f fs => simp [refill, hf]
  | nil =>
      cases hs : ch.state.sendQueue with
      | nil => simp [refill, hf, hs]
      | cons d ds =>
          have hr : (refill ch).state.fragQueue = fragments ch.chunkSize d := by
            simp [refill, hf, hs, fragmentInto]
          obtain ⟨f, fs, hfs⟩ := List.exists_cons_of_ne_nil (fragments_ne_nil ch.chunkSize d)
          rw [hfs] at hr
          rw [refill.eq_def (refill ch), hr]

/-- Refilling touches the two queues only. -/
theorem refill_frame (ch : ReliableChannel) :
    (refill ch).state.sendBase = ch.state.sendBase ∧
    (refill ch).state.sendNext = ch.state.sendNext ∧
    (refill ch).state.inFlight = ch.state.inFlight ∧
    recvPart (refill ch) = recvPart ch ∧
    (refill ch).state.ackPending = ch.state.ackPending := by
  unfold refill
  split <;> exact ⟨rfl, rfl, rfl, rfl, rfl⟩

/-- `sendFragment` appends its message to `in_flight`, takes the pending ACK and
leaves the receiving half alone. -/
theorem sendFragment_spec (now : ℕ) (frag : FragmentEntry) (rest : List FragmentEntry)
    (ch : ReliableChannel) {msg : Bytes} (hmsg : (sendFragment now frag rest ch).2 = .send msg) :
    let ch' := (sendFragment now frag rest ch).1
    ch'.state.inFlight = ch.state.inFlight ++ [⟨ch.state.sendNext, msg⟩] ∧
    ch'.state.sendNext = (ch.state.sendNext + 1) % seqModulus ∧
    ch'.state.sendBase = ch.state.sendBase ∧ ch'.state.sendQueue = ch.state.sendQueue ∧
    ch'.state.fragQueue = rest ∧ ch'.chunkSize = ch.chunkSize ∧
    recvPart ch' = recvPart ch ∧ ch'.state.ackPending = none ∧ ch'.state.ackDeadline = none ∧
    ch'.state.lastProgressAt =
      (if ch.state.inFlight.isEmpty then now else ch.state.lastProgressAt) := by
  unfold sendFragment at hmsg ⊢
  dsimp only at hmsg ⊢
  rw [SendAction.send.injEq] at hmsg
  rw [hmsg]
  unfold ChannelState.takeAck
  dsimp only
  cases ch.state.inFlight.isEmpty with
  | true => exact ⟨rfl, rfl, rfl, rfl, rfl, rfl, rfl, rfl, rfl, rfl⟩
  | false => exact ⟨rfl, rfl, rfl, rfl, rfl, rfl, rfl, rfl, rfl, rfl⟩

/-- Neither the window nor the queues let a fragment out. -/
def Quiet (ch : ReliableChannel) : Prop :=
  (refill ch).state.canSend = false ∨ (refill ch).state.fragQueue = []

/-- The outcomes of `next_send_action`. -/
inductive Action (now : ℕ) (ch : ReliableChannel) : ReliableChannel × SendAction → Prop where
  | dead : ch.state.linkDead = true → Action now ch (ch, .dead)
  | data {frag : FragmentEntry} {rest : List FragmentEntry} : ch.state.linkDead = false →
      (refill ch).state.canSend = true → (refill ch).state.fragQueue = frag :: rest →
      Action now ch (sendFragment now frag rest (refill ch))
  | pureAck {v : UInt8} : ch.state.linkDead = false → Quiet ch →
      (refill ch).state.ackPending = some v →
      Action now ch
        ({ refill ch with state := (refill ch).state.takeAck }, .send (setAck [0, 0] v))
  | wait : ch.state.linkDead = false → Quiet ch →
      (∀ v, (refill ch).state.ackPending = some v →
        (refill ch).state.ackDeadline.all (· ≤ now) = false) →
      Action now ch (refill ch, .wait)

/-- The things a call of `next_send_action` can do. -/
theorem nextSendAction_cases (now : ℕ) (ch : ReliableChannel) :
    Action now ch (nextSendAction now ch) := by
  cases hdead : ch.state.linkDead with
  | true =>
      have heq : nextSendAction now ch = (ch, .dead) := by simp [nextSendAction, hdead]
      rw [heq]
      exact Action.dead hdead
  | false =>
      -- the tail, reached with a closed window or nothing to send
      have htail : Quiet ch → nextSendAction now ch = sendPureAck now (refill ch) →
          Action now ch (nextSendAction now ch) := by
        intro hq heq
        rw [heq]
        unfold sendPureAck
        cases ha : (refill ch).state.ackPending with
        | none =>
            refine Action.wait hdead hq ?_
            intro v hv
            rw [ha] at hv
            cases hv
        | some v =>
            dsimp only
            split
            · exact Action.pureAck hdead hq ha
            · rename_i hall
              exact Action.wait hdead hq fun _ _ => by simpa using hall
      cases hcan : (refill ch).state.canSend with
      | false => exact htail (Or.inl hcan) (by simp [nextSendAction, hdead, hcan])
      | true =>
          cases hfq : (refill ch).state.fragQueue with
          | nil =>
              apply htail (Or.inr hfq)
              simp [nextSendAction, hdead, hcan, refill_refill, hfq]
          | cons frag rest =>
              have heq : nextSendAction now ch = sendFragment now frag rest (refill ch) := by
                simp [nextSendAction, hdead, hcan, refill_refill, hfq]
              rw [heq]
              exact Action.data hdead hcan hfq

end ReliableChannel

end IrohBle.Reliable
