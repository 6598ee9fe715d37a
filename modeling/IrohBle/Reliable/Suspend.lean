import IrohBle.Reliable.Reassembly

/-! # Reliable.Suspend: where `receive_fragment` waits

`datagram_tx` is a bounded channel, and `accept_and_deliver` awaits its `send` with the channel
state locked. Here `receive_fragment` is cut at that point: `beginReceive` runs up to the first
`send`, `resume` from a `send` that has completed to the next one.

* `receiveFragment_eq`: cut and put together again it is `receiveFragment`.
* `total_beginReceive`, `total_resume`: how many datagrams a call sends is known before it starts
  (`completes`): those that the fragment and the buffered ones behind it complete.
-/

namespace IrohBle.Reliable

namespace ReliableChannel

/-! ## The call in pieces -/

/-- The reassembly buffer once `accept_and_deliver` has added the payload. -/
def reassemble (first : Bool) (payload : Bytes) (s : ChannelState) : ChannelState :=
  let s := if first then { s with reassembly := [], reassemblyOverflow := false } else s
  if s.reassemblyOverflow then s
  else if maxDatagramSize < (s.reassembly ++ payload).length then
    { s with reassembly := [], reassemblyOverflow := true }
  else { s with reassembly := s.reassembly ++ payload }

/-- `accept_and_deliver` before `datagram_tx.send`, with the datagram to send. -/
def beginAccept (first last : Bool) (payload : Bytes) (ch : ReliableChannel) :
    ReliableChannel × Option Bytes :=
  let s := reassemble first payload ch.state
  if last then
    ({ ch with state := { s with reassembly := [], reassemblyOverflow := false } },
      if s.reassembly.isEmpty then none else some s.reassembly)
  else ({ ch with state := s }, none)

/-- The rest of `accept_and_deliver`. -/
def finishAccept (now : ℕ) (ch : ReliableChannel) : ReliableChannel :=
  let recvNext := (ch.state.recvNext + 1) % seqModulus
  let ackSeq := (recvNext + seqModulus - 1) % seqModulus
  notifyOne { ch with state := ({ ch.state with recvNext := recvNext }).scheduleAck now ackSeq }

/-- A `send` that has completed. -/
def pushDatagram (d : Bytes) (ch : ReliableChannel) : ReliableChannel :=
  { ch with datagramTx := ch.datagramTx ++ [d] }

/-- `drain_recv_buf` up to the next `send`. -/
def drainToSend (now : ℕ) : ℕ → ReliableChannel → ReliableChannel × Option Bytes
  | 0, ch => (ch, none)
  | n + 1, ch =>
    match ch.state.recvBuf.find? (·.seq == ch.state.recvNext) with
    | none => (ch, none)
    | some frag =>
      let s := { ch.state with
        recvBuf := ch.state.recvBuf.eraseP (·.seq == ch.state.recvNext) }
      match beginAccept frag.first frag.last frag.payload { ch with state := s } with
      | (ch, some d) => (ch, some d)
      | (ch, none) => drainToSend now n (finishAccept now ch)

/-- The end of one `accept_and_deliver`, and on to the next `send`. -/
def goOn (now : ℕ) (ch : ReliableChannel) : ReliableChannel × Option Bytes :=
  let ch := finishAccept now ch
  drainToSend now ch.state.recvBuf.length ch

/-- `receive_fragment` goes on after the `send` of `d`. -/
def resume (now : ℕ) (d : Bytes) (ch : ReliableChannel) : ReliableChannel × Option Bytes :=
  goOn now (pushDatagram d ch)

/-- The `if has_data` block of `receive_fragment` up to the first `send`. -/
def beginData (now : ℕ) (seq : UInt8) (first last : Bool) (payload : Bytes)
    (ch : ReliableChannel) : ReliableChannel × Option Bytes :=
  if seq = ch.state.recvNext then
    match beginAccept first last payload ch with
    | (ch, some d) => (ch, some d)
    | (ch, none) => goOn now ch
  else (receiveData now seq first last payload ch, none)

/-- `receive_body` up to the first `send`. -/
def beginBody (now : ℕ) (b0 b1 : UInt8) (payload : Bytes) (ch : ReliableChannel) :
    ReliableChannel × Option Bytes :=
  let first := (b0 &&& flagFirst) != 0
  let last := (b0 &&& flagLast) != 0
  let ch := readAck now b1 ch
  if first || last || !payload.isEmpty then
    beginData now (b0 &&& seqMask) first last payload ch
  else (ch, none)

/-- `receive_fragment` up to the first `send`. -/
def beginReceive (now : ℕ) (value : Bytes) (ch : ReliableChannel) :
    ReliableChannel × Option Bytes :=
  match value with
  | [] | [_] => (ch, none)
  | [b0, b1] => beginBody now b0 b1 [] ch
  | b0 :: b1 :: rest =>
    if rest.getLast? ≠ some fragmentCanary then
      ({ ch with truncationCounter := ch.truncationCounter + 1 }, none)
    else beginBody now b0 b1 rest.dropLast ch

/-! ## Put together again -/

/-- The call as it runs when every `send` completes at once. -/
def runOut (now : ℕ) : ℕ → ReliableChannel × Option Bytes → ReliableChannel
  | _, (ch, none) => ch
  | 0, (ch, some _) => ch
  | n + 1, (ch, some d) => runOut now n (resume now d ch)

/-- `accept_and_deliver` is its two halves, with the `send` between them. -/
theorem acceptAndDeliver_begin (now : ℕ) (first last : Bool) (payload : Bytes)
    (ch : ReliableChannel) :
    acceptAndDeliver now first last payload ch =
      match beginAccept first last payload ch with
      | (ch, some d) => finishAccept now (pushDatagram d ch)
      | (ch, none) => finishAccept now ch := by
  cases last with
  | false => rfl
  | true =>
      have heq : acceptAndDeliver now first true payload ch =
          finishAccept now { ch with
            state := { reassemble first payload ch.state with
              reassembly := [], reassemblyOverflow := false }
            datagramTx := if !(reassemble first payload ch.state).reassembly.isEmpty then
                ch.datagramTx ++ [(reassemble first payload ch.state).reassembly]
              else ch.datagramTx } := rfl
      rw [heq]
      unfold beginAccept pushDatagram
      simp only [if_true]
      cases (reassemble first payload ch.state).reassembly with
      | nil => rfl
      | cons b bs => rfl

/-- Reassembling touches neither the counter nor the buffer. -/
theorem reassemble_frame (first : Bool) (payload : Bytes) (s : ChannelState) :
    (reassemble first payload s).recvNext = s.recvNext ∧
      (reassemble first payload s).recvBuf = s.recvBuf := by
  unfold reassemble
  cases first <;> simp only [if_true, Bool.false_eq_true, if_false] <;> split <;> (try split) <;>
    exact ⟨rfl, rfl⟩

theorem beginAccept_frame (first last : Bool) (payload : Bytes) (ch : ReliableChannel) :
    let ch' := (beginAccept first last payload ch).1
    ch'.state.recvNext = ch.state.recvNext ∧ ch'.state.recvBuf = ch.state.recvBuf ∧
      ch'.datagramTx = ch.datagramTx := by
  obtain ⟨hnext, hbuf⟩ := reassemble_frame first payload ch.state
  unfold beginAccept
  cases last <;> exact ⟨hnext, hbuf, rfl⟩

theorem goOn_eq (now : ℕ) (ch : ReliableChannel) :
    goOn now ch = drainToSend now ch.state.recvBuf.length (finishAccept now ch) :=
  rfl

/-- A fragment that was found leaves a buffer that is shorter by one. -/
theorem length_eraseP_find {buf : List BufferedFragment} {p : BufferedFragment → Bool}
    {f : BufferedFragment} (h : buf.find? p = some f) : (buf.eraseP p).length + 1 = buf.length := by
  have hlen := List.length_eraseP_of_mem (List.mem_of_find?_eq_some h) (List.find?_some h)
  have hpos := List.length_pos_of_mem (List.mem_of_find?_eq_some h)
  omega

/-- Draining with a pause at every `send` drains. -/
theorem runOut_drainToSend (now : ℕ) {n m : ℕ} (hm : n ≤ m) (ch : ReliableChannel)
    (hn : ch.state.recvBuf.length = n) :
    runOut now m (drainToSend now n ch) = drainLoop now n ch := by
  induction n generalizing m ch with
  | zero => cases m <;> rfl
  | succ n ih =>
      unfold drainToSend drainLoop
      cases hfind : ch.state.recvBuf.find? (·.seq == ch.state.recvNext) with
      | none => cases m <;> rfl
      | some frag =>
          dsimp only
          set ch₁ : ReliableChannel := { ch with state := { ch.state with
            recvBuf := ch.state.recvBuf.eraseP (·.seq == ch.state.recvNext) } } with hch₁
          have hlen : ch₁.state.recvBuf.length = n := by
            have herase := length_eraseP_find hfind
            rw [hch₁]
            dsimp only
            omega
          have hbuf := (beginAccept_frame frag.first frag.last frag.payload ch₁).2.1
          rw [acceptAndDeliver_begin]
          rcases hbegin : beginAccept frag.first frag.last frag.payload ch₁ with ⟨ch₂, _ | d⟩
          · -- nothing to send: the loop goes on
            rw [hbegin] at hbuf
            exact ih (by omega) _ (by rw [← hlen, ← hbuf]; rfl)
          · rw [hbegin] at hbuf
            obtain ⟨m, rfl⟩ : ∃ k, m = k + 1 := ⟨m - 1, by omega⟩
            have hlen₂ : ch₂.state.recvBuf.length = n := by rw [← hlen, ← hbuf]
            dsimp only
            rw [runOut, resume, goOn_eq]
            have hlen₃ : (pushDatagram d ch₂).state.recvBuf.length = n := hlen₂
            rw [hlen₃]
            exact ih (by omega) _ hlen₃

theorem runOut_none (now m : ℕ) (ch : ReliableChannel) : runOut now m (ch, none) = ch := by
  cases m <;> rfl

theorem runOut_goOn (now : ℕ) {m : ℕ} (ch : ReliableChannel) (hm : ch.state.recvBuf.length ≤ m) :
    runOut now m (goOn now ch) = drainRecvBuf now (finishAccept now ch) := by
  rw [goOn_eq]
  exact runOut_drainToSend now hm _ rfl

/-- Put together again, a data fragment is `receive_data`. -/
theorem runOut_beginData (now : ℕ) (seq : UInt8) (first last : Bool) (payload : Bytes)
    (ch : ReliableChannel) :
    runOut now (ch.state.recvBuf.length + 1) (beginData now seq first last payload ch) =
      receiveData now seq first last payload ch := by
  unfold beginData
  by_cases hseq : seq = ch.state.recvNext
  · unfold receiveData
    rw [if_pos hseq, if_pos hseq, acceptAndDeliver_begin]
    have hbuf := (beginAccept_frame first last payload ch).2.1
    rcases hbegin : beginAccept first last payload ch with ⟨ch₁, _ | d⟩
    · rw [hbegin] at hbuf
      exact runOut_goOn now ch₁ (by rw [← hbuf]; exact Nat.le_succ _)
    · rw [hbegin] at hbuf
      dsimp only
      rw [runOut, resume]
      exact runOut_goOn now _ (by rw [← hbuf]; exact le_refl _)
  · rw [if_neg hseq, runOut_none]

/-- A call whose every `send` completes at once is `receiveFragment`. -/
theorem receiveFragment_eq (now : ℕ) (value : Bytes) (ch : ReliableChannel) :
    runOut now (ch.state.recvBuf.length + 1) (beginReceive now value ch) =
      receiveFragment now value ch := by
  have hbody : ∀ b0 b1 payload,
      runOut now (ch.state.recvBuf.length + 1) (beginBody now b0 b1 payload ch) =
        receiveBody now b0 b1 payload ch := by
    intro b0 b1 payload
    have hbuf : (readAck now b1 ch).state.recvBuf = ch.state.recvBuf :=
      congrArg RecvPart.recvBuf (readAck_recvPart now b1 ch).1
    unfold beginBody
    rw [receiveBody_readAck, ← hbuf]
    dsimp only
    split
    · exact runOut_beginData now _ _ _ _ _
    · exact runOut_none _ _ _
  match value with
  | [] => exact runOut_none _ _ _
  | [_] => exact runOut_none _ _ _
  | [b0, b1] => exact hbody b0 b1 []
  | b0 :: b1 :: b2 :: rest =>
      unfold beginReceive receiveFragment
      dsimp only
      split
      · exact runOut_none _ _ _
      · exact hbody b0 b1 _

/-! ## How much a call sends -/

/-- The buffered fragments that are accepted one after another from `seq` on. -/
def consecutive : ℕ → UInt8 → List BufferedFragment → List FragmentEntry
  | 0, _, _ => []
  | n + 1, seq, buf =>
    match buf.find? (·.seq == seq) with
    | none => []
    | some f =>
      ⟨f.payload, f.first, f.last⟩ ::
        consecutive n ((seq + 1) % seqModulus) (buf.eraseP (·.seq == seq))

/-- The buffered fragments that follow the one the receiver expects. -/
def following (ch : ReliableChannel) : List FragmentEntry :=
  consecutive ch.state.recvBuf.length ((ch.state.recvNext + 1) % seqModulus) ch.state.recvBuf

/-- The data of a message without its canary: sequence number and fragment. -/
def dataOf (b0 : UInt8) (payload : Bytes) : Option (UInt8 × FragmentEntry) :=
  let first := (b0 &&& flagFirst) != 0
  let last := (b0 &&& flagLast) != 0
  if first || last || !payload.isEmpty then some (b0 &&& seqMask, ⟨payload, first, last⟩) else none

/-- The data of a message. -/
def fragmentOf : Bytes → Option (UInt8 × FragmentEntry)
  | [] | [_] => none
  | [b0, _] => dataOf b0 []
  | b0 :: _ :: rest =>
    if rest.getLast? ≠ some fragmentCanary then none else dataOf b0 rest.dropLast

/-- The fragments that data makes the receiver accept: its own, if it is the one expected, and
those buffered behind it. -/
def acceptedOf (data : Option (UInt8 × FragmentEntry)) (ch : ReliableChannel) :
    List FragmentEntry :=
  match data with
  | none => []
  | some (seq, f) => if seq = ch.state.recvNext then f :: following ch else []

/-- The fragments that a message makes the receiver accept. -/
def released (value : Bytes) (ch : ReliableChannel) : List FragmentEntry :=
  acceptedOf (fragmentOf value) ch

/-- How many datagrams these fragments complete. -/
def completes (value : Bytes) (ch : ReliableChannel) : ℕ :=
  (acceptAll (asmOf ch) (released value ch)).delivered.length - ch.datagramTx.length

/-- What has been sent when the call ends. -/
def total : ReliableChannel × Option Bytes → List Bytes
  | (ch, none) => ch.datagramTx
  | (ch, some d) => (acceptAll (asmOf (pushDatagram d ch)) (following ch)).delivered

/-- The first half of `accept_and_deliver` accepts the fragment, its datagram apart. -/
theorem beginAccept_asm (f : FragmentEntry) (ch : ReliableChannel) :
    acceptFrag (asmOf ch) f =
      match beginAccept f.first f.last f.payload ch with
      | (ch, some d) => asmOf (pushDatagram d ch)
      | (ch, none) => asmOf ch := by
  have hacc := acceptAndDeliver_asm 0 f ch
  rw [acceptAndDeliver_begin] at hacc
  rw [← hacc]
  rcases beginAccept f.first f.last f.payload ch with ⟨ch₁, _ | d⟩ <;> rfl

/-- Up to the next `send` nothing is handed out. -/
theorem drainToSend_datagramTx (now n : ℕ) (ch : ReliableChannel) :
    (drainToSend now n ch).1.datagramTx = ch.datagramTx := by
  induction n generalizing ch with
  | zero => rfl
  | succ n ih =>
      unfold drainToSend
      split
      · rfl
      · rename_i frag hfind
        dsimp only
        set ch₁ : ReliableChannel := { ch with state := { ch.state with
          recvBuf := ch.state.recvBuf.eraseP (·.seq == ch.state.recvNext) } }
        have htx := (beginAccept_frame frag.first frag.last frag.payload ch₁).2.2
        rcases hbegin : beginAccept frag.first frag.last frag.payload ch₁ with ⟨ch₂, _ | d⟩
        · rw [hbegin] at htx
          dsimp only
          rw [ih]
          exact htx
        · rw [hbegin] at htx
          exact htx

/-- Draining sends what the consecutive buffered fragments complete. -/
theorem total_drainToSend (now : ℕ) {n : ℕ} (ch : ReliableChannel)
    (hn : ch.state.recvBuf.length = n) :
    total (drainToSend now n ch) =
      (acceptAll (asmOf ch) (consecutive n ch.state.recvNext ch.state.recvBuf)).delivered := by
  -- induction on the fragments that are buffered
  induction n generalizing ch with
  | zero => rfl
  | succ n ih =>
      unfold drainToSend consecutive
      cases hfind : ch.state.recvBuf.find? (·.seq == ch.state.recvNext) with
      | none => rfl
      | some frag =>
          dsimp only
          set ch₁ : ReliableChannel := { ch with state := { ch.state with
            recvBuf := ch.state.recvBuf.eraseP (·.seq == ch.state.recvNext) } } with hch₁
          -- the buffer is shorter by the fragment that is in turn
          have hlen : ch₁.state.recvBuf.length = n := by
            have herase := length_eraseP_find hfind
            rw [hch₁]
            dsimp only
            omega
          have hasm := beginAccept_asm ⟨frag.payload, frag.first, frag.last⟩ ch₁
          obtain ⟨hnext, hbuf, -⟩ := beginAccept_frame frag.first frag.last frag.payload ch₁
          show _ = (acceptAll (acceptFrag (asmOf ch₁) ⟨frag.payload, frag.first, frag.last⟩)
            (consecutive n ((ch₁.state.recvNext + 1) % seqModulus) ch₁.state.recvBuf)).delivered
          rw [hasm]
          dsimp only
          rcases hbegin : beginAccept frag.first frag.last frag.payload ch₁ with ⟨ch₂, _ | d⟩
          · rw [hbegin] at hnext hbuf
            dsimp only at hnext hbuf ⊢
            rw [← hnext, ← hbuf]
            exact ih _ (by rw [← hlen, ← hbuf]; rfl)
          · rw [hbegin] at hnext hbuf
            dsimp only at hnext hbuf ⊢
            have hfollow : following ch₂ =
                consecutive n ((ch₁.state.recvNext + 1) % seqModulus) ch₁.state.recvBuf := by
              unfold following
              rw [hnext, hbuf, hlen]
            rw [total, hfollow]

theorem total_goOn (now : ℕ) (ch : ReliableChannel) :
    total (goOn now ch) = (acceptAll (asmOf ch) (following ch)).delivered := by
  rw [goOn_eq]
  exact total_drainToSend now (finishAccept now ch) rfl

/-- A `send` that completes does not change what the call sends in all. -/
theorem total_resume (now : ℕ) (d : Bytes) (ch : ReliableChannel) :
    total (resume now d ch) = total (ch, some d) :=
  total_goOn now (pushDatagram d ch)

theorem resume_datagramTx (now : ℕ) (d : Bytes) (ch : ReliableChannel) :
    (resume now d ch).1.datagramTx = ch.datagramTx ++ [d] := by
  rw [resume, goOn_eq, drainToSend_datagramTx]
  rfl

/-- What a data fragment sends is known before it starts. -/
theorem total_beginData (now : ℕ) (seq : UInt8) (f : FragmentEntry) (ch : ReliableChannel) :
    total (beginData now seq f.first f.last f.payload ch) =
        (acceptAll (asmOf ch) (acceptedOf (some (seq, f)) ch)).delivered ∧
      (beginData now seq f.first f.last f.payload ch).1.datagramTx = ch.datagramTx := by
  unfold beginData
  by_cases hseq : seq = ch.state.recvNext
  · obtain ⟨hnext, hbuf, htx⟩ := beginAccept_frame f.first f.last f.payload ch
    have hasm := beginAccept_asm f ch
    rw [if_pos hseq, acceptedOf, if_pos hseq]
    show _ = (acceptAll (acceptFrag (asmOf ch) f) (following ch)).delivered ∧ _
    rw [hasm]
    -- nothing is complete yet: the buffered fragments follow at once
    rcases hbegin : beginAccept f.first f.last f.payload ch with ⟨ch₁, _ | d⟩
    · rw [hbegin] at hnext hbuf htx
      dsimp only at hnext hbuf htx ⊢
      have hfollow : following ch = following ch₁ := by
        unfold following
        rw [hnext, hbuf]
      constructor
      · rw [total_goOn, hfollow]
      · rw [goOn_eq, drainToSend_datagramTx]
        exact htx
    · -- a datagram is complete: they follow behind its `send`
      rw [hbegin] at hnext hbuf htx
      dsimp only at hnext hbuf htx ⊢
      have hfollow : following ch = following ch₁ := by
        unfold following
        rw [hnext, hbuf]
      rw [hfollow]
      exact ⟨rfl, htx⟩
  · rw [if_neg hseq, acceptedOf, if_neg hseq]
    have htx : (receiveData now seq f.first f.last f.payload ch).datagramTx = ch.datagramTx := by
      unfold receiveData
      rw [if_neg hseq]
      split
      · rfl
      · split <;> rfl
    exact ⟨htx, htx⟩

/-- What a whole message sends is known before it starts. -/
theorem total_beginBody (now : ℕ) (b0 b1 : UInt8) (payload : Bytes) (ch : ReliableChannel) :
    total (beginBody now b0 b1 payload ch) =
        (acceptAll (asmOf ch) (acceptedOf (dataOf b0 payload) ch)).delivered ∧
      (beginBody now b0 b1 payload ch).1.datagramTx = ch.datagramTx := by
  -- reading the acknowledgement changes nothing the count depends on
  have hpart := (readAck_recvPart now b1 ch).1
  have hnext : (readAck now b1 ch).state.recvNext = ch.state.recvNext :=
    congrArg RecvPart.recvNext hpart
  have hbuf : (readAck now b1 ch).state.recvBuf = ch.state.recvBuf :=
    congrArg RecvPart.recvBuf hpart
  have htx : (readAck now b1 ch).datagramTx = ch.datagramTx := congrArg RecvPart.datagramTx hpart
  have hasm : asmOf (readAck now b1 ch) = asmOf ch := by
    unfold asmOf
    rw [htx]
    congr 1
    · exact congrArg RecvPart.reassembly hpart
    · exact congrArg RecvPart.reassemblyOverflow hpart
  have haccepted : ∀ data, acceptedOf data (readAck now b1 ch) = acceptedOf data ch := by
    intro data
    unfold acceptedOf following
    rw [hnext, hbuf]
  unfold beginBody dataOf
  dsimp only
  split
  · have hdata := total_beginData now (b0 &&& seqMask)
      ⟨payload, (b0 &&& flagFirst) != 0, (b0 &&& flagLast) != 0⟩ (readAck now b1 ch)
    rw [hasm, haccepted, htx] at hdata
    exact hdata
  · exact ⟨htx, htx⟩

/-- What a call sends in all is what the fragments it releases complete, and nothing has been sent
when it comes to its first `send`. -/
theorem total_beginReceive (now : ℕ) (value : Bytes) (ch : ReliableChannel) :
    total (beginReceive now value ch) =
        (acceptAll (asmOf ch) (released value ch)).delivered ∧
      (beginReceive now value ch).1.datagramTx = ch.datagramTx := by
  match value with
  | [] => exact ⟨rfl, rfl⟩
  | [_] => exact ⟨rfl, rfl⟩
  | [b0, b1] => exact total_beginBody now b0 b1 [] ch
  | b0 :: b1 :: b2 :: rest =>
      unfold beginReceive released fragmentOf
      dsimp only
      split
      · exact ⟨rfl, rfl⟩
      · exact total_beginBody now b0 b1 _ ch

/-- What a call sends in all depends on the receiving half only. -/
theorem total_congr {ch ch' : ReliableChannel} (h : recvPart ch' = recvPart ch) (d : Bytes) :
    total (ch', some d) = total (ch, some d) := by
  have hnext : ch'.state.recvNext = ch.state.recvNext := congrArg RecvPart.recvNext h
  have hbuf : ch'.state.recvBuf = ch.state.recvBuf := congrArg RecvPart.recvBuf h
  have hfollow : following ch' = following ch := by
    unfold following
    rw [hnext, hbuf]
  have hasm : asmOf (pushDatagram d ch') = asmOf (pushDatagram d ch) := by
    unfold asmOf pushDatagram
    congr 1
    · exact congrArg RecvPart.reassembly h
    · exact congrArg RecvPart.reassemblyOverflow h
    · rw [show ch'.datagramTx = ch.datagramTx from congrArg RecvPart.datagramTx h]
  rw [total, total, hfollow, hasm]

/-- With a datagram in hand, at least that is to be sent. -/
theorem length_total_some (d : Bytes) (ch : ReliableChannel) :
    ch.datagramTx.length + 1 ≤ (total (ch, some d)).length := by
  have hprefix := (delivered_mono (asmOf (pushDatagram d ch)) (following ch)).length_le
  have hpush : (asmOf (pushDatagram d ch)).delivered.length = ch.datagramTx.length + 1 := by
    simp [asmOf, pushDatagram]
  rw [total]
  omega

end ReliableChannel

end IrohBle.Reliable
