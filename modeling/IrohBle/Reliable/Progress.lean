import IrohBle.Reliable.Delivery
import IrohBle.Reliable.Sender

/-! # Reliable.Progress: the channel never gets stuck

`delivery_prefix` allows a channel that delivers nothing. When only `a` enqueues, whatever has
been lost so far, the two channels can always finish the work by themselves
(`can_deliver`): the retransmission step of `a`, the arrival of its message, the acknowledgement
of `b` and its arrival move the window by at least one fragment.

* `DuplexLabel.works`: the steps of the protocol itself, with no new datagram, no loss and no
  change of the chunk size.
* `outstanding`: the fragments that are not acknowledged yet, those that have not been cut
  included.
-/

namespace IrohBle.Reliable

open ReliableChannel Lib

/-- The steps the protocol takes by itself. -/
def DuplexLabel.works : DuplexLabel → Bool
  | .send .. | .resend _ | .receive .. => true
  | _ => false

/-! ## What waits in the queues -/

namespace ReliableChannel

/-- The fragments that have no number yet. -/
def unsent (ch : ReliableChannel) : ℕ :=
  ch.state.fragQueue.length +
    (ch.state.sendQueue.map fun d => (fragments ch.chunkSize d).length).sum

/-- Cutting datagrams leaves as much unsent as before. -/
theorem unsent_refill (ch : ReliableChannel) : unsent (refill ch) = unsent ch := by
  unfold refill
  split
  · rename_i d rest hfq hsq
    simp [unsent, fragmentInto, hfq, hsq]
  · rfl

/-- A datagram is cut into at least one fragment. -/
theorem unsent_eq_zero {ch : ReliableChannel} (h : unsent ch = 0) :
    ch.state.fragQueue = [] ∧ ch.state.sendQueue = [] := by
  unfold unsent at h
  constructor
  · exact List.length_eq_zero_iff.mp (by omega)
  · cases hsq : ch.state.sendQueue with
    | nil => rfl
    | cons d ds =>
        have hpos : 0 < (fragments ch.chunkSize d).length :=
          List.length_pos_iff.mpr (fragments_ne_nil ch.chunkSize d)
        rw [hsq, List.map_cons, List.sum_cons] at h
        omega

/-- With something to send, the queue is filled. -/
theorem fragQueue_refill {ch : ReliableChannel} (h : 0 < unsent ch) :
    ∃ frag rest, (refill ch).state.fragQueue = frag :: rest := by
  apply List.exists_cons_of_ne_nil
  unfold refill
  split
  · rename_i d rest hfq hsq
    simp [fragmentInto, hfq, fragments_ne_nil]
  · rename_i hno
    intro hnil
    cases hsq : ch.state.sendQueue with
    | nil => simp [unsent, hnil, hsq] at h
    | cons d rest => exact hno d rest hnil hsq

/-! ## A channel that is not dead stays so -/

/-- Sending declares no link dead. -/
theorem linkDead_nextSendAction (now : ℕ) (ch : ReliableChannel) :
    (nextSendAction now ch).1.state.linkDead = ch.state.linkDead := by
  have hrefill : (refill ch).state.linkDead = ch.state.linkDead := by
    unfold refill
    split <;> rfl
  have hact := nextSendAction_cases now ch
  generalize nextSendAction now ch = r at hact
  cases hact with
  | dead _ => rfl
  | data _ _ _ =>
      rw [← hrefill]
      unfold sendFragment ChannelState.takeAck
      dsimp only
      split <;> rfl
  | pureAck _ _ _ => exact hrefill
  | wait _ _ _ => exact hrefill

/-- A pending acknowledgement stays pending while the buffer is drained. -/
theorem ackPending_drainLoop (now n : ℕ) {ch : ReliableChannel}
    (h : ch.state.ackPending.isSome = true) :
    (drainLoop now n ch).state.ackPending.isSome = true := by
  induction n generalizing ch with
  | zero => exact h
  | succ n ih =>
      unfold drainLoop
      split
      · exact h
      · apply ih
        rw [(acceptAndDeliver_recv now _ _ _ _).2.2]
        rfl

end ReliableChannel

namespace Duplex

/-- Neither channel has been declared dead. -/
def Alive (s : Duplex) : Prop := ∀ w, (s.side w).ch.state.linkDead = false

/-- A send of a side declares no link dead. -/
theorem linkDead_send (p : Side) (now : ℕ) :
    (p.send now).1.ch.state.linkDead = p.ch.state.linkDead := by
  have hnext := linkDead_nextSendAction now p.ch
  unfold Side.send
  dsimp only
  split
  · exact hnext
  · exact hnext

theorem linkDead_resend (p : Side) : p.resend.1.ch.state.linkDead = p.ch.state.linkDead := by
  have hfront : (resendFront p.ch).1.state.linkDead = p.ch.state.linkDead := by
    unfold resendFront
    split <;> rfl
  unfold Side.resend
  dsimp only
  split
  · exact hfront
  · exact hfront

theorem linkDead_enqueue (p : Side) (d : Bytes) :
    (p.enqueue d).ch.state.linkDead = p.ch.state.linkDead := by
  unfold Side.enqueue enqueueDatagram
  split <;> rfl

/-- Nothing but `mark_dead` sets the flag. -/
theorem Alive.step {s s' : Duplex} {l : DuplexLabel} (h : s.Alive)
    (hs : system.step l s = some s') : s'.Alive := by
  -- a change of one side that leaves the flag
  have hupdate : ∀ w (p : Side), p.ch.state.linkDead = (s.side w).ch.state.linkDead →
      ∀ v, (Function.update s.side w p v).ch.state.linkDead = false := by
    intro w p hp v
    by_cases hv : v = w
    · subst hv
      rw [Function.update_self, hp]
      exact h v
    · rw [Function.update_of_ne hv]
      exact h v
  cases l with
  | enqueue w d =>
      obtain rfl := Option.some.inj hs
      exact hupdate w _ (linkDead_enqueue _ d)
  | setChunkSize w n =>
      change (if 4 ≤ n then _ else none) = _ at hs
      split at hs
      · obtain rfl := Option.some.inj hs
        exact hupdate w _ rfl
      · cases hs
  | send w now =>
      change (if s.clock ≤ now then _ else none) = _ at hs
      split at hs
      · obtain rfl := Option.some.inj hs
        exact hupdate w _ (linkDead_send _ now)
      · cases hs
  | resend w =>
      obtain rfl := Option.some.inj hs
      exact hupdate w _ (linkDead_resend _)
  | receive w now =>
      obtain ⟨k, ks, -, rfl⟩ := receive_eq hs
      exact hupdate w _ (receiveFragment_received now k.bytes _).linkDead
  | lose w i =>
      obtain rfl := Option.some.inj hs
      exact h

end Duplex

/-! ## An old fragment arrives -/

/-- The fragments of `p` that are not acknowledged yet. -/
def Side.outstanding (p : Side) : ℕ := p.next - p.base + unsent p.ch

/-- A fragment that has arrived already is acknowledged once more. -/
theorem Receives.answers {sent : List FragmentEntry} {n i : ℕ} {ch : ReliableChannel}
    (hR : Receives sent n ch) {seq : UInt8} (hseq : Wraps seq i) (hold : i ≤ n) (hnear : n ≤ i + 10)
    (now : ℕ) (first last : Bool) (payload : Bytes) :
    (receiveData now seq first last payload ch).state.ackPending.isSome = true := by
  unfold receiveData
  split
  · apply ackPending_drainLoop
    rw [(acceptAndDeliver_recv now first last payload ch).2.2]
    rfl
  · rename_i hne
    have hlt : i < n := by
      rcases Nat.lt_or_eq_of_le hold with hlt | heq
      · exact hlt
      · subst heq
        exact absurd (hseq.inj hR.wraps) hne
    -- behind the window there is nothing to buffer
    have hdist := seqDist_toNat hR.wraps hseq
    have hout : ch.state.inRecvWindow seq = false := by
      unfold ChannelState.inRecvWindow
      rw [decide_eq_false_iff_not, UInt8.lt_iff_toNat_lt, hdist]
      show ¬ _ < 6
      omega
    rw [hout]
    rfl

/-- A fragment that the receiver has, or that comes next, is answered, and the receiver is past
it. -/
theorem DirInv.afterData_answers {p q : Side} {data acks : List Packet} {k : Packet}
    (h : DirInv p q (k :: data) acks) {i : ℕ} (hi : k.idx = some i) {seq : UInt8}
    (hseq : Wraps seq i) {f : FragmentEntry} (hf : p.sent[i]? = some f) (hold : i ≤ q.rcvd)
    (now : ℕ) :
    i < (q.afterData now seq f).rcvd ∧
      (q.afterData now seq f).ch.state.ackPending.isSome = true := by
  have hwin := h.window
  have hbr : p.base ≤ q.rcvd := hwin.base_le
  have hrn : q.rcvd ≤ p.next := hwin.rcvd_le
  have hnb : p.next ≤ p.base + 6 := hwin.next_le
  have hwire : (half p q (k :: data) acks).wire = i :: data.filterMap (·.idx) := by
    simp [half, hi]
  obtain ⟨hi1, hi2, hi3⟩ : i < p.next ∧ q.rcvd ≤ i + 6 ∧ i < q.rcvd + 6 :=
    hwin.wire i (by rw [hwire]; exact List.mem_cons_self)
  have hR := h.receives
  obtain ⟨m, hle, hRm, hset, hhas⟩ :=
    hR.offer ⟨hwin.buf_nodup, h.settled⟩ hseq hf (by omega) hi3 now
  -- everything the receiver has was sent, so sixteen numbers are enough to tell its counter
  have hm : m ≤ p.next := by
    rcases Nat.eq_zero_or_pos m with hzero | hpos
    · omega
    · rcases (hhas (m - 1)).mp (Or.inl (by omega)) with (hlt | hheld) | heq
      · omega
      · have := (hwin.buf (m - 1) hheld).2
        change m - 1 < p.next at this
        omega
      · omega
  have hrcvd : (q.afterData now seq f).rcvd = m :=
    unwrap_eq hR.wraps hRm.wraps hle (by omega)
  constructor
  · rw [hrcvd]
    rcases (hhas i).mpr (Or.inr rfl) with hlt | hheld
    · exact hlt
    · have hmi := le_of_mem_heldIdx hheld
      have heq : i = m := by omega
      rw [heq] at hheld
      exact absurd hheld hset.next
  · exact hR.answers hseq hold (by omega) now f.first f.last f.payload

/-- An acknowledgement ahead of the window slides it. -/
theorem DirInv.afterAck_slides {p q : Side} {data acks : List Packet} {k : Packet}
    (h : DirInv p q data (k :: acks)) (hp : SideInv p) {r : ℕ} (hk : k.ack = some r)
    (hlt : p.base < r) (now : ℕ) :
    (p.afterAck now k.ack).base = r ∧ (p.afterAck now k.ack).next = p.next ∧
      unsent (p.afterAck now k.ack).ch = unsent p.ch := by
  have hwin := h.window
  have hrn : q.rcvd ≤ p.next := hwin.rcvd_le
  have hnb : p.next ≤ p.base + 6 := hwin.next_le
  obtain ⟨hr1, hr2⟩ : r ≤ q.rcvd ∧ p.base ≤ r + 9 := hwin.ack r (by simp [half, hk])
  have hspec := receiveAck_spec hp.base hp.next hp.inFlight_length (by omega) hnb (by omega) hr2 now
  rw [if_pos hlt] at hspec
  have hw : Wraps (UInt8.ofNat (r % 16)) r := by
    unfold Wraps
    rw [UInt8.toNat_ofNat']
    omega
  have hch : applyAck now k.ack p.ch = notifyOne { p.ch with state := { p.ch.state with
      inFlight := p.ch.state.inFlight.drop (r - p.base)
      sendBase := UInt8.ofNat (r % 16)
      lastProgressAt := now } } := by
    rw [hk]
    exact hspec
  unfold Side.afterAck
  rw [hch]
  exact ⟨unwrap_eq hp.base hw (by omega) (by omega), rfl, rfl⟩

/-! ## One round -/

/-- The next fragment goes out while the window has room. -/
theorem Side.send_data {p : Side} (hack : ∀ v, p.ch.state.ackPending = some v →
    Wraps v (p.rcvd + 15)) (hnext : Wraps p.ch.state.sendNext p.next)
    (halive : p.ch.state.linkDead = false) (hcan : p.ch.state.canSend = true)
    (hunsent : 0 < unsent p.ch) (now : ℕ) :
    ∃ k, (p.send now).2 = some k ∧ k.idx = some p.next ∧ (p.send now).1.base = p.base ∧
      (p.send now).1.next = p.next + 1 ∧ unsent (p.send now).1.ch + 1 = unsent p.ch := by
  obtain ⟨frag, rest, hq⟩ := fragQueue_refill hunsent
  obtain ⟨hfb, hfn, -, -, -⟩ := refill_frame p.ch
  have hcan' : (refill p.ch).state.canSend = true := by
    unfold ChannelState.canSend ChannelState.inFlightCount at hcan ⊢
    rw [hfb, hfn]
    exact hcan
  have hact : nextSendAction now p.ch = sendFragment now frag rest (refill p.ch) := by
    simp [nextSendAction, halive, hcan', refill_refill, hq]
  have hsends : ∃ msg, (nextSendAction now p.ch).2 = .send msg := by
    rw [hact]
    exact ⟨_, rfl⟩
  have hspec := (sendFragment_spec now frag rest (refill p.ch) rfl)
  have hcount : unsent (sendFragment now frag rest (refill p.ch)).1 + 1 = unsent p.ch := by
    obtain ⟨-, -, -, hsq, hfq, hcs, -⟩ := hspec
    rw [← unsent_refill p.ch]
    unfold unsent
    rw [hsq, hfq, hcs, hq, List.length_cons]
    omega
  have hch : (p.send now).1.ch = (sendFragment now frag rest (refill p.ch)).1 := by
    obtain ⟨msg, hmsg⟩ := hsends
    unfold Side.send
    rw [← hact]
    simp only [hmsg]
  have hsome : (p.send now).2 ≠ none := by
    obtain ⟨msg, hmsg⟩ := hsends
    unfold Side.send
    simp [hmsg]
  rw [hch]
  have hcases := Side.send_cases hack hnext now
  generalize p.send now = r at hcases hch hsome
  cases hcases with
  | data hp₁ _ _ =>
      subst hp₁
      exact ⟨_, rfl, rfl, rfl, rfl, hcount⟩
  | pureAck _ hch' =>
      -- a pure ACK would leave the queue as it is
      have hlen := congrArg (fun ch => ch.state.fragQueue.length) hch
      subst hch'
      obtain ⟨-, -, -, -, hfq, -⟩ := hspec
      simp [hfq, hq, ChannelState.takeAck] at hlen
  | idle _ => exact absurd rfl hsome

/-- The oldest message goes out again while the window is not empty. -/
theorem PairInv.resend_front {p q : Side} {lp lq : List Packet} (h : PairInv p q lp lq)
    (hlt : p.base < p.next) :
    ∃ k, p.resend.2 = some k ∧ k.idx = some p.base ∧ p.resend.1.base = p.base ∧
      p.resend.1.next = p.next ∧ unsent p.resend.1.ch = unsent p.ch := by
  have hidx := h.left.flight_idx
  rw [show p.next - p.base = (p.next - p.base - 1) + 1 from by omega, List.range'_succ,
    List.map_cons] at hidx
  obtain ⟨stored, fl, hfl, hst, -⟩ := List.map_eq_cons_iff.mp hidx
  have henc := h.left.flight_enc stored (by rw [hfl]; exact List.mem_cons_self)
  unfold Encodes at henc
  rw [hst] at henc
  obtain ⟨seq, f, -, -, -, hbytes⟩ := henc
  rw [Side.resend_eq h.back.receives.ack hfl h.left.flight_msg hbytes]
  exact ⟨_, rfl, hst, rfl, rfl, rfl⟩

/-- A side that has nothing to send answers with a pure ACK. -/
theorem Side.send_ack {p : Side} (hack : ∀ v, p.ch.state.ackPending = some v →
    Wraps v (p.rcvd + 15)) (hnext : Wraps p.ch.state.sendNext p.next)
    (halive : p.ch.state.linkDead = false) (hunsent : unsent p.ch = 0)
    (hpending : p.ch.state.ackPending.isSome = true) (t : ℕ) :
    ∃ now k, t ≤ now ∧ (p.send now).2 = some k ∧ k.idx = none ∧ k.ack = some p.rcvd ∧
      (p.send now).1.rcvd = p.rcvd := by
  obtain ⟨hfq, hsq⟩ := unsent_eq_zero hunsent
  have hrefill : refill p.ch = p.ch := by
    simp [refill, hfq, hsq]
  obtain ⟨v, hv⟩ := Option.isSome_iff_exists.mp hpending
  -- it is enough to wait for the deadline
  refine ⟨max t (p.ch.state.ackDeadline.getD 0), ?_⟩
  generalize hnow : max t (p.ch.state.ackDeadline.getD 0) = now
  have hdue : p.ch.state.ackDeadline.all (· ≤ now) = true := by
    cases hd : p.ch.state.ackDeadline with
    | none => rfl
    | some deadline =>
        rw [hd, Option.getD_some] at hnow
        simp only [Option.all_some, decide_eq_true_eq]
        omega
  have hact : (nextSendAction now p.ch).2 = .send (setAck [0, 0] v) := by
    unfold nextSendAction
    simp [halive, hrefill, hfq, sendPureAck, hv, hdue]
  have hsome : (p.send now).2 ≠ none := by
    unfold Side.send
    simp [hact]
  have hcases := Side.send_cases hack hnext now
  generalize p.send now = r at hcases hsome
  cases hcases with
  | data hp₁ _ hq =>
      subst hp₁
      rw [show (refill p.ch).state.fragQueue = [] by rw [hrefill, hfq]] at hq
      cases hq
  | pureAck _ _ => exact ⟨_, by omega, rfl, rfl, rfl, rfl⟩
  | idle _ => exact absurd rfl hsome

namespace Duplex

/-- What the steps of the protocol keep while `b` has nothing of its own to send. -/
structure Resting (accepted : List Bytes) (s : Duplex) : Prop where
  silent : s.SilentInv
  alive : s.Alive
  accepted : (s.side .a).accepted = accepted

/-- Nothing is on either link. -/
structure Drained (accepted : List Bytes) (s : Duplex) : Prop extends Resting accepted s where
  link : ∀ w, s.link w = []

variable {acc : List Bytes} {s s' : Duplex} {l : DuplexLabel}

theorem oneSided_of_works (hl : l.works = true) : OneSided s l := by
  rintro d rfl
  cases hl

/-- A step of the protocol takes no datagram on. -/
theorem Resting.step (h : Resting acc s) (hl : l.works = true) (hs : system.step l s = some s') :
    Resting acc s' := by
  refine ⟨h.silent.step (oneSided_of_works hl) hs, h.alive.step hs, ?_⟩
  rw [← h.accepted]
  have hupdate : ∀ w (p : Side), p.accepted = (s.side w).accepted →
      (Function.update s.side w p .a).accepted = (s.side .a).accepted := by
    intro w p hp
    by_cases hw : Node.a = w
    · subst hw
      rw [Function.update_self, hp]
    · rw [Function.update_of_ne hw]
  cases l with
  | send w now =>
      change (if s.clock ≤ now then _ else none) = _ at hs
      split at hs
      · obtain rfl := Option.some.inj hs
        exact hupdate w _ (accepted_send _ now)
      · cases hs
  | resend w =>
      obtain rfl := Option.some.inj hs
      exact hupdate w _ (accepted_resend _)
  | receive w now =>
      obtain ⟨k, ks, -, rfl⟩ := receive_eq hs
      exact hupdate w _ rfl
  | enqueue _ _ => cases hl
  | setChunkSize _ _ => cases hl
  | lose _ _ => cases hl

theorem step_send {w : Node} {now : ℕ} (hnow : s.clock ≤ now) :
    system.step (.send w now) s = some ⟨Function.update s.side w ((s.side w).send now).1,
      Function.update s.link w (s.link w ++ ((s.side w).send now).2.toList), now⟩ := by
  change (if s.clock ≤ now then _ else none) = _
  rw [if_pos hnow]

theorem step_receive {w : Node} {k : Packet} {ks : List Packet} (hlink : s.link w.other = k :: ks) :
    system.step (.receive w s.clock) s =
      some ⟨Function.update s.side w ((s.side w).receive s.clock k),
        Function.update s.link w.other ks, s.clock⟩ := by
  simp only [system, step, hlink]
  rw [if_pos (le_refl _)]

/-- The side `b` accepted nothing, so it has nothing to send. -/
theorem Resting.unsent_b (h : Resting acc s) : unsent (s.side .b).ch = 0 := by
  obtain ⟨ds, hds⟩ := (h.silent.1 .b).left.cut
  have hnil := hds.accepted
  rw [h.silent.2] at hnil
  obtain ⟨hds0, hsq⟩ := List.append_eq_nil_iff.mp hnil.symm
  have hds0' : ds = [] := by simpa using hds0
  have hfr := hds.frags
  rw [hds0', List.flatMap_nil, List.append_eq_nil_iff] at hfr
  unfold unsent
  rw [hsq, hfr.2]
  rfl

/-- The links run empty when everybody receives. -/
theorem Resting.drain (h : Resting acc s) :
    ∃ ls s', (∀ l ∈ ls, l.works = true) ∧ system.exec ls s = some s' ∧ Drained acc s' := by
  have hround : ∀ s, Resting acc s → 0 < (s.link .a).length + (s.link .b).length →
      ∃ ls s', (∀ l ∈ ls, DuplexLabel.works l = true) ∧ system.exec ls s = some s' ∧
        Resting acc s' ∧ (s'.link .a).length + (s'.link .b).length <
          (s.link .a).length + (s.link .b).length := by
    -- one message less is on its way after each arrival
    intro s h hpos
    have hreceive : ∀ (w : Node) k ks, s.link w.other = k :: ks →
        ∃ ls s', (∀ l ∈ ls, DuplexLabel.works l = true) ∧ system.exec ls s = some s' ∧
          Resting acc s' ∧ (s'.link .a).length + (s'.link .b).length <
            (s.link .a).length + (s.link .b).length := by
      intro w k ks hlink
      have hs := step_receive hlink
      refine ⟨[.receive w s.clock], _, by simp [DuplexLabel.works], ?_, h.step rfl hs, ?_⟩
      · rw [System.exec, hs]
        rfl
      · cases w with
        | a =>
            rw [show s.link .b = k :: ks from hlink]
            simp [Function.update, Node.other]
        | b =>
            rw [show s.link .a = k :: ks from hlink]
            simp [Function.update, Node.other]
    cases ha : s.link .a with
    | cons k ks =>
        rw [← ha]
        exact hreceive .b k ks ha
    | nil =>
        cases hb : s.link .b with
        | cons k ks =>
            rw [← ha, ← hb]
            exact hreceive .a k ks hb
        | nil => simp [ha, hb] at hpos
  obtain ⟨ls, s', hls, hex, hrest, hzero⟩ := System.exec_to_zero hround h
  refine ⟨ls, s', hls, hex, hrest, ?_⟩
  intro w
  cases w with
  | a => exact List.length_eq_zero_iff.mp (by omega)
  | b => exact List.length_eq_zero_iff.mp (by omega)

/-! ## A round -/

/-- The oldest fragment of `a` that is not acknowledged is on its way to `b`. -/
structure Underway (k : Packet) (s : Duplex) : Prop where
  data : s.link .a = [k]
  acks : s.link .b = []
  idx : k.idx = some (s.side .a).base
  unacked : (s.side .a).base < (s.side .a).next

/-- With something outstanding and empty links, `a` sends a message. -/
theorem Drained.emits (h : Drained acc s) (hout : 0 < (s.side .a).outstanding) :
    ∃ l s' k, l.works = true ∧ system.step l s = some s' ∧ Underway k s' ∧
      (s'.side .a).outstanding = (s.side .a).outstanding := by
  have hI := h.silent.1 .a
  have hbr : (s.side .a).base ≤ (s.side .b).rcvd := hI.out.window.base_le
  have hrn : (s.side .b).rcvd ≤ (s.side .a).next := hI.out.window.rcvd_le
  rcases Nat.lt_or_ge (s.side .a).base (s.side .a).next with hlt | hge
  · -- the window is not empty: its oldest message goes out again
    obtain ⟨k, hk, hidx, hbase, hnext, hcount⟩ := hI.resend_front hlt
    refine ⟨.resend .a, _, k, rfl, rfl, ⟨?_, ?_, ?_, ?_⟩, ?_⟩
    · simp only [Function.update_self, h.link .a, hk]
      rfl
    · simp [h.link .b]
    · simp only [Function.update_self, hbase, hidx]
    · simp only [Function.update_self, hbase, hnext]
      exact hlt
    · simp only [Function.update_self, Side.outstanding, hbase, hnext, hcount]
  · -- nothing is in flight: the next fragment goes out
    have hcan : (s.side .a).ch.state.canSend = true :=
      (canSend_iff hI.left.base hI.left.next (by omega) (by omega)).mpr (by omega)
    have hunsent : 0 < unsent (s.side .a).ch := by
      unfold Side.outstanding at hout
      omega
    obtain ⟨k, hk, hidx, hbase, hnext, hcount⟩ :=
      Side.send_data hI.back.receives.ack hI.left.next (h.alive .a) hcan hunsent s.clock
    refine ⟨.send .a s.clock, _, k, rfl, step_send (le_refl _), ⟨?_, ?_, ?_, ?_⟩, ?_⟩
    · simp only [Function.update_self, h.link .a, hk]
      rfl
    · simp [h.link .b]
    · simp only [Function.update_self, hbase, hidx]
      rw [show (s.side .a).next = (s.side .a).base by omega]
    · simp only [Function.update_self, hbase, hnext]
      omega
    · simp only [Function.update_self, Side.outstanding, hbase, hnext]
      omega

/-- `b` takes the fragment and owes an acknowledgement. -/
theorem Resting.arrives {k : Packet} (h : Resting acc s) (hk : Underway k s) :
    ∃ s', system.step (.receive .b s.clock) s = some s' ∧ (∀ w, s'.link w = []) ∧
      s'.side .a = s.side .a ∧ (s.side .a).base < (s'.side .b).rcvd ∧
      (s'.side .b).ch.state.ackPending.isSome = true := by
  refine ⟨_, step_receive (w := .b) hk.data, ?_, rfl, ?_⟩
  · intro w
    cases w with
    | a => rfl
    | b => exact hk.acks
  · -- the acknowledgement part of the message comes first
    have hI := h.silent.1 .b
    rw [hk.acks, show s.link Node.b.other = [k] from hk.data] at hI
    have hback : DirInv (s.side .a) ((s.side .b).afterAck s.clock k.ack) [k] [] := by
      obtain ⟨hrp, hap⟩ := applyAck_recvPart s.clock k.ack (s.side .b).ch
      exact hI.back.congr_receiver rfl hrp (Or.inr hap)
    have henc := hI.back.encodes k List.mem_cons_self
    unfold Encodes at henc
    rw [hk.idx] at henc
    obtain ⟨seq, f, hf, hseq, hdata, hb⟩ := henc
    have hold : (s.side .a).base ≤ (s.side .b).rcvd := (h.silent.1 .a).out.window.base_le
    simp only [Function.update_self]
    rw [Side.receive_data s.clock hseq hdata hb]
    exact hback.afterData_answers hk.idx hseq hf hold s.clock

/-- `b` acknowledges what it has. -/
theorem Drained.acknowledges (h : Drained acc s)
    (hpending : (s.side .b).ch.state.ackPending.isSome = true) :
    ∃ l s' k, l.works = true ∧ system.step l s = some s' ∧ s'.link .a = [] ∧ s'.link .b = [k] ∧
      k.idx = none ∧ k.ack = some (s.side .b).rcvd ∧ s'.side .a = s.side .a ∧
      (s'.side .b).rcvd = (s.side .b).rcvd := by
  have hI := h.silent.1 .b
  obtain ⟨now, k, hnow, hk, hidx, hack, hrcvd⟩ := Side.send_ack hI.back.receives.ack hI.left.next
    (h.alive .b) h.unsent_b hpending s.clock
  refine ⟨.send .b now, _, k, rfl, step_send hnow, ?_, ?_, hidx, hack, rfl, ?_⟩
  · simp [h.link .a]
  · simp only [Function.update_self, h.link .b, hk]
    rfl
  · simp only [Function.update_self]
    exact hrcvd

/-- The acknowledgement slides the window of `a`. -/
theorem Resting.slides {k : Packet} (h : Resting acc s) (hla : s.link .a = [])
    (hlb : s.link .b = [k]) (hidx : k.idx = none) (hack : k.ack = some (s.side .b).rcvd)
    (hlt : (s.side .a).base < (s.side .b).rcvd) :
    ∃ s', system.step (.receive .a s.clock) s = some s' ∧ (∀ w, s'.link w = []) ∧
      (s'.side .a).outstanding < (s.side .a).outstanding := by
  refine ⟨_, step_receive (w := .a) hlb, ?_, ?_⟩
  · intro w
    cases w with
    | a => exact hla
    | b => rfl
  · have hI := h.silent.1 .a
    rw [hla, show s.link Node.a.other = [k] from hlb] at hI
    have henc := hI.back.encodes k List.mem_cons_self
    unfold Encodes at henc
    rw [hidx] at henc
    obtain ⟨r, hr, hb⟩ := henc
    have hrn : (s.side .b).rcvd ≤ (s.side .a).next := hI.out.window.rcvd_le
    obtain ⟨hbase, hnext, hunsent⟩ := hI.out.afterAck_slides hI.left hack hlt s.clock
    simp only [Function.update_self]
    rw [Side.receive_pureAck s.clock hr hb hI.back.receives.wraps]
    unfold Side.outstanding
    rw [hbase, hnext, hunsent]
    omega

/-- One message, its acknowledgement, and there is less to do. -/
theorem Drained.round (h : Drained acc s) (hout : 0 < (s.side .a).outstanding) :
    ∃ ls s', (∀ l ∈ ls, l.works = true) ∧ system.exec ls s = some s' ∧ Drained acc s' ∧
      (s'.side .a).outstanding < (s.side .a).outstanding := by
  obtain ⟨l₁, s₁, k₁, hl₁, hs₁, hk₁, hout₁⟩ := h.emits hout
  have h₁ := h.toResting.step hl₁ hs₁
  obtain ⟨s₂, hs₂, hlink₂, ha₂, hlt₂, hpending₂⟩ := h₁.arrives hk₁
  have h₂ : Drained acc s₂ := ⟨h₁.step rfl hs₂, hlink₂⟩
  obtain ⟨l₃, s₃, k₃, hl₃, hs₃, hla₃, hlb₃, hidx₃, hack₃, ha₃, hb₃⟩ := h₂.acknowledges hpending₂
  have h₃ := h₂.toResting.step hl₃ hs₃
  have hlt₃ : (s₃.side .a).base < (s₃.side .b).rcvd := by
    rw [ha₃, ha₂, hb₃]
    exact hlt₂
  obtain ⟨s₄, hs₄, hlink₄, hout₄⟩ := h₃.slides hla₃ hlb₃ hidx₃ (by rw [hb₃]; exact hack₃) hlt₃
  refine ⟨[l₁, .receive .b s₁.clock, l₃, .receive .a s₃.clock], s₄, ?_, ?_,
    ⟨h₃.step rfl hs₄, hlink₄⟩, ?_⟩
  · intro l hl
    simp only [List.mem_cons, List.not_mem_nil, or_false] at hl
    rcases hl with rfl | rfl | rfl | rfl
    · exact hl₁
    · rfl
    · exact hl₃
    · rfl
  · simp only [System.exec, hs₁, hs₂, hs₃, hs₄, Option.bind_some]
  · rw [ha₃, ha₂, hout₁] at hout₄
    exact hout₄

/-! ## Everything arrives -/

/-- With nothing outstanding, all that was accepted has been handed over. -/
theorem Drained.delivered (h : Drained acc s) (hzero : (s.side .a).outstanding = 0) :
    (s.side .a).ch.state.inFlight = [] ∧
      (s.side .b).ch.datagramTx = acc.filter (fun d => decide (Carried d)) := by
  have hI := h.silent.1 .a
  have hbr : (s.side .a).base ≤ (s.side .b).rcvd := hI.out.window.base_le
  have hrn : (s.side .b).rcvd ≤ (s.side .a).next := hI.out.window.rcvd_le
  unfold Side.outstanding at hzero
  have hunsent : unsent (s.side .a).ch = 0 := by omega
  obtain ⟨hfq, hsq⟩ := unsent_eq_zero hunsent
  constructor
  · apply List.length_eq_zero_iff.mp
    rw [hI.left.inFlight_length]
    omega
  · obtain ⟨ds, hds⟩ := hI.left.cut
    have hsent : (s.side .a).sent.take (s.side .b).rcvd =
        ds.flatMap fun x => fragments x.1 x.2 := by
      have hall := hds.frags
      rw [hfq, List.append_nil] at hall
      rw [List.take_of_length_le (by rw [hI.left.sent]; omega), hall]
    have hacc : acc = ds.map Prod.snd := by
      rw [← h.accepted, hds.accepted, hsq, List.append_nil]
    calc (s.side .b).ch.datagramTx
        = (acceptAll Asm.init ((s.side .a).sent.take (s.side .b).rcvd)).delivered :=
          congrArg Asm.delivered hI.out.receives.asm
      _ = (acceptAll Asm.init (ds.flatMap fun x => fragments x.1 x.2)).delivered := by rw [hsent]
      _ = (ds.map Prod.snd).filter (fun d => decide (Carried d)) :=
          deliver_flatMap ds hds.chunk Asm.init
      _ = acc.filter (fun d => decide (Carried d)) := by rw [hacc]

/-- No run of the pair marks a link dead. -/
theorem alive_of_run {h : List (Duplex × DuplexLabel)} {s : Duplex} (hrun : system.Run h s) :
    s.Alive := by
  refine hrun.invariant_all ?_ ?_
  · rintro s ⟨chunkSize, now, -, rfl⟩ w
    rfl
  · intro s l s' halive hs
    exact halive.step hs

/-- When one side sends, the two channels can always finish by themselves, whatever the links have
lost so far: then everything is delivered and acknowledged. -/
theorem can_deliver {h : List (Duplex × DuplexLabel)} {s : Duplex} (hrun : system.Run h s)
    (honly : System.Meets OneSided h) :
    ∃ ls s', (∀ l ∈ ls, l.works = true) ∧ system.exec ls s = some s' ∧
      (s'.side .a).accepted = (s.side .a).accepted ∧ (s'.side .a).ch.state.inFlight = [] ∧
      (s'.side .b).ch.datagramTx =
        (s.side .a).accepted.filter (fun d => decide (Carried d)) := by
  have hrest : Resting (s.side .a).accepted s :=
    ⟨silent_of_run hrun honly, alive_of_run hrun, rfl⟩
  obtain ⟨ls, s₁, hls, hex, h₁⟩ := hrest.drain
  obtain ⟨ls', s', hls', hex', hs', hzero⟩ :=
    System.exec_to_zero (μ := fun s : Duplex => (s.side .a).outstanding)
      (fun s hI hpos => Drained.round hI hpos) h₁
  obtain ⟨hflight, htx⟩ := hs'.delivered hzero
  refine ⟨ls ++ ls', s', ?_, ?_, hs'.accepted, hflight, htx⟩
  · intro l hl
    rcases List.mem_append.mp hl with hl | hl
    · exact hls l hl
    · exact hls' l hl
  · rw [System.exec_append, hex]
    exact hex'

/-- Three fragments go out and all of them are lost. -/
def lostRun : List DuplexLabel :=
  [.setChunkSize .a 5, .enqueue .a [1, 2, 3, 4, 5], .send .a 0, .send .a 0, .send .a 0, .lose .a 0,
    .lose .a 0, .lose .a 0]

/-- A run in which all messages have been lost, and its continuation that delivers everything. -/
theorem can_deliver_lostRun :
    ∃ h s, system.Run h s ∧ System.Meets OneSided h ∧ h.map Prod.snd = lostRun ∧
      s.link .a = [] ∧ (s.side .b).ch.datagramTx = [] ∧
      ∃ ls s', (∀ l ∈ ls, l.works = true) ∧ system.exec ls s = some s' ∧
        (s'.side .a).accepted = (s.side .a).accepted ∧ (s'.side .a).ch.state.inFlight = [] ∧
        (s'.side .b).ch.datagramTx =
          (s.side .a).accepted.filter (fun d => decide (Carried d)) := by
  obtain ⟨h, s, hrun, honly, hl, hlink, htx⟩ := System.Run.of_execMeets (C := OneSided)
    (P := fun s => s.link .a = [] ∧ (s.side .b).ch.datagramTx = []) lostRun init_twenty
    (by decide +kernel)
  exact ⟨h, s, hrun, honly, hl, hlink, htx, can_deliver hrun honly⟩

end Duplex

end IrohBle.Reliable
