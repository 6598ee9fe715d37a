import IrohBle.Reliable.Spec

/-! # Reliable.Sender: the sending half of one channel, whatever arrives

Facts about one `ReliableChannel` whose peer may send any bytes:

* `Window`: `in_flight` is the window between `send_base` and `send_next`;
* `AckTimer`: an acknowledgement is pending exactly while its deadline is set;
* `Received`: everything `receive_fragment` can do to the sending half.
-/

namespace IrohBle.Reliable

open ReliableChannel

/-! ## The window of one channel -/

/-- `in_flight` is the window between `send_base` and `send_next`. -/
def Window (ch : ReliableChannel) : Prop :=
  ∃ base next, Wraps ch.state.sendBase base ∧ Wraps ch.state.sendNext next ∧
    base ≤ next ∧ next ≤ base + 6 ∧ ch.state.inFlight.length = next - base

/-- The window has room for six. -/
theorem Window.canSend_iff {ch : ReliableChannel} (h : Window ch) :
    ch.state.canSend = true ↔ ch.state.inFlight.length < 6 := by
  obtain ⟨base, next, hb, hn, h1, h2, hlen⟩ := h
  rw [ReliableChannel.canSend_iff hb hn h1 h2, hlen]
  omega

/-- The window depends on its two ends and the fragments in flight. -/
theorem Window.congr {ch ch' : ReliableChannel} (h : Window ch)
    (hb : ch'.state.sendBase = ch.state.sendBase) (hn : ch'.state.sendNext = ch.state.sendNext)
    (hf : ch'.state.inFlight = ch.state.inFlight) : Window ch' := by
  unfold Window
  rw [hb, hn, hf]
  exact h

/-- Sending a fragment within the window keeps it. -/
theorem Window.sendFragment {ch : ReliableChannel} (h : Window ch)
    (hcan : ch.state.canSend = true) (now : ℕ) (frag : FragmentEntry)
    (rest : List FragmentEntry) : Window (sendFragment now frag rest ch).1 := by
  have hlt := h.canSend_iff.mp hcan
  obtain ⟨base, next, hb, hn, h1, h2, hlen⟩ := h
  obtain ⟨hfl, hsn, hsb, -⟩ := sendFragment_spec now frag rest ch rfl
  refine ⟨base, next + 1, ?_, ?_, by omega, by omega, ?_⟩
  · rw [hsb]
    exact hb
  · rw [hsn]
    exact hn.succ
  · rw [hfl, List.length_append, List.length_singleton]
    omega

/-- An ACK slides the window whatever it names, or is ignored. -/
theorem receiveAck_cases {ch : ReliableChannel} {base next : ℕ}
    (hb : Wraps ch.state.sendBase base) (hn : Wraps ch.state.sendNext next) (h1 : base ≤ next)
    (h2 : next ≤ base + 6) (hlen : ch.state.inFlight.length = next - base) (now : ℕ)
    (ackSeq : UInt8) :
    receiveAck now ackSeq ch = ch ∨
      ∃ d, d ≤ next - base ∧ Wraps ((ackSeq + 1) % seqModulus) (base + d) ∧
        receiveAck now ackSeq ch =
          notifyOne { ch with state := { ch.state with
            inFlight := ch.state.inFlight.drop d
            sendBase := (ackSeq + 1) % seqModulus
            lastProgressAt := now } } := by
  have hw : Wraps ((ackSeq + 1) % seqModulus) ((ackSeq + 1) % seqModulus).toNat := by
    unfold Wraps
    simp only [seqModulus, UInt8.toNat_mod, UInt8.reduceToNat]
    omega
  have hd := seqDist_toNat hb hw
  have hc : ch.state.inFlightCount.toNat = (next % 16 + 16 - base % 16) % 16 :=
    seqDist_toNat hb hn
  unfold receiveAck
  dsimp only
  -- within the window: as many fragments are popped as the number says
  split
  · rename_i hcond
    obtain ⟨-, -, hle⟩ := hcond
    rw [UInt8.le_iff_toNat_le, hc] at hle
    set d := (seqDist ch.state.sendBase ((ackSeq + 1) % seqModulus)).toNat with hd'
    have hw' : Wraps ((ackSeq + 1) % seqModulus) (base + d) := by
      unfold Wraps at hw ⊢
      omega
    have hmin : min d ch.state.inFlight.length = d := by
      rw [hlen]
      omega
    exact Or.inr ⟨d, by omega, hw', by rw [hmin]⟩
  · exact Or.inl rfl

/-- An acknowledgement keeps the window, whatever number it carries. -/
theorem Window.receiveAck {ch : ReliableChannel} (h : Window ch) (now : ℕ)
    (ackSeq : UInt8) : Window (receiveAck now ackSeq ch) := by
  obtain ⟨base, next, hb, hn, h1, h2, hlen⟩ := h
  rcases receiveAck_cases hb hn h1 h2 hlen now ackSeq with heq | ⟨d, hd, hw, heq⟩
  · rw [heq]
    exact ⟨base, next, hb, hn, h1, h2, hlen⟩
  · rw [heq]
    refine ⟨base + d, next, hw, hn, by omega, by omega, ?_⟩
    show (ch.state.inFlight.drop d).length = _
    rw [List.length_drop, hlen]
    omega

/-! ## The ACK timer -/

/-- An acknowledgement is pending exactly while its deadline is set, and the
deadline is at most `ackDelay` away. -/
structure AckTimer (now : ℕ) (s : ChannelState) : Prop where
  armed : s.ackPending.isSome = s.ackDeadline.isSome
  near : ∀ dl, s.ackDeadline = some dl → dl ≤ now + ackDelay

/-- Scheduling an acknowledgement sets its deadline. -/
theorem AckTimer.scheduleAck {now : ℕ} {s : ChannelState} (h : AckTimer now s) (v : UInt8) :
    AckTimer now (s.scheduleAck now v) := by
  unfold ChannelState.scheduleAck
  constructor
  · dsimp only
    split
    · rfl
    · rename_i hs
      simpa [Option.isNone_iff_eq_none, Option.isSome_iff_ne_none] using hs
  · intro dl hdl
    dsimp only at hdl
    split at hdl
    · rw [Option.some.injEq] at hdl
      omega
    · exact h.near dl hdl

theorem AckTimer.takeAck (now : ℕ) (s : ChannelState) : AckTimer now s.takeAck where
  armed := by simp [ChannelState.takeAck]
  near := by simp [ChannelState.takeAck]

theorem AckTimer.mono {now now' : ℕ} {s : ChannelState} (h : AckTimer now s)
    (hle : now ≤ now') : AckTimer now' s where
  armed := h.armed
  near := fun dl hdl => le_trans (h.near dl hdl) (by omega)

/-- Accepting a fragment schedules an acknowledgement. -/
theorem AckTimer.acceptAndDeliver {now : ℕ} {ch : ReliableChannel}
    (h : AckTimer now ch.state) (first last : Bool) (payload : Bytes) :
    AckTimer now (acceptAndDeliver now first last payload ch).state := by
  have hkeep : ∀ s : ChannelState, s.ackPending = ch.state.ackPending →
      s.ackDeadline = ch.state.ackDeadline → AckTimer now s := by
    intro s hp hd
    constructor
    · rw [hp, hd]
      exact h.armed
    · rw [hd]
      exact h.near
  unfold ReliableChannel.acceptAndDeliver notifyOne
  cases first <;> cases last <;> simp only [if_true, Bool.false_eq_true, if_false] <;>
    apply AckTimer.scheduleAck <;> apply hkeep <;> dsimp only <;>
    split <;> first | rfl | (split <;> rfl)

/-- Draining the buffer keeps the timer. -/
theorem AckTimer.drainLoop {now : ℕ} (n : ℕ) {ch : ReliableChannel}
    (h : AckTimer now ch.state) : AckTimer now (drainLoop now n ch).state := by
  induction n generalizing ch with
  | zero => exact h
  | succ n ih =>
      unfold ReliableChannel.drainLoop
      split
      · exact h
      · apply ih
        apply AckTimer.acceptAndDeliver
        exact ⟨h.armed, h.near⟩

/-- A data fragment keeps the timer. -/
theorem AckTimer.receiveData {now : ℕ} {ch : ReliableChannel} (h : AckTimer now ch.state)
    (seq : UInt8) (first last : Bool) (payload : Bytes) :
    AckTimer now (receiveData now seq first last payload ch).state := by
  unfold ReliableChannel.receiveData
  split
  · unfold drainRecvBuf
    exact (h.acceptAndDeliver first last payload).drainLoop _
  · split
    · have hkeep : AckTimer now { ch.state with
          recvBuf := ch.state.recvBuf ++ [⟨seq, first, last, payload⟩] } := ⟨h.armed, h.near⟩
      exact hkeep.scheduleAck _
    · split
      · exact h.scheduleAck _
      · exact h

/-! ## What a received message does to the sending half -/

/-- Everything `receive_fragment` can do to the sending half, the ACK timer and
the permit of the send loop. -/
structure Received (now : ℕ) (ch ch' : ReliableChannel) : Prop where
  sendQueue : ch'.state.sendQueue = ch.state.sendQueue
  fragQueue : ch'.state.fragQueue = ch.state.fragQueue
  linkDead : ch'.state.linkDead = ch.state.linkDead
  window : Window ch → Window ch'
  timer : AckTimer now ch.state → AckTimer now ch'.state
  wake : (ch'.state = ch.state ∧ ch'.wake = ch.wake) ∨ ch'.wake = true
  same : ch'.state.sendBase = ch.state.sendBase →
    ch'.state.inFlight = ch.state.inFlight ∧ ch'.state.lastProgressAt = ch.state.lastProgressAt
  moved : ch'.state.sendBase ≠ ch.state.sendBase → ch'.state.lastProgressAt = now
  idle : ch.state.inFlight = [] → ch'.state.inFlight = []

theorem Received.refl (now : ℕ) {ch ch' : ReliableChannel} (hs : ch'.state = ch.state)
    (hw : ch'.wake = ch.wake) : Received now ch ch' where
  sendQueue := by rw [hs]
  fragQueue := by rw [hs]
  linkDead := by rw [hs]
  window := by unfold Window; rw [hs]; exact id
  timer := by rw [hs]; exact id
  wake := Or.inl ⟨hs, hw⟩
  same := fun _ => by rw [hs]; exact ⟨rfl, rfl⟩
  moved := fun h => absurd (by rw [hs]) h
  idle := by rw [hs]; exact id

/-- What an acknowledgement can do. -/
theorem receiveAck_received (now : ℕ) (ackSeq : UInt8) (ch : ReliableChannel) :
    Received now ch (receiveAck now ackSeq ch) := by
  have hwin := fun h : Window ch => h.receiveAck now ackSeq
  unfold receiveAck at hwin ⊢
  dsimp only at hwin ⊢
  split at hwin
  · rename_i hcond
    rw [if_pos hcond]
    -- a positive distance moves `send_base`
    have hne : (ackSeq + 1) % seqModulus ≠ ch.state.sendBase := by
      intro he
      have hpos := hcond.1
      rw [he] at hpos
      unfold seqDist at hpos
      rw [UInt8.sub_self] at hpos
      exact absurd hpos (by decide)
    exact
      { sendQueue := rfl, fragQueue := rfl, linkDead := rfl, window := hwin
        timer := fun h => ⟨h.armed, h.near⟩
        wake := Or.inr rfl
        same := fun h => absurd h hne
        moved := fun _ => rfl
        idle := fun h => by rw [h]; exact List.drop_nil }
  · rename_i hcond
    rw [if_neg hcond]
    exact Received.refl now rfl rfl

/-- Draining the buffer takes no permit away. -/
theorem drainLoop_wake (now n : ℕ) {ch : ReliableChannel} (h : ch.wake = true) :
    (drainLoop now n ch).wake = true := by
  induction n generalizing ch with
  | zero => exact h
  | succ n ih =>
      unfold drainLoop
      split
      · exact h
      · exact ih rfl

/-- What a data fragment can do. -/
theorem receiveData_received (now : ℕ) (seq : UInt8) (first last : Bool) (payload : Bytes)
    (ch : ReliableChannel) : Received now ch (receiveData now seq first last payload ch) := by
  have hsp := receiveData_sendPart now seq first last payload ch
  have hsb := congrArg SendPart.sendBase hsp
  have hsn := congrArg SendPart.sendNext hsp
  have hif := congrArg SendPart.inFlight hsp
  have hlp := congrArg SendPart.lastProgressAt hsp
  simp only [sendPart] at hsb hsn hif hlp
  refine
    { sendQueue := congrArg SendPart.sendQueue hsp
      fragQueue := congrArg SendPart.fragQueue hsp
      linkDead := congrArg SendPart.linkDead hsp
      window := fun h => h.congr hsb hsn hif
      timer := fun h => h.receiveData seq first last payload
      wake := ?_
      same := fun _ => ⟨hif, hlp⟩
      moved := fun h => absurd hsb h
      idle := fun h => hif.trans h }
  unfold receiveData
  split
  · exact Or.inr (drainLoop_wake now _ rfl)
  · split
    · exact Or.inr rfl
    · split
      · exact Or.inr rfl
      · exact Or.inl ⟨rfl, rfl⟩

/-- The data part keeps what the acknowledgement part did to the sender. -/
theorem Received.then_data {now : ℕ} {ch ch₁ : ReliableChannel} (h : Received now ch ch₁)
    (seq : UInt8) (first last : Bool) (payload : Bytes) :
    Received now ch (receiveData now seq first last payload ch₁) := by
  have hd := receiveData_received now seq first last payload ch₁
  have hsp := receiveData_sendPart now seq first last payload ch₁
  have hsb := congrArg SendPart.sendBase hsp
  have hif := congrArg SendPart.inFlight hsp
  have hlp := congrArg SendPart.lastProgressAt hsp
  simp only [sendPart] at hsb hif hlp
  refine
    { sendQueue := hd.sendQueue.trans h.sendQueue
      fragQueue := hd.fragQueue.trans h.fragQueue
      linkDead := hd.linkDead.trans h.linkDead
      window := fun hw => hd.window (h.window hw)
      timer := fun ht => hd.timer (h.timer ht)
      wake := ?_
      same := ?_
      moved := ?_
      idle := fun hi => hif.trans (h.idle hi) }
  · rcases hd.wake with ⟨hs, hw⟩ | hw
    · rw [hs, hw]
      exact h.wake
    · exact Or.inr hw
  · rw [hsb, hif, hlp]
    exact h.same
  · rw [hsb, hlp]
    exact h.moved

/-- What any bytes that arrive can do. -/
theorem receiveFragment_received (now : ℕ) (value : Bytes) (ch : ReliableChannel) :
    Received now ch (receiveFragment now value ch) := by
  have hbody : ∀ b0 b1 payload, Received now ch (receiveBody now b0 b1 payload ch) := by
    intro b0 b1 payload
    have hack : Received now ch
        (if (b1 &&& flagAck) != 0 then receiveAck now (b1 &&& ackSeqMask) ch else ch) := by
      split
      · exact receiveAck_received now _ ch
      · exact Received.refl now rfl rfl
    unfold receiveBody
    dsimp only
    split
    · exact hack.then_data _ _ _ _
    · exact hack
  unfold receiveFragment
  split
  · exact Received.refl now rfl rfl
  · exact Received.refl now rfl rfl
  · exact hbody _ _ _
  · split
    · exact Received.refl now rfl rfl
    · exact hbody _ _ _

end IrohBle.Reliable
