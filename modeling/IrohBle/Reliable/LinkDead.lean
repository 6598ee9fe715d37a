import IrohBle.Reliable.SendLoop
import IrohBle.Reliable.Sender

/-! # Reliable.LinkDead: no link is given up before a retransmission

The death deadline is anchored at `last_progress_at`, but every pass of the send
loop arms the retransmission timer afresh at `now + timeout`, so wakes that keep
coming push it back. `dead_after_retransmit`: when every wake that brings no
progress leaves the loop `settleTime` before the deadline, and no ACK that moves
`send_base` overtakes the loop while it gives up, the head has been
retransmitted by then. `starved_link_dies`: a datagram every 250 ms is enough to
lose the link without one retransmission. `acked_link_dies`: an ACK that comes
between the two looks at the channel does not save the link.

The invariant bounds the instant of the next retransmission (`flushBy`): the
fragments the window still admits and an acknowledgement that is due each take
one send and one gap, then the timer runs for `ackTimeout`.
-/

namespace IrohBle.Reliable

open ReliableChannel Lib

/-! ## How long until the head is retransmitted -/

/-- One send and the gap after it. -/
def frameTime : ℕ := ackTimeout + interFrameGap

/-- A full window of sends, then the retransmission timer. -/
def settleTime : ℕ := windowSize.toNat * frameTime + ackTimeout

/-- Fragments the window still admits. -/
def dataLeft (ch : ReliableChannel) : ℕ :=
  if ch.state.sendQueue = [] ∧ ch.state.fragQueue = [] then 0
  else 6 - ch.state.inFlight.length

/-- When a pending acknowledgement has been sent, for a loop at its top at `t`. -/
def ackBy (ch : ReliableChannel) (t : ℕ) : ℕ :=
  match ch.state.ackDeadline with
  | some dl => max t dl + frameTime
  | none => t

/-- When the head is retransmitted at the latest, for a loop at its top at `t`
that nobody wakes. -/
def flushBy (ch : ReliableChannel) (t : ℕ) : ℕ :=
  max (t + dataLeft ch * frameTime) (ackBy ch t) + ackTimeout

theorem frameTime_eq : frameTime = 303000000 := rfl

theorem settleTime_eq : settleTime = 2118000000 := rfl

theorem ackTimeout_eq : ackTimeout = 300000000 := rfl

theorem ackDelay_eq : ackDelay = 15000000 := rfl

theorem linkDeadDeadline_eq : linkDeadDeadline = 6000000000 := rfl

/-- A later start ends later. -/
theorem flushBy_mono (ch : ReliableChannel) {t t' : ℕ} (h : t ≤ t') :
    flushBy ch t ≤ flushBy ch t' := by
  unfold flushBy ackBy
  cases ch.state.ackDeadline with
  | none =>
      dsimp only
      omega
  | some dl =>
      dsimp only
      omega

theorem lt_flushBy (ch : ReliableChannel) (t : ℕ) : t + ackTimeout ≤ flushBy ch t := by
  unfold flushBy
  omega

/-- With a fragment in flight at most five more fit in the window. -/
theorem flushBy_le {ch : ReliableChannel} {now t : ℕ} (hne : ch.state.inFlight ≠ [])
    (htimer : AckTimer now ch.state) (ht : now ≤ t) :
    flushBy ch t ≤ t + 5 * frameTime + ackTimeout := by
  have hpos : 0 < ch.state.inFlight.length := List.length_pos_iff.mpr hne
  have hdata : dataLeft ch ≤ 5 := by
    unfold dataLeft
    split
    · omega
    · omega
  have hmul : dataLeft ch * frameTime ≤ 5 * frameTime := Nat.mul_le_mul_right _ hdata
  unfold flushBy ackBy
  cases hdl : ch.state.ackDeadline with
  | none =>
      dsimp only
      omega
  | some dl =>
      have := htimer.near dl hdl
      simp only [frameTime_eq, ackDelay_eq] at *
      omega

/-- Refilling moves a datagram between the queues, and never empties both. -/
theorem dataLeft_refill (ch : ReliableChannel) : dataLeft (refill ch) = dataLeft ch := by
  obtain ⟨-, -, hff, -, -⟩ := refill_frame ch
  have hiff : ((refill ch).state.sendQueue = [] ∧ (refill ch).state.fragQueue = []) ↔
      (ch.state.sendQueue = [] ∧ ch.state.fragQueue = []) := by
    unfold refill
    split
    · rename_i d rest hfq hsq
      have hne := fragments_ne_nil ch.chunkSize d
      simp [fragmentInto, hfq, hsq, hne]
    · exact Iff.rfl
  unfold dataLeft
  rw [hff]
  exact if_congr hiff rfl rfl

/-- A loop that lets no fragment out has none left to send. -/
theorem dataLeft_of_quiet {ch : ReliableChannel} (hq : Quiet ch) (hw : Window (refill ch)) :
    dataLeft (refill ch) = 0 := by
  unfold dataLeft
  split
  · rfl
  · rename_i hne
    rcases hq with hcan | hfq
    · have : ¬ (refill ch).state.inFlight.length < 6 := by
        intro hlt
        rw [hw.canSend_iff.mpr hlt] at hcan
        cases hcan
      omega
    · -- an empty `frag_queue` after the refill means an empty `send_queue`
      exfalso
      apply hne
      refine ⟨?_, hfq⟩
      have hr := refill_refill ch
      cases hsq : (refill ch).state.sendQueue with
      | nil => rfl
      | cons d rest =>
          rw [refill.eq_def (refill ch), hfq, hsq] at hr
          have hfr := congrArg (fun c => c.state.fragQueue) hr
          simp only [fragmentInto, hfq, List.nil_append] at hfr
          exact absurd hfr (fragments_ne_nil _ d)

/-! ## The invariant -/

namespace SendLoop

/-- The instant from which on the link is given up. -/
def deadAt (s : SendLoop) : ℕ := s.ch.state.lastProgressAt + linkDeadDeadline

/-- Nothing to send now: no fragment left and no acknowledgement due. -/
def Settled (s : SendLoop) : Prop :=
  dataLeft s.ch = 0 ∧ (∀ dl, s.ch.state.ackDeadline = some dl → s.clock ≤ dl) ∧
  s.ch.state.linkDead = false

/-- The backoff belongs to `last_progress_at = x`, which is in the past. -/
def Tracks (s : SendLoop) (P : Prop) : Prop :=
  ∃ x, s.trackedProgressAt = some x ∧ x < s.clock ∧ (x = s.ch.state.lastProgressAt → P)

/-- What is known at each program counter, whatever has been retransmitted. -/
def PcInv (s : SendLoop) : Prop :=
  match s.pc with
  | .top => True
  | .inspect => s.ch.wake = false → s.Settled
  | .sending started => started ≤ s.clock ∧ s.clock < started + ackTimeout
  | .gap wakeAt => s.clock ≤ wakeAt ∧ wakeAt ≤ s.clock + interFrameGap
  | .waitHead retransmitAt sleepUntil => s.ch.wake = false →
      dataLeft s.ch = 0 ∧ s.ch.state.linkDead = false ∧ s.ch.state.inFlight ≠ [] ∧
      s.trackedProgressAt = some s.ch.state.lastProgressAt ∧
      s.ch.state.lastProgressAt < retransmitAt ∧ s.clock ≤ sleepUntil ∧
      sleepUntil = (match s.ch.state.ackDeadline with
        | some dl => min (min dl retransmitAt) s.deadAt
        | none => min retransmitAt s.deadAt)
  | .givingUp => s.tried = true
  | .resend => s.Tracks (s.ch.state.inFlight ≠ [])
  | .resending started => started ≤ s.clock ∧ s.clock < started + ackTimeout ∧
      s.Tracks (s.tried = true)
  | .waitIdle _ => s.ch.state.inFlight = []
  | .returned .dead => True
  | .returned (.deadline tried) => tried = true

/-- While the head waits for its first retransmission, that comes before the
death deadline. -/
def OnTime (s : SendLoop) : Prop :=
  match s.pc with
  | .top => s.ch.state.linkDead = false → flushBy s.ch s.clock ≤ s.deadAt
  | .inspect => s.clock < s.deadAt ∧
      (s.ch.state.linkDead = false → flushBy s.ch s.clock ≤ s.deadAt)
  | .sending started => flushBy s.ch (started + frameTime) ≤ s.deadAt
  | .gap wakeAt => flushBy s.ch wakeAt ≤ s.deadAt
  | .waitHead retransmitAt _ =>
      (s.ch.wake = true → s.ch.state.linkDead = false → flushBy s.ch s.clock ≤ s.deadAt) ∧
      (s.ch.wake = false → retransmitAt ≤ s.deadAt ∧
        ∀ dl, s.ch.state.ackDeadline = some dl → dl + frameTime + ackTimeout ≤ s.deadAt)
  | .resending started => flushBy s.ch (started + ackTimeout) ≤ s.deadAt
  | .givingUp | .resend | .waitIdle _ | .returned _ => True

/-- What holds of the loop at every suspension: the window, the timers, and that a head that has
not been retransmitted is on time for it. -/
structure Inv (s : SendLoop) : Prop where
  window : Window s.ch
  timer : AckTimer s.clock s.ch.state
  progress : s.ch.state.lastProgressAt ≤ s.clock
  positive : 0 < s.timeout
  backoff : s.timeout = ackTimeout ∨ s.Tracks (s.tried = true)
  pcInv : s.PcInv
  onTime : s.ch.state.inFlight ≠ [] → s.tried = false → s.OnTime

/-- A fresh loop satisfies it. -/
theorem inv_init (s : SendLoop) (h : system.Init s) : s.Inv := by
  obtain ⟨c, made, now, -, hle, rfl⟩ := h
  exact
    { window := ⟨0, 0, wraps_zero, wraps_zero, le_refl _, by omega, rfl⟩
      timer := ⟨rfl, by simp [start, ReliableChannel.new]⟩
      progress := hle
      positive := show 0 < ackTimeout by decide
      backoff := Or.inl rfl
      pcInv := trivial
      onTime := fun h => absurd rfl h }

/-! ## Steps of the other tasks -/

/-- The invariant reads the state and the permit of the channel only. -/
theorem Inv.congr {s : SendLoop} (h : s.Inv) {ch : ReliableChannel} (hs : ch.state = s.ch.state)
    (hw : ch.wake = s.ch.wake) : Inv { s with ch := ch } := by
  obtain ⟨state, wake, tx, chunkSize, retransmits, truncations⟩ := ch
  dsimp only at hs hw
  subst hs hw
  exact ⟨h.window, h.timer, h.progress, h.positive, h.backoff, h.pcInv, h.onTime⟩

/-- A step that leaves a permit behind and either brings no progress or writes
`last_progress_at`. Either way the loop must have `settleTime` left. -/
theorem Inv.notified {s : SendLoop} (h : s.Inv) {ch : ReliableChannel} {tried : Bool}
    (hwake : ch.wake = true) (hwin : Window ch) (htimer : AckTimer s.clock ch.state)
    (hprog : (ch.state.lastProgressAt = s.ch.state.lastProgressAt ∧
        ch.state.inFlight = s.ch.state.inFlight ∧ tried = s.tried) ∨
      (ch.state.lastProgressAt = s.clock ∧
        (s.ch.state.inFlight = [] → ch.state.inFlight = [])))
    (hkept : s.pc = .givingUp → tried = s.tried)
    (hslack : ch.state.inFlight ≠ [] → tried = false →
      s.clock + settleTime ≤ ch.state.lastProgressAt + linkDeadDeadline) :
    Inv { s with ch := ch, tried := tried } := by
  -- the instant a past backoff belongs to is not the new `last_progress_at`
  have htracks : ∀ P Q : Prop, s.Tracks P → (tried = s.tried → ch.state.inFlight =
      s.ch.state.inFlight → P → Q) → Tracks { s with ch := ch, tried := tried } Q := by
    rintro P Q ⟨x, hx, hlt, hP⟩ hPQ
    refine ⟨x, hx, hlt, ?_⟩
    intro he
    rcases hprog with ⟨hl, hf, ht⟩ | ⟨hl, -⟩
    · exact hPQ ht hf (hP (he.trans hl))
    · have : x = s.clock := he.trans hl
      omega
  have hle : ch.state.lastProgressAt ≤ s.clock := by
    have := h.progress
    rcases hprog with ⟨hl, -, -⟩ | ⟨hl, -⟩ <;> omega
  refine ⟨hwin, htimer, hle, h.positive, ?_, ?_, ?_⟩
  · rcases h.backoff with hb | hb
    · exact Or.inl hb
    · exact Or.inr (htracks _ _ hb fun ht _ hP => ht.trans hP)
  · have hpc := h.pcInv
    -- where the loop waits for a wake, the permit that has just been stored ends the wait;
    -- elsewhere nothing depends on the channel
    cases hcase : s.pc with
    | top => simp only [PcInv]
    | inspect =>
        simp only [PcInv, hwake]
        intro hw
        cases hw
    | givingUp =>
        simp only [PcInv, hcase] at hpc ⊢
        exact (hkept hcase).trans hpc
    | sending started =>
        simp only [PcInv, hcase] at hpc ⊢
        exact hpc
    | gap wakeAt =>
        simp only [PcInv, hcase] at hpc ⊢
        exact hpc
    | waitHead retransmitAt sleepUntil =>
        simp only [PcInv, hwake]
        intro hw
        cases hw
    | resend =>
        simp only [PcInv, hcase] at hpc ⊢
        exact htracks _ _ hpc fun _ hf hP => hf ▸ hP
    | resending started =>
        simp only [PcInv, hcase] at hpc ⊢
        exact ⟨hpc.1, hpc.2.1, htracks _ _ hpc.2.2 fun ht _ hP => ht.trans hP⟩
    | waitIdle sleepUntil =>
        simp only [PcInv, hcase] at hpc ⊢
        rcases hprog with ⟨-, hf, -⟩ | ⟨-, hf⟩
        · exact hf.trans hpc
        · exact hf hpc
    | returned cause =>
        cases cause with
        | dead => simp only [PcInv]
        | deadline b =>
            simp only [PcInv, hcase] at hpc ⊢
            exact hpc
  · intro hne htr
    have hs := hslack hne htr
    have hflush : ∀ t, s.clock ≤ t → t ≤ s.clock + frameTime →
        flushBy ch t ≤ ch.state.lastProgressAt + linkDeadDeadline := by
      intro t h1 h2
      have := flushBy_le hne htimer h1
      simp only [settleTime_eq, frameTime_eq, ackTimeout_eq] at *
      omega
    have hnow := hflush s.clock (le_refl _) (by omega)
    have hpc := h.pcInv
    cases hcase : s.pc with
    | top =>
        simp only [OnTime]
        exact fun _ => hnow
    | inspect =>
        simp only [OnTime]
        refine ⟨?_, fun _ => hnow⟩
        rw [settleTime_eq] at hs
        show s.clock < ch.state.lastProgressAt + linkDeadDeadline
        omega
    | sending started =>
        simp only [PcInv, hcase] at hpc
        simp only [OnTime]
        apply hflush
        · unfold frameTime
          omega
        · omega
    | gap wakeAt =>
        simp only [PcInv, hcase] at hpc
        simp only [OnTime]
        apply hflush
        · exact hpc.1
        · unfold frameTime
          omega
    | waitHead retransmitAt sleepUntil =>
        simp only [OnTime, hwake]
        refine ⟨fun _ _ => hnow, fun hw => ?_⟩
        cases hw
    | resending started =>
        simp only [PcInv, hcase] at hpc
        simp only [OnTime]
        apply hflush
        · omega
        · unfold frameTime
          omega
    | givingUp | resend | waitIdle _ | returned _ => simp only [OnTime]

/-- Marking the link dead from outside keeps it. -/
theorem Inv.markDead {s : SendLoop} (h : s.Inv) : Inv { s with ch := s.ch.markDead } := by
  obtain ⟨ch, clock, pc, timeout, tracked, tried⟩ := s
  refine ⟨h.window, ⟨h.timer.armed, h.timer.near⟩, h.progress, h.positive, h.backoff, ?_, ?_⟩
  · have hpc := h.pcInv
    cases pc with
    | inspect | waitHead _ _ =>
        intro hw
        cases hw
    | top | givingUp | sending _ | gap _ | resend | resending _ | waitIdle _ => exact hpc
    | returned cause => cases cause <;> exact hpc
  · intro hne htr
    have hon := h.onTime hne htr
    cases pc with
    | top =>
        intro hd
        cases hd
    | inspect =>
        refine ⟨hon.1, fun hd => ?_⟩
        cases hd
    | waitHead r u =>
        refine ⟨fun _ hd => ?_, fun hw => ?_⟩
        · cases hd
        · cases hw
    | givingUp | sending _ | gap _ | resending _ | resend | waitIdle _ | returned _ => exact hon

/-- A wake that brings no progress: an accepted datagram, or a message that
leaves a new permit or changes the acknowledgement state while `send_base`
stays. -/
def Disturbs (s : SendLoop) : LoopLabel → Prop
  | .enqueue d => (enqueueDatagram d s.ch).2 = true
  | .receive value =>
    let ch := receiveFragment s.clock value s.ch
    ch.state.sendBase = s.ch.state.sendBase ∧ ¬ (ch.state = s.ch.state ∧ ch.wake = s.ch.wake)
  | _ => False

/-- While the head waits for its first retransmission, no wake without progress
comes later than `settleTime` before the death deadline. -/
def EarlyWake (s : SendLoop) (l : LoopLabel) : Prop :=
  s.Disturbs l → s.ch.state.inFlight ≠ [] → s.tried = false →
    s.clock + settleTime ≤ s.deadAt

/-- No ACK that moves `send_base` is handled between the look at the deadline
and the write of `link_dead`. -/
def NotOvertaken (s : SendLoop) : LoopLabel → Prop
  | .receive value => s.pc = .givingUp →
    (receiveFragment s.clock value s.ch).state.sendBase = s.ch.state.sendBase
  | _ => True

/-- Neither a wake pushes the retransmission past the deadline, nor does an ACK
come too late for the loop to see it. -/
def InTime (s : SendLoop) (l : LoopLabel) : Prop := s.EarlyWake l ∧ s.NotOvertaken l

/-- A datagram that is taken on early enough keeps the invariant. -/
theorem Inv.enqueue {s : SendLoop} (h : s.Inv) {d : Bytes} (hC : s.EarlyWake (.enqueue d)) :
    Inv { s with ch := (enqueueDatagram d s.ch).1 } := by
  have hC' : (enqueueDatagram d s.ch).2 = true → s.ch.state.inFlight ≠ [] → s.tried = false →
      s.clock + settleTime ≤ s.deadAt := hC
  unfold enqueueDatagram at hC' ⊢
  split
  · exact h
  · rename_i hroom
    rw [if_neg hroom] at hC'
    refine h.notified rfl (h.window.congr rfl rfl rfl) ⟨h.timer.armed, h.timer.near⟩
      (Or.inl ⟨rfl, rfl, rfl⟩) (fun _ => rfl) ?_
    intro hne htr
    exact hC' rfl hne htr

/-- A message that is received in time keeps the invariant. -/
theorem Inv.receive {s : SendLoop} (h : s.Inv) {value : Bytes}
    (hC : s.InTime (.receive value)) : (s.receive value).Inv := by
  obtain ⟨hearly, hseen⟩ := hC
  have hseen : s.pc = .givingUp →
      (receiveFragment s.clock value s.ch).state.sendBase = s.ch.state.sendBase := hseen
  have hR := receiveFragment_received s.clock value s.ch
  unfold SendLoop.receive
  set ch := receiveFragment s.clock value s.ch with hch
  by_cases hsb : ch.state.sendBase = s.ch.state.sendBase
  · simp only [hsb, if_true]
    obtain ⟨hfl, hlp⟩ := hR.same hsb
    by_cases hsame : ch.state = s.ch.state ∧ ch.wake = s.ch.wake
    · exact h.congr hsame.1 hsame.2
    · have hw := hR.wake.resolve_left hsame
      refine h.notified hw (hR.window h.window) (hR.timer h.timer) (Or.inl ⟨hlp, hfl, rfl⟩)
        (fun _ => rfl) ?_
      intro hne htr
      rw [hfl] at hne
      rw [hlp]
      exact hearly ⟨hsb, hsame⟩ hne htr
  · -- progress: the death deadline starts afresh
    simp only [hsb, if_false]
    have hw : ch.wake = true := by
      refine hR.wake.resolve_left fun hsame => hsb ?_
      rw [hsame.1]
    have hlp := hR.moved hsb
    refine h.notified hw (hR.window h.window) (hR.timer h.timer) (Or.inr ⟨hlp, hR.idle⟩)
      (fun hpc => absurd (hseen hpc) hsb) ?_
    intro _ _
    rw [hlp, settleTime_eq, linkDeadDeadline_eq]
    omega

/-! ## Time passes -/

theorem Tracks.mono {s : SendLoop} {P : Prop} (h : s.Tracks P) {t : ℕ} (ht : s.clock ≤ t) :
    Tracks { s with clock := t } P := by
  obtain ⟨x, hx, hlt, hP⟩ := h
  exact ⟨x, hx, lt_of_lt_of_le hlt ht, hP⟩

/-- Time that passes while the loop may wait keeps the invariant. -/
theorem Inv.advance {s : SendLoop} (h : s.Inv) {t : ℕ} (ht : s.clock ≤ t)
    (hmay : s.mayWait t = true) : Inv { s with clock := t } := by
  obtain ⟨ch, clock, pc, timeout, tracked, tried⟩ := s
  refine ⟨h.window, h.timer.mono ht, le_trans h.progress ht, h.positive, ?_, ?_, ?_⟩
  · exact h.backoff.imp id fun hb => hb.mono ht
  · -- no suspension outlasts what `mayWait` allows
    have hpc := h.pcInv
    cases pc with
    | top | inspect | givingUp | resend => cases hmay
    | sending started =>
        have hlt : t < started + ackTimeout := by simpa [mayWait] using hmay
        exact ⟨le_trans hpc.1 ht, hlt⟩
    | resending started =>
        have hlt : t < started + ackTimeout := by simpa [mayWait] using hmay
        exact ⟨le_trans hpc.1 ht, hlt, hpc.2.2.mono ht⟩
    | gap wakeAt =>
        have hle : t ≤ wakeAt := by simpa [mayWait] using hmay
        exact ⟨hle, le_trans hpc.2 (Nat.add_le_add_right ht _)⟩
    | waitHead r u =>
        intro hw
        obtain ⟨-, hle⟩ : ch.wake = false ∧ t ≤ u := by simpa [mayWait] using hmay
        obtain ⟨h1, h2, h3, h4, h5, -, h7⟩ := hpc hw
        exact ⟨h1, h2, h3, h4, h5, hle, h7⟩
    | waitIdle u => exact hpc
    | returned cause => cases cause <;> exact hpc
  · intro hne htr
    have hon := h.onTime hne htr
    cases pc with
    | top | inspect | givingUp | resend => cases hmay
    | waitHead r u =>
        obtain ⟨hw, -⟩ : ch.wake = false ∧ t ≤ u := by simpa [mayWait] using hmay
        refine ⟨fun hw' => ?_, hon.2⟩
        have : false = true := hw.symm.trans hw'
        cases this
    | sending _ | resending _ | gap _ | waitIdle _ | returned _ => exact hon

/-! ## Steps of the loop -/

/-- A send that completes is followed by the gap. -/
theorem Inv.sent_sending {s : SendLoop} (h : s.Inv) {started : ℕ} (hpc : s.pc = .sending started) :
    Inv { s with pc := .gap (s.clock + interFrameGap) } := by
  obtain ⟨ch, clock, pc, timeout, tracked, tried⟩ := s
  dsimp only at hpc
  subst hpc
  have hp : started ≤ clock ∧ clock < started + ackTimeout := h.pcInv
  refine ⟨h.window, h.timer, h.progress, h.positive, h.backoff, ?_, ?_⟩
  · exact ⟨Nat.le_add_right _ _, le_refl _⟩
  · intro hne htr
    have hon : flushBy ch (started + frameTime) ≤ _ := h.onTime hne htr
    refine le_trans (flushBy_mono ch ?_) hon
    show clock + interFrameGap ≤ started + frameTime
    unfold frameTime
    omega

/-- A resend that completes doubles the timeout. -/
theorem Inv.sent_resending {s : SendLoop} (h : s.Inv) {started : ℕ}
    (hpc : s.pc = .resending started) : s.backoff.Inv := by
  obtain ⟨ch, clock, pc, timeout, tracked, tried⟩ := s
  dsimp only at hpc
  subst hpc
  obtain ⟨hp1, hp2, hp3⟩ := h.pcInv
  refine ⟨h.window, h.timer, h.progress, ?_, Or.inr hp3, trivial, ?_⟩
  · have := h.positive
    show 0 < min (timeout * 2) ackTimeoutMax
    have hmax : 0 < ackTimeoutMax := by decide
    dsimp only at this
    omega
  · intro hne htr _
    have hon : flushBy ch (started + ackTimeout) ≤ _ := h.onTime hne htr
    exact le_trans (flushBy_mono ch (Nat.le_of_lt hp2)) hon

/-- Reading the head to send it again is where it counts as tried. -/
theorem Inv.runResend {s : SendLoop} (h : s.Inv) (hpc : s.pc = .resend) : s.runResend.Inv := by
  obtain ⟨ch, clock, pc, timeout, tracked, tried⟩ := s
  dsimp only at hpc
  subst hpc
  have htr : Tracks _ _ := h.pcInv
  unfold SendLoop.runResend resendFront
  dsimp only
  cases hfl : ch.state.inFlight with
  | nil =>
      -- an ACK emptied the window after the timer fired: only the backoff grows
      refine ⟨h.window, h.timer, h.progress, ?_, Or.inr ?_, trivial, ?_⟩
      · have := h.positive
        show 0 < min (timeout * 2) ackTimeoutMax
        have hmax : 0 < ackTimeoutMax := by decide
        dsimp only at this
        omega
      · obtain ⟨x, hx, hlt, hP⟩ := htr
        exact ⟨x, hx, hlt, fun he => absurd hfl (hP he)⟩
      · intro hne
        exact absurd hfl hne
  | cons front rest =>
      obtain ⟨x, hx, hlt, -⟩ := htr
      refine ⟨h.window.congr rfl rfl rfl, AckTimer.takeAck _ _, h.progress, h.positive,
        Or.inr ⟨x, hx, hlt, fun _ => rfl⟩, ?_, ?_⟩
      · refine ⟨le_refl _, ?_, ⟨x, hx, hlt, fun _ => rfl⟩⟩
        show clock < clock + ackTimeout
        rw [ackTimeout_eq]
        omega
      · intro _ htr'
        cases htr'

/-- A fragment leaves: one frame later the loop is at its top with one fragment
less to send, so the bound does not move. -/
theorem flushBy_sendFragment {ch : ReliableChannel} (hw : Window ch)
    (hcan : ch.state.canSend = true) {frag : FragmentEntry} {rest : List FragmentEntry}
    (hq : ch.state.fragQueue = frag :: rest) (now t : ℕ) :
    flushBy (sendFragment now frag rest ch).1 (t + frameTime) ≤ flushBy ch t := by
  have hlt := hw.canSend_iff.mp hcan
  obtain ⟨hfl, -, -, -, -, -, -, -, hdl, -⟩ := sendFragment_spec now frag rest ch rfl
  have hbefore : dataLeft ch = 6 - ch.state.inFlight.length := by
    unfold dataLeft
    rw [if_neg]
    rintro ⟨-, hnil⟩
    rw [hq] at hnil
    cases hnil
  have hafter : dataLeft (sendFragment now frag rest ch).1 + 1 ≤ dataLeft ch := by
    rw [hbefore]
    unfold dataLeft
    split
    · omega
    · rw [hfl, List.length_append, List.length_singleton]
      omega
  have hmul := Nat.mul_le_mul_right frameTime hafter
  rw [Nat.add_mul, Nat.one_mul] at hmul
  unfold flushBy
  have hack : ackBy (sendFragment now frag rest ch).1 (t + frameTime) = t + frameTime := by
    unfold ackBy
    rw [hdl]
  rw [hack]
  generalize frameTime = frame at hmul ⊢
  generalize ackTimeout = timer
  omega

theorem refill_timer (ch : ReliableChannel) :
    (refill ch).state.ackDeadline = ch.state.ackDeadline ∧
    (refill ch).state.lastProgressAt = ch.state.lastProgressAt ∧
    (refill ch).state.linkDead = ch.state.linkDead ∧ (refill ch).wake = ch.wake := by
  unfold refill
  split <;> exact ⟨rfl, rfl, rfl, rfl⟩

theorem flushBy_refill (ch : ReliableChannel) (t : ℕ) : flushBy (refill ch) t = flushBy ch t := by
  unfold flushBy ackBy
  rw [dataLeft_refill, (refill_timer ch).1]

/-- Cutting datagrams keeps the invariant. -/
theorem Inv.refill {s : SendLoop} (h : s.Inv) (hpc : s.pc = .top) :
    Inv { s with ch := ReliableChannel.refill s.ch } := by
  obtain ⟨ch, clock, pc, timeout, tracked, tried⟩ := s
  dsimp only at hpc
  subst hpc
  obtain ⟨hb, hn, hf, -, hap⟩ := refill_frame ch
  obtain ⟨hdl, hlp, hld, -⟩ := refill_timer ch
  refine ⟨h.window.congr hb hn hf, ⟨?_, ?_⟩, ?_, h.positive, ?_, trivial, ?_⟩
  · rw [hap, hdl]
    exact h.timer.armed
  · rw [hdl]
    exact h.timer.near
  · show (ReliableChannel.refill ch).state.lastProgressAt ≤ clock
    rw [hlp]
    exact h.progress
  · simp only [Tracks, hlp]
    exact h.backoff
  · intro hne htr hdead
    have hon := h.onTime (by rw [← hf]; exact hne) htr (by rw [← hld]; exact hdead)
    show flushBy (ReliableChannel.refill ch) clock ≤ _
    rw [flushBy_refill]
    simp only [deadAt, hlp]
    exact hon

theorem lt_add_ackTimeout (t : ℕ) : t < t + ackTimeout := by
  rw [ackTimeout_eq]
  omega

/-- Sending a fragment keeps the invariant: one frame less is left before the timer is armed. -/
theorem Inv.sendData {s : SendLoop} (h : s.Inv) (hpc : s.pc = .top)
    (halive : s.ch.state.linkDead = false) (hcan : s.ch.state.canSend = true)
    {frag : FragmentEntry} {rest : List FragmentEntry}
    (hq : s.ch.state.fragQueue = frag :: rest) :
    Inv { s with
      ch := (sendFragment s.clock frag rest s.ch).1
      pc := .sending s.clock
      tried := if s.ch.state.inFlight.isEmpty then false else s.tried } := by
  obtain ⟨ch, clock, pc, timeout, tracked, tried⟩ := s
  dsimp only at hpc halive hcan hq
  subst hpc
  obtain ⟨hfl, -, -, -, -, -, -, hap, hdl, hlp⟩ := sendFragment_spec clock frag rest ch rfl
  have hflush := flushBy_sendFragment h.window hcan hq clock clock
  have hwin := h.window.sendFragment hcan clock frag rest
  dsimp only at hflush hwin ⊢
  set ch' := (sendFragment clock frag rest ch).1 with hch'
  have htimer : AckTimer clock ch'.state := by
    constructor
    · rw [hap, hdl]
      rfl
    · intro dl hdl'
      rw [hdl] at hdl'
      cases hdl'
  have hpos : ch'.state.inFlight ≠ [] := by
    rw [hfl]
    simp
  cases hidle : ch.state.inFlight.isEmpty with
  | true =>
      -- idle → busy: the death deadline starts now
      rw [hidle, if_pos rfl] at hlp
      refine ⟨hwin, htimer, le_of_eq hlp, h.positive, ?_,
        ⟨le_refl _, lt_add_ackTimeout clock⟩, ?_⟩
      · refine h.backoff.imp id ?_
        rintro ⟨x, hx, hlt, -⟩
        refine ⟨x, hx, hlt, fun he => ?_⟩
        have : x = clock := he.trans hlp
        dsimp only at hlt
        omega
      · intro _ _
        show flushBy ch' (clock + frameTime) ≤ ch'.state.lastProgressAt + linkDeadDeadline
        have := flushBy_le (t := clock + frameTime) hpos htimer (Nat.le_add_right _ _)
        rw [hlp]
        simp only [frameTime_eq, ackTimeout_eq, linkDeadDeadline_eq] at *
        omega
  | false =>
      rw [hidle, if_neg Bool.false_ne_true] at hlp
      rw [if_neg Bool.false_ne_true]
      refine ⟨hwin, htimer, ?_, h.positive, ?_, ⟨le_refl _, lt_add_ackTimeout clock⟩, ?_⟩
      · show ch'.state.lastProgressAt ≤ clock
        rw [hlp]
        exact h.progress
      · simp only [Tracks, hlp]
        exact h.backoff
      · intro _ htr
        have hon : flushBy ch clock ≤ ch.state.lastProgressAt + linkDeadDeadline :=
          h.onTime (List.isEmpty_eq_false_iff.mp hidle) htr halive
        show flushBy ch' (clock + frameTime) ≤ ch'.state.lastProgressAt + linkDeadDeadline
        rw [hlp]
        exact le_trans hflush hon

/-- Sending an acknowledgement by itself keeps the invariant. -/
theorem Inv.sendAck {s : SendLoop} (h : s.Inv) (hpc : s.pc = .top)
    (halive : s.ch.state.linkDead = false) (hleft : dataLeft s.ch = 0)
    (hack : s.ch.state.ackPending.isSome = true) :
    Inv { s with
      ch := { s.ch with state := s.ch.state.takeAck }
      pc := .sending s.clock } := by
  obtain ⟨ch, clock, pc, timeout, tracked, tried⟩ := s
  dsimp only at hpc halive hleft hack
  subst hpc
  refine ⟨h.window.congr rfl rfl rfl, AckTimer.takeAck _ _, h.progress, h.positive, h.backoff,
    ⟨le_refl _, lt_add_ackTimeout clock⟩, ?_⟩
  intro hne htr
  have hon : flushBy ch clock ≤ ch.state.lastProgressAt + linkDeadDeadline :=
    h.onTime hne htr halive
  -- the acknowledgement takes one frame, and nothing else is left to send
  refine le_trans ?_ hon
  show max (clock + frameTime + dataLeft ch * frameTime) (clock + frameTime) + ackTimeout ≤ _
  obtain ⟨dl, hdl⟩ := Option.isSome_iff_exists.mp (h.timer.armed.symm.trans hack)
  unfold flushBy ackBy
  dsimp only at hdl
  rw [hleft, hdl]
  dsimp only
  omega

/-- With nothing left to send, the loop goes on to look at the head. -/
theorem Inv.inspect {s : SendLoop} (h : s.Inv) (hpc : s.pc = .top)
    (halive : s.ch.state.linkDead = false) (hleft : dataLeft s.ch = 0)
    (hdue : ∀ v, s.ch.state.ackPending = some v →
      s.ch.state.ackDeadline.all (· ≤ s.clock) = false) :
    Inv { s with pc := .inspect } := by
  obtain ⟨ch, clock, pc, timeout, tracked, tried⟩ := s
  dsimp only at hpc halive hleft hdue
  subst hpc
  refine ⟨h.window, h.timer, h.progress, h.positive, h.backoff, ?_, ?_⟩
  · intro _
    refine ⟨hleft, ?_, halive⟩
    intro dl hdl
    have hsome : ch.state.ackPending.isSome = true := by
      have harmed := h.timer.armed
      dsimp only at harmed hdl
      rw [harmed, hdl]
      rfl
    obtain ⟨v, hv⟩ := Option.isSome_iff_exists.mp hsome
    have hall := hdue v hv
    dsimp only at hdl
    rw [hdl] at hall
    simp only [Option.all_some, decide_eq_false_iff_not] at hall
    exact Nat.le_of_lt (Nat.lt_of_not_le hall)
  · intro hne htr
    have hon : flushBy ch clock ≤ ch.state.lastProgressAt + linkDeadDeadline :=
      h.onTime hne htr halive
    refine ⟨?_, fun _ => hon⟩
    exact lt_of_lt_of_le (lt_add_ackTimeout clock) (le_trans (lt_flushBy ch clock) hon)

/-- `next_send_action` keeps the invariant. -/
theorem Inv.runTop {s : SendLoop} (h : s.Inv) (hpc : s.pc = .top) : s.runTop.Inv := by
  have hr := h.refill hpc
  obtain ⟨-, -, hff, -, -⟩ := refill_frame s.ch
  obtain ⟨-, -, hld, -⟩ := refill_timer s.ch
  have hact := nextSendAction_cases s.clock s.ch
  unfold SendLoop.runTop
  -- the queue has been cut before the window is looked at, which moves nothing
  generalize nextSendAction s.clock s.ch = r at hact
  cases hact with
  | dead _ =>
      exact ⟨h.window, h.timer, h.progress, h.positive, h.backoff, trivial, fun _ _ => trivial⟩
  | @data frag rest halive hcan hq =>
      have hsend := hr.sendData hpc (hld.trans halive) hcan hq
      have hfl := (sendFragment_spec s.clock frag rest (ReliableChannel.refill s.ch) rfl).1
      -- the head is a new one exactly where nothing was in flight before
      have htried : (s.ch.state.inFlight.isEmpty && !(sendFragment s.clock frag rest
          (ReliableChannel.refill s.ch)).1.state.inFlight.isEmpty) =
          (ReliableChannel.refill s.ch).state.inFlight.isEmpty := by
        rw [hfl, hff]
        simp
      show Inv { s with
        ch := (sendFragment s.clock frag rest (ReliableChannel.refill s.ch)).1
        pc := .sending s.clock
        tried := if (s.ch.state.inFlight.isEmpty && _) = true then false else s.tried }
      rw [htried]
      exact hsend
  | @pureAck v halive hquiet hack =>
      have hsend := hr.sendAck hpc (hld.trans halive) (dataLeft_of_quiet hquiet hr.window)
        (Option.isSome_iff_exists.mpr ⟨v, hack⟩)
      have htried : (s.ch.state.inFlight.isEmpty &&
          !(ReliableChannel.refill s.ch).state.takeAck.inFlight.isEmpty) = false := by
        show (s.ch.state.inFlight.isEmpty &&
          !(ReliableChannel.refill s.ch).state.inFlight.isEmpty) = false
        rw [hff, Bool.and_not_self]
      show Inv { s with
        ch := _
        pc := .sending s.clock
        tried := if (s.ch.state.inFlight.isEmpty && _) = true then false else s.tried }
      rw [htried]
      exact hsend
  | wait halive hquiet hdue =>
      exact hr.inspect hpc (hld.trans halive) (dataLeft_of_quiet hquiet hr.window) hdue

/-- The timers armed by `inspect`: the deadline branch is taken only after a
retransmission, and the first timer is one `ackTimeout`. -/
theorem Inv.runInspect {s : SendLoop} (h : s.Inv) (hpc : s.pc = .inspect) :
    s.runInspect.Inv := by
  obtain ⟨ch, clock, pc, timeout, tracked, tried⟩ := s
  dsimp only at hpc
  subst hpc
  unfold SendLoop.runInspect
  dsimp only
  -- without anything in flight the loop waits for a wake only
  cases hidle : ch.state.inFlight.isEmpty with
  | true =>
      have hnil : ch.state.inFlight = [] := List.isEmpty_iff.mp hidle
      exact ⟨h.window, h.timer, h.progress, h.positive, h.backoff, hnil,
        fun hne => absurd hnil hne⟩
  | false =>
      have hne : ch.state.inFlight ≠ [] := List.isEmpty_eq_false_iff.mp hidle
      rw [if_neg Bool.false_ne_true]
      set timeout' :=
        if tracked.any (· ≠ ch.state.lastProgressAt) then ackTimeout else timeout with htimeout
      have hpos : 0 < timeout' := by
        rw [htimeout]
        split
        · decide
        · exact h.positive
      -- a grown timeout belongs to the progress it was grown for
      have hgrown : timeout' = ackTimeout ∨ (ch.state.lastProgressAt < clock ∧ tried = true) := by
        rw [htimeout]
        split
        · exact Or.inl rfl
        · rename_i hany
          rcases h.backoff with hb | ⟨x, hx, hlt, hP⟩
          · exact Or.inl hb
          · right
            dsimp only at hx hlt hP
            rw [hx] at hany
            have he : x = ch.state.lastProgressAt := by simpa using hany
            exact ⟨he ▸ hlt, hP he⟩
      have htracks : timeout' = ackTimeout ∨ Tracks
          ⟨ch, clock, .inspect, timeout', some ch.state.lastProgressAt, tried⟩ (tried = true) :=
        hgrown.imp id fun hg => ⟨ch.state.lastProgressAt, rfl, hg.1, fun _ => hg.2⟩
      -- the deadline has passed: a head that was on time has been retransmitted by now
      by_cases hdead : ch.state.lastProgressAt + linkDeadDeadline ≤ clock
      · rw [if_pos hdead]
        refine ⟨h.window, h.timer, h.progress, hpos, htracks, ?_, fun _ _ => trivial⟩
        show tried = true
        cases htr : tried with
        | true => rfl
        | false =>
            have hon := h.onTime hne htr
            exact absurd hdead (Nat.not_le_of_lt hon.1)
      · rw [if_neg hdead]
        have hdead' : clock < ch.state.lastProgressAt + linkDeadDeadline := by omega
        refine ⟨h.window, h.timer, h.progress, hpos, htracks, ?_, ?_⟩
        · intro hw
          obtain ⟨hleft, hack, halive⟩ := h.pcInv hw
          have hp := h.progress
          dsimp only at hp
          refine ⟨hleft, halive, hne, rfl, ?_, ?_, rfl⟩
          · show ch.state.lastProgressAt < clock + timeout'
            omega
          · cases hdl : ch.state.ackDeadline with
            | none =>
                dsimp only
                omega
            | some dl =>
                have := hack dl hdl
                dsimp only at this ⊢
                omega
        · intro _ htr
          have hon := h.onTime hne htr
          have htmo : timeout' = ackTimeout := by
            refine hgrown.resolve_right fun hg => ?_
            dsimp only at htr
            rw [htr] at hg
            cases hg.2
          refine ⟨fun _ => hon.2, fun hw => ?_⟩
          have hflush : flushBy ch clock ≤ ch.state.lastProgressAt + linkDeadDeadline :=
            hon.2 (h.pcInv hw).2.2
          constructor
          · show clock + timeout' ≤ ch.state.lastProgressAt + linkDeadDeadline
            rw [htmo]
            exact le_trans (lt_flushBy ch clock) hflush
          · intro dl hdl
            refine le_trans ?_ hflush
            unfold flushBy ackBy
            dsimp only at hdl
            rw [hdl]
            dsimp only
            omega

/-- Setting `link_dead` keeps the invariant. -/
theorem Inv.declareDead {s : SendLoop} (h : s.Inv) (hpc : s.pc = .givingUp) :
    s.declareDead.Inv := by
  obtain ⟨ch, clock, pc, timeout, tracked, tried⟩ := s
  dsimp only at hpc
  subst hpc
  have htried : tried = true := h.pcInv
  exact ⟨h.window.congr rfl rfl rfl, ⟨h.timer.armed, h.timer.near⟩, h.progress, h.positive,
    h.backoff, htried, fun _ _ => trivial⟩

/-- The end of the wait for the head's timer keeps the invariant. -/
theorem Inv.leave_waitHead {s : SendLoop} (h : s.Inv) {r u : ℕ} (hpc : s.pc = .waitHead r u)
    {s' : SendLoop} (hs : s.runLoop = some s') : s'.Inv := by
  obtain ⟨ch, clock, pc, timeout, tracked, tried⟩ := s
  dsimp only at hpc
  subst hpc
  unfold runLoop at hs
  dsimp only at hs
  cases hw : ch.wake with
  | true =>
      rw [hw, if_pos rfl] at hs
      obtain rfl := Option.some.inj hs
      refine ⟨h.window.congr rfl rfl rfl, h.timer, h.progress, h.positive, h.backoff, trivial, ?_⟩
      intro hne htr
      exact (h.onTime hne htr).1 hw
  | false =>
      obtain ⟨hleft, halive, hne, htk, hlt, hle, hu⟩ := h.pcInv hw
      dsimp only [deadAt] at hleft halive hne htk hlt hle hu
      rw [hw, if_neg Bool.false_ne_true] at hs
      split at hs
      · rename_i hdue
        obtain rfl := Option.some.inj hs
        by_cases hr : clock < r
        · -- the ACK delay expired
          simp only [hr, if_true]
          refine ⟨h.window, h.timer, h.progress, h.positive, h.backoff, trivial, ?_⟩
          intro _ htr _
          obtain ⟨hrd, hack⟩ := (h.onTime hne htr).2 hw
          show flushBy ch clock ≤ ch.state.lastProgressAt + linkDeadDeadline
          dsimp only [deadAt] at hrd hack
          unfold flushBy ackBy
          rw [hleft]
          cases hdl : ch.state.ackDeadline with
          | none =>
              rw [hdl] at hu
              dsimp only at hu
              omega
          | some dl =>
              have := hack dl hdl
              rw [hdl] at hu
              dsimp only at hu ⊢
              omega
        · simp only [hr, if_false]
          refine ⟨h.window, h.timer, h.progress, h.positive, h.backoff, ?_, fun _ _ => trivial⟩
          refine ⟨ch.state.lastProgressAt, htk, ?_, fun _ => hne⟩
          show ch.state.lastProgressAt < clock
          omega
      · cases hs

theorem Inv.leave_waitIdle {s : SendLoop} (h : s.Inv) (hnil : s.ch.state.inFlight = [])
    (wake : Bool) : Inv (leaveIdle { s with ch := { s.ch with wake := wake } }) :=
  ⟨h.window.congr rfl rfl rfl, h.timer, h.progress, show 0 < ackTimeout by decide, Or.inl rfl,
    trivial, fun hne => absurd hnil hne⟩

/-- The loop keeps the invariant up to its next suspension or lock section. -/
theorem Inv.runLoop {s s' : SendLoop} (h : s.Inv) (hs : s.runLoop = some s') : s'.Inv := by
  cases hpc : s.pc with
  | top =>
      simp only [SendLoop.runLoop, hpc, Option.some.injEq] at hs
      exact hs ▸ h.runTop hpc
  | inspect =>
      simp only [SendLoop.runLoop, hpc, Option.some.injEq] at hs
      exact hs ▸ h.runInspect hpc
  | givingUp =>
      simp only [SendLoop.runLoop, hpc, Option.some.injEq] at hs
      exact hs ▸ h.declareDead hpc
  | resend =>
      simp only [SendLoop.runLoop, hpc, Option.some.injEq] at hs
      exact hs ▸ h.runResend hpc
  | waitHead r u => exact h.leave_waitHead hpc hs
  | gap wakeAt =>
      obtain ⟨ch, clock, pc, timeout, tracked, tried⟩ := s
      dsimp only at hpc
      subst hpc
      -- the gap is over
      obtain ⟨hle, -⟩ : clock ≤ wakeAt ∧ _ := h.pcInv
      unfold SendLoop.runLoop at hs
      dsimp only at hs
      split at hs
      · rename_i hdue
        obtain rfl := Option.some.inj hs
        refine ⟨h.window, h.timer, h.progress, h.positive, h.backoff, trivial, ?_⟩
        intro hne htr _
        exact le_trans (flushBy_mono ch hle) (h.onTime hne htr)
      · cases hs
  | waitIdle u =>
      obtain ⟨ch, clock, pc, timeout, tracked, tried⟩ := s
      dsimp only at hpc
      subst hpc
      have hnil : ch.state.inFlight = [] := h.pcInv
      unfold SendLoop.runLoop at hs
      dsimp only at hs
      split at hs
      · obtain rfl := Option.some.inj hs
        exact h.leave_waitIdle hnil false
      · split at hs
        · obtain rfl := Option.some.inj hs
          exact h.leave_waitIdle hnil ch.wake
        · cases hs
  | sending _ | resending _ | returned _ =>
      simp only [SendLoop.runLoop, hpc] at hs
      cases hs

/-- Every step in time keeps it. -/
theorem inv_step (s : SendLoop) (l : LoopLabel) (s' : SendLoop) (h : s.Inv)
    (hC : s.InTime l) (hs : system.step l s = some s') : s'.Inv := by
  cases l with
  | advance t =>
      change (if s.clock ≤ t ∧ s.mayWait t = true then _ else none) = _ at hs
      split at hs
      · rename_i hmay
        obtain rfl := Option.some.inj hs
        exact h.advance hmay.1 hmay.2
      · cases hs
  | loop => exact h.runLoop hs
  | sent =>
      -- a send that returns was one of the two
      simp only [system, step] at hs
      split at hs
      · rename_i started hpc
        obtain rfl := Option.some.inj hs
        exact h.sent_sending hpc
      · rename_i started hpc
        obtain rfl := Option.some.inj hs
        exact h.sent_resending hpc
      · cases hs
  | enqueue d =>
      obtain rfl := Option.some.inj hs
      exact h.enqueue hC.1
  | receive value =>
      obtain rfl := Option.some.inj hs
      exact h.receive hC
  | setChunkSize n =>
      change (if 4 ≤ n then _ else none) = _ at hs
      split at hs
      · obtain rfl := Option.some.inj hs
        exact h.congr rfl rfl
      · cases hs
  | markDead =>
      obtain rfl := Option.some.inj hs
      exact h.markDead

/-- In every run whose wakes without progress come early enough, and in which no
ACK overtakes the loop while it gives up, the deadline branch returns only after
a retransmission of the head. -/
theorem dead_after_retransmit {h : List (SendLoop × LoopLabel)} {s : SendLoop}
    (hrun : system.Run h s) (htime : System.Meets InTime h) {tried : Bool}
    (hdead : s.pc = .returned (.deadline tried)) : tried = true := by
  have hinv : s.Inv := hrun.invariant inv_init inv_step htime
  have hpc := hinv.pcInv
  rw [PcInv, hdead] at hpc
  exact hpc

instance (s : SendLoop) (l : LoopLabel) : Decidable (s.Disturbs l) :=
  match l with
  | .enqueue d => inferInstanceAs (Decidable ((enqueueDatagram d s.ch).2 = true))
  | .receive _ => inferInstanceAs (Decidable (_ = _ ∧ ¬ (_ = _ ∧ _ = _)))
  | .advance _ | .loop | .sent | .setChunkSize _ | .markDead => inferInstanceAs (Decidable False)

instance (s : SendLoop) (l : LoopLabel) : Decidable (s.EarlyWake l) :=
  inferInstanceAs (Decidable (_ → _ → _ → _))

instance (s : SendLoop) (l : LoopLabel) : Decidable (s.NotOvertaken l) :=
  match l with
  | .receive _ => inferInstanceAs (Decidable (_ = _ → _ = _))
  | .advance _ | .loop | .sent | .enqueue _ | .setChunkSize _ | .markDead =>
    inferInstanceAs (Decidable True)

instance (s : SendLoop) (l : LoopLabel) : Decidable (s.InTime l) :=
  inferInstanceAs (Decidable (_ ∧ _))

theorem init_twenty : system.Init (start 20 0 0) := ⟨20, 0, 0, by omega, le_refl _, rfl⟩

/-- The first fragment is sent at once and its timer armed. -/
def firstSend : List LoopLabel :=
  [.enqueue [0], .loop, .sent, .advance (millis 3), .loop, .loop, .loop, .loop, .loop, .loop]

/-- The timer fires at `t` and the head is retransmitted. -/
def retransmit (t : ℕ) : List LoopLabel := [.advance (millis t), .loop, .loop, .sent, .loop, .loop]

/-- The loop waits out the deadline, and is about to set `link_dead`. -/
def waitOut : List LoopLabel := [.advance (millis 6000), .loop, .loop, .loop]

/-- The timer runs out, and the loop goes on. -/
def giveUp : List LoopLabel := waitOut ++ [.loop]

/-- A second datagram half a second in, then silence. -/
def quietRun : List LoopLabel :=
  firstSend ++ retransmit 303 ++
  [.advance (millis 500), .enqueue [1], .loop, .loop, .sent, .advance (millis 503), .loop, .loop,
    .loop] ++
  retransmit 1103 ++ retransmit 2303 ++ retransmit 4703

/-- A datagram that is never acknowledged, with nothing else going on. -/
def calmRun : List LoopLabel := quietRun ++ giveUp

/-- The calm run: the link is given up after retransmissions. -/
theorem dead_after_retransmit_calmRun :
    ∃ h s tried, system.Run h s ∧ System.Meets InTime h ∧ h.map Prod.snd = calmRun ∧
      s.pc = .returned (.deadline tried) ∧ tried = true := by
  obtain ⟨h, s, hrun, htime, hl, hpc⟩ := System.Run.of_execMeets (C := InTime)
    (P := fun s => ∃ tried, s.pc = .returned (.deadline tried)) calmRun init_twenty
    (by decide +kernel)
  obtain ⟨tried, hpc⟩ := hpc
  exact ⟨h, s, tried, hrun, htime, hl, hpc, dead_after_retransmit hrun htime hpc⟩

/-- A datagram at `t` that still fits in the window. -/
def wakeAndSend (t : ℕ) : List LoopLabel :=
  [.advance (millis t), .enqueue [0], .loop, .loop, .sent, .advance (millis (t + 3)), .loop,
    .loop, .loop]

/-- A datagram at `t` once the window is full. -/
def wakeOnly (t : ℕ) : List LoopLabel :=
  [.advance (millis t), .enqueue [0], .loop, .loop, .loop]

/-- A datagram every 250 ms and no acknowledgement. -/
def starvedRun : List LoopLabel :=
  firstSend ++ (List.range 5).flatMap (fun k => wakeAndSend (250 * (k + 1))) ++
  (List.range 18).flatMap (fun k => wakeOnly (250 * (k + 6))) ++ giveUp

/-- A run with a datagram every 250 ms: the link is given up although its head was never sent
again. -/
theorem starved_link_dies :
    ∃ h s, system.Run h s ∧ h.map Prod.snd = starvedRun ∧
      s.pc = .returned (.deadline false) ∧ s.ch.retransmitCounter = 0 := by
  obtain ⟨h, s, hrun, hl, hpc, hcount⟩ := System.Run.of_exec
    (P := fun s => s.pc = .returned (.deadline false) ∧ s.ch.retransmitCounter = 0) starvedRun
    init_twenty (by decide +kernel)
  exact ⟨h, s, hrun, hl, hpc, hcount⟩

/-- The ACK of the first fragment comes when the loop has decided to give up. -/
def overtakenRun : List LoopLabel :=
  quietRun ++ waitOut ++ [.receive [0x00, 0x10], .loop]

/-- Every wake comes early enough here, and the head has been retransmitted. But the link is given
up right after an ACK, with another fragment at the front that has been sent once. -/
theorem acked_link_dies :
    ∃ h s, system.Run h s ∧ System.Meets EarlyWake h ∧ h.map Prod.snd = overtakenRun ∧
      s.pc = .returned (.deadline false) ∧ s.ch.state.inFlight.map InFlightFragment.seq = [1] ∧
      s.ch.state.lastProgressAt = s.clock := by
  obtain ⟨h, s, hrun, hwakes, hl, hpc, hfront, hprogress⟩ := System.Run.of_execMeets
    (C := EarlyWake)
    (P := fun s => s.pc = .returned (.deadline false) ∧
      s.ch.state.inFlight.map InFlightFragment.seq = [1] ∧
      s.ch.state.lastProgressAt = s.clock) overtakenRun init_twenty (by decide +kernel)
  exact ⟨h, s, hrun, hwakes, hl, hpc, hfront, hprogress⟩

end SendLoop

end IrohBle.Reliable
