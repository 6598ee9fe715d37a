import IrohBle.Reliable.LinkDead

/-! # Reliable.Silence: a silent link is found dead in bounded time

`LINK_DEAD_DEADLINE` is looked at in the `Wait` branch only, and a loop that always has something
to send does not come there. While nothing is received, that is at most what the window still
admits and one acknowledgement. `silent_link_dies`: from any moment with fragments in flight, a
loop that receives nothing returns before the deadline and seven frames have passed, whatever is
enqueued meanwhile.
-/

namespace IrohBle.Reliable

open ReliableChannel Lib

/-- The sends that are possible while nothing is received. -/
def sendsLeft (ch : ReliableChannel) : ℕ :=
  (6 - ch.state.inFlight.length) + if ch.state.ackPending.isSome then 1 else 0

/-- How far past the deadline the loop can be: one frame for every send that is not left. -/
def overrun (ch : ReliableChannel) : ℕ := (7 - sendsLeft ch) * frameTime

theorem sendsLeft_congr {ch ch' : ReliableChannel} (hf : ch'.state.inFlight = ch.state.inFlight)
    (ha : ch'.state.ackPending = ch.state.ackPending) : sendsLeft ch' = sendsLeft ch := by
  unfold sendsLeft
  rw [hf, ha]

/-- With something in flight there are six sends left at most. -/
theorem sendsLeft_le {ch : ReliableChannel} (h : ch.state.inFlight ≠ []) : sendsLeft ch ≤ 6 := by
  have hpos := List.length_pos_iff.mpr h
  unfold sendsLeft
  split <;> omega

theorem frameTime_le_overrun {ch : ReliableChannel} (h : ch.state.inFlight ≠ []) :
    frameTime ≤ overrun ch := by
  have hle := sendsLeft_le h
  exact Nat.le_mul_of_pos_left frameTime (by omega)

/-- A send costs one frame. -/
theorem overrun_send {ch ch' : ReliableChannel} (hlt : sendsLeft ch' < sendsLeft ch)
    (hle : sendsLeft ch ≤ 6) : overrun ch + frameTime ≤ overrun ch' := by
  unfold overrun
  calc (7 - sendsLeft ch) * frameTime + frameTime
      = (7 - sendsLeft ch + 1) * frameTime := by ring
    _ ≤ (7 - sendsLeft ch') * frameTime := Nat.mul_le_mul_right _ (by omega)

theorem overrun_le (ch : ReliableChannel) : overrun ch ≤ 7 * frameTime :=
  Nat.mul_le_mul_right _ (Nat.sub_le _ _)

/-- A step of another task that is no arrival. -/
structure Keeps (ch ch' : ReliableChannel) : Prop where
  flight : ch'.state.inFlight = ch.state.inFlight
  ack : ch'.state.ackPending = ch.state.ackPending
  anchor : ch'.state.lastProgressAt = ch.state.lastProgressAt

/-- A datagram taken on does not touch the window. -/
theorem enqueueDatagram_keeps (d : Bytes) (ch : ReliableChannel) :
    Keeps ch (enqueueDatagram d ch).1 ∧
      (enqueueDatagram d ch).1.state.sendBase = ch.state.sendBase ∧
      (enqueueDatagram d ch).1.state.sendNext = ch.state.sendNext := by
  unfold enqueueDatagram
  split
  · exact ⟨⟨rfl, rfl, rfl⟩, rfl, rfl⟩
  · exact ⟨⟨rfl, rfl, rfl⟩, rfl, rfl⟩

namespace SendLoop

/-! ## What holds in every run -/

/-- Where the clock can be at each program counter. -/
def Timely (s : SendLoop) : Prop :=
  match s.pc with
  | .sending started | .resending started =>
      started ≤ s.clock ∧ s.clock < started + ackTimeout
  | .gap wakeAt => s.clock ≤ wakeAt ∧ wakeAt ≤ s.clock + interFrameGap
  | .waitHead _ sleepUntil => sleepUntil ≤ s.deadAt
  | .waitIdle _ => s.ch.state.inFlight = []
  | .top | .inspect | .givingUp | .resend | .returned _ => True

/-- What holds of every run: the window, and that no suspension is longer than it may be. -/
structure Paced (s : SendLoop) : Prop where
  window : Window s.ch
  progress : s.ch.state.lastProgressAt ≤ s.clock
  timely : s.Timely

/-- The other tasks leave the program counter alone. They may move `last_progress_at` on, and
take fragments out of flight. -/
theorem Paced.congr {s : SendLoop} (h : s.Paced) {ch : ReliableChannel} {tried : Bool}
    (hwin : Window ch) (hprogress : ch.state.lastProgressAt ≤ s.clock)
    (hmono : s.ch.state.lastProgressAt ≤ ch.state.lastProgressAt)
    (hidle : s.ch.state.inFlight = [] → ch.state.inFlight = []) :
    Paced { s with ch := ch, tried := tried } := by
  obtain ⟨ch₀, clock, pc, timeout, tracked, tried₀⟩ := s
  refine ⟨hwin, hprogress, ?_⟩
  have htimely := h.timely
  unfold Timely deadAt at htimely ⊢
  cases pc with
  | waitHead r u =>
      dsimp only at htimely hmono ⊢
      omega
  | waitIdle u => exact hidle htimely
  | _ => exact htimely

/-- A change of the channel that keeps the window and the progress keeps it. -/
theorem Paced.keeps {s : SendLoop} (h : s.Paced) {ch : ReliableChannel} (hk : Keeps s.ch ch)
    (hwin : Window ch) : Paced { s with ch := ch } := by
  have hidle : s.ch.state.inFlight = [] → ch.state.inFlight = [] := by
    intro hnil
    exact hk.flight.trans hnil
  exact h.congr hwin (hk.anchor.trans_le h.progress) hk.anchor.ge hidle

theorem paced_init (s : SendLoop) (h : system.Init s) : s.Paced := by
  obtain ⟨c, made, now, -, hle, rfl⟩ := h
  exact ⟨⟨0, 0, wraps_zero, wraps_zero, le_refl _, by omega, rfl⟩, hle, trivial⟩

/-- What a call of `next_send_action` does to the window, the liveness anchor and the sends that
are left. -/
inductive Sends (now : ℕ) (ch : ReliableChannel) : ReliableChannel × SendAction → Prop where
  | quiet {ch' : ReliableChannel} {a : SendAction} (action : ∀ msg, a ≠ .send msg)
      (flight : ch'.state.inFlight = ch.state.inFlight)
      (ack : ch'.state.ackPending = ch.state.ackPending)
      (anchor : ch'.state.lastProgressAt = ch.state.lastProgressAt) : Sends now ch (ch', a)
  | sends {ch' : ReliableChannel} {msg : Bytes} (fewer : sendsLeft ch' < sendsLeft ch)
      (busy : ch.state.inFlight ≠ [] → ch'.state.inFlight ≠ [] ∧
        ch'.state.lastProgressAt = ch.state.lastProgressAt)
      (anchor : ch'.state.lastProgressAt = ch.state.lastProgressAt ∨
        ch'.state.lastProgressAt = now) : Sends now ch (ch', .send msg)

theorem lastProgressAt_refill (ch : ReliableChannel) :
    (refill ch).state.lastProgressAt = ch.state.lastProgressAt := by
  unfold refill
  split <;> rfl

/-- A call that sends leaves one send less to do. -/
theorem nextSendAction_sends {ch : ReliableChannel} (hw : Window ch) (now : ℕ) :
    Sends now ch (nextSendAction now ch) ∧ Window (nextSendAction now ch).1 := by
  obtain ⟨hb, hn, hf, -, ha⟩ := refill_frame ch
  have hl := lastProgressAt_refill ch
  have hw₁ : Window (refill ch) := hw.congr hb hn hf
  have hact := nextSendAction_cases now ch
  generalize nextSendAction now ch = r at hact
  cases hact with
  | dead _ => exact ⟨.quiet (fun msg h => by cases h) rfl rfl rfl, hw⟩
  | wait _ _ _ => exact ⟨.quiet (fun msg h => by cases h) hf ha hl, hw₁⟩
  -- the acknowledgement that was due is off the count
  | @pureAck v _ _ hv =>
      refine ⟨.sends ?_ ?_ (Or.inl hl), hw₁.congr rfl rfl rfl⟩
      · unfold sendsLeft ChannelState.takeAck
        dsimp only
        rw [hf, ← ha, hv]
        simp
      · intro hne
        exact ⟨by rw [← hf] at hne; exact hne, hl⟩
  -- a fragment takes a place in the window
  | @data frag rest _ hcan hq =>
      obtain ⟨hfl, -, -, -, -, -, -, hack, -, hlast⟩ :=
        sendFragment_spec now frag rest (refill ch) rfl
      have hroom := hw₁.canSend_iff.mp hcan
      refine ⟨?_, hw₁.sendFragment hcan now frag rest⟩
      have hsends : Sends now ch
          ((sendFragment now frag rest (refill ch)).1, (sendFragment now frag rest (refill ch)).2) := by
        refine .sends ?_ ?_ ?_
        · unfold sendsLeft
          rw [hfl, hack, List.length_append, List.length_singleton, hf]
          rw [hf] at hroom
          simp only [Option.isSome_none, Bool.false_eq_true, if_false]
          omega
        · intro hne
          rw [hfl, hlast, hf, hl]
          refine ⟨by simp, ?_⟩
          simp [hne]
        · rw [hlast, hl]
          split
          · exact Or.inr rfl
          · exact Or.inl rfl
      exact hsends

/-- `next_send_action` keeps the pace. -/
theorem Paced.runTop {s : SendLoop} (h : s.Paced) : s.runTop.Paced := by
  obtain ⟨hsends, hwin⟩ := nextSendAction_sends h.window s.clock
  unfold SendLoop.runTop
  dsimp only
  generalize nextSendAction s.clock s.ch = r at hsends hwin
  have hprogress : r.1.state.lastProgressAt ≤ s.clock := by
    cases hsends with
    | quiet _ _ _ hanchor => exact hanchor.trans_le h.progress
    | sends _ _ hanchor =>
        rcases hanchor with heq | heq
        · exact heq.trans_le h.progress
        · exact heq.le
  split
  · exact ⟨hwin, hprogress, trivial⟩
  · exact ⟨hwin, hprogress, trivial⟩
  · exact ⟨hwin, hprogress, le_refl _, lt_add_ackTimeout _⟩

/-- The look at the head keeps the pace. -/
theorem Paced.runInspect {s : SendLoop} (h : s.Paced) : s.runInspect.Paced := by
  unfold SendLoop.runInspect
  dsimp only
  split
  · rename_i hempty
    exact ⟨h.window, h.progress, List.isEmpty_iff.mp hempty⟩
  · split
    · exact ⟨h.window, h.progress, trivial⟩
    · refine ⟨h.window, h.progress, ?_⟩
      unfold Timely deadAt
      dsimp only
      split
      · exact min_le_right _ _
      · exact min_le_right _ _

theorem Paced.runResend {s : SendLoop} (h : s.Paced) : s.runResend.Paced := by
  unfold SendLoop.runResend resendFront
  dsimp only
  cases s.ch.state.inFlight with
  | nil => exact ⟨h.window, h.progress, trivial⟩
  | cons front rest =>
      exact ⟨h.window.congr rfl rfl rfl, h.progress, le_refl _, lt_add_ackTimeout _⟩

/-- The loop keeps the pace up to its next suspension or lock section. -/
theorem Paced.runLoop {s s' : SendLoop} (h : s.Paced) (hs : s.runLoop = some s') : s'.Paced := by
  have hwindow := h.window
  have hprogress := h.progress
  unfold SendLoop.runLoop at hs
  split at hs
  · exact Option.some.inj hs ▸ h.runTop
  · exact Option.some.inj hs ▸ h.runInspect
  · -- the second lock section of a loop that gives up
    obtain rfl := Option.some.inj hs
    exact ⟨hwindow.congr rfl rfl rfl, hprogress, trivial⟩
  · exact Option.some.inj hs ▸ h.runResend
  · -- the gap is over, or not yet
    split at hs
    · obtain rfl := Option.some.inj hs
      exact ⟨hwindow, hprogress, trivial⟩
    · cases hs
  · -- woken by a permit, or by the timer
    split at hs
    · obtain rfl := Option.some.inj hs
      exact ⟨hwindow.congr rfl rfl rfl, hprogress, trivial⟩
    · split at hs
      · obtain rfl := Option.some.inj hs
        split
        · exact ⟨hwindow, hprogress, trivial⟩
        · exact ⟨hwindow, hprogress, trivial⟩
      · cases hs
  · split at hs
    · obtain rfl := Option.some.inj hs
      exact ⟨hwindow.congr rfl rfl rfl, hprogress, trivial⟩
    · split at hs
      · obtain rfl := Option.some.inj hs
        exact ⟨hwindow, hprogress, trivial⟩
      · cases hs
  · cases hs
  · cases hs
  · cases hs

/-- Time that passes while the loop may wait keeps the pace. -/
theorem Paced.advance {s : SendLoop} (h : s.Paced) {t : ℕ} (ht : s.clock ≤ t)
    (hmay : s.mayWait t = true) : Paced { s with clock := t } := by
  obtain ⟨ch, clock, pc, timeout, tracked, tried⟩ := s
  refine ⟨h.window, h.progress.trans ht, ?_⟩
  have htimely := h.timely
  unfold Timely deadAt at htimely ⊢
  unfold mayWait at hmay
  cases pc with
  | sending started => exact ⟨htimely.1.trans ht, by simpa using hmay⟩
  | resending started => exact ⟨htimely.1.trans ht, by simpa using hmay⟩
  | gap wakeAt =>
      have hle : t ≤ wakeAt := by simpa using hmay
      exact ⟨hle, htimely.2.trans (Nat.add_le_add_right ht _)⟩
  | _ => exact htimely

/-- Every step keeps the pace. -/
theorem paced_step (s : SendLoop) (l : LoopLabel) (s' : SendLoop) (h : s.Paced)
    (hs : system.step l s = some s') : s'.Paced := by
  cases l with
  | advance t =>
      change (if s.clock ≤ t ∧ s.mayWait t = true then _ else none) = _ at hs
      split at hs
      · rename_i hmay
        obtain rfl := Option.some.inj hs
        exact h.advance hmay.1 hmay.2
      · cases hs
  | loop => exact h.runLoop hs
  | sent =>
      simp only [system, step] at hs
      split at hs
      · obtain rfl := Option.some.inj hs
        exact ⟨h.window, h.progress, Nat.le_add_right _ _, le_refl _⟩
      · obtain rfl := Option.some.inj hs
        exact ⟨h.window, h.progress, trivial⟩
      · cases hs
  | enqueue d =>
      obtain rfl := Option.some.inj hs
      obtain ⟨hkeeps, hbase, hnext⟩ := enqueueDatagram_keeps d s.ch
      exact h.keeps hkeeps (h.window.congr hbase hnext hkeeps.flight)
  | receive value =>
      obtain rfl := Option.some.inj hs
      have hr := receiveFragment_received s.clock value s.ch
      have hanchor : (receiveFragment s.clock value s.ch).state.lastProgressAt =
          s.ch.state.lastProgressAt ∨
          (receiveFragment s.clock value s.ch).state.lastProgressAt = s.clock := by
        by_cases hsame : (receiveFragment s.clock value s.ch).state.sendBase = s.ch.state.sendBase
        · exact Or.inl (hr.same hsame).2
        · exact Or.inr (hr.moved hsame)
      have hprogress := h.progress
      refine h.congr (hr.window h.window) ?_ ?_ hr.idle
      · rcases hanchor with heq | heq
        · exact heq.trans_le hprogress
        · exact heq.le
      · rcases hanchor with heq | heq
        · exact heq.ge
        · exact hprogress.trans heq.ge
  | setChunkSize n =>
      change (if 4 ≤ n then _ else none) = _ at hs
      split at hs
      · obtain rfl := Option.some.inj hs
        exact h.keeps ⟨rfl, rfl, rfl⟩ (h.window.congr rfl rfl rfl)
      · cases hs
  | markDead =>
      obtain rfl := Option.some.inj hs
      exact h.keeps ⟨rfl, rfl, rfl⟩ (h.window.congr rfl rfl rfl)

theorem paced_of_run {h : List (SendLoop × LoopLabel)} {s : SendLoop} (hrun : system.Run h s) :
    s.Paced :=
  hrun.invariant_all paced_init paced_step

/-! ## While nothing is received -/

/-- The clock at each program counter of a loop that should have returned by `T`, had it nothing
left to send. -/
def LateAt (T : ℕ) (s : SendLoop) : Prop :=
  match s.pc with
  | .top | .inspect | .givingUp => s.clock ≤ T + overrun s.ch
  | .sending started => started + frameTime ≤ T + overrun s.ch
  | .gap wakeAt => wakeAt ≤ T + overrun s.ch
  | .waitHead _ _ | .resend => s.clock ≤ T
  | .resending started => started ≤ T
  | .waitIdle _ => False
  | .returned _ => True

/-- Something is in flight, its deadline comes by `T`, and the loop is at most the sends that are
still left behind it. -/
structure Late (T : ℕ) (s : SendLoop) : Prop where
  busy : s.ch.state.inFlight ≠ []
  deadline : s.deadAt ≤ T
  late : s.LateAt T

variable {T : ℕ}

/-- What is enqueued or marked meanwhile does not delay it. -/
theorem Late.keeps {s : SendLoop} (h : Late T s) {ch : ReliableChannel} (hk : Keeps s.ch ch) :
    Late T { s with ch := ch } := by
  obtain ⟨ch₀, clock, pc, timeout, tracked, tried⟩ := s
  refine ⟨?_, ?_, ?_⟩
  · change ch.state.inFlight ≠ []
    rw [hk.flight]
    exact h.busy
  · have hdeadline := h.deadline
    unfold deadAt at hdeadline ⊢
    rw [show ch.state.lastProgressAt = _ from hk.anchor]
    exact hdeadline
  · have hover : overrun ch = overrun ch₀ := by
      unfold overrun
      rw [sendsLeft_congr hk.flight hk.ack]
    have hlate := h.late
    unfold LateAt at hlate ⊢
    rw [hover]
    exact hlate

/-- A send was counted, and does not make the loop later. -/
theorem Late.runTop {s : SendLoop} (h : Late T s) (hw : Window s.ch) (hpc : s.pc = .top) :
    Late T s.runTop := by
  have hclock : s.clock ≤ T + overrun s.ch := by
    have hlate := h.late
    unfold LateAt at hlate
    rw [hpc] at hlate
    exact hlate
  have hdeadline := h.deadline
  unfold deadAt at hdeadline
  obtain ⟨hsends, -⟩ := nextSendAction_sends hw s.clock
  unfold SendLoop.runTop
  dsimp only
  generalize nextSendAction s.clock s.ch = r at hsends
  cases hsends with
  | @quiet ch' a hno hflight hack hanchor =>
      have hbusy : ch'.state.inFlight ≠ [] := by
        rw [hflight]
        exact h.busy
      have hover : overrun ch' = overrun s.ch := by
        unfold overrun
        rw [sendsLeft_congr hflight hack]
      cases a with
      | send msg => exact absurd rfl (hno msg)
      | dead => exact ⟨hbusy, by unfold deadAt; rw [hanchor]; exact hdeadline, trivial⟩
      | wait =>
          refine ⟨hbusy, by unfold deadAt; rw [hanchor]; exact hdeadline, ?_⟩
          change s.clock ≤ T + overrun ch'
          rw [hover]
          exact hclock
  | @sends ch' msg hfewer hbusy hanchor =>
      obtain ⟨hbusy', hsame⟩ := hbusy h.busy
      refine ⟨hbusy', by unfold deadAt; rw [hsame]; exact hdeadline, ?_⟩
      have hcost := overrun_send hfewer (sendsLeft_le h.busy)
      change s.clock + frameTime ≤ T + overrun ch'
      omega

/-- The look at the head finds the deadline, or sets a timer that is not later. -/
theorem Late.runInspect {s : SendLoop} (h : Late T s) (hpc : s.pc = .inspect) :
    Late T s.runInspect := by
  have hclock : s.clock ≤ T + overrun s.ch := by
    have hlate := h.late
    unfold LateAt at hlate
    rw [hpc] at hlate
    exact hlate
  have hbusy := h.busy
  have hdeadline := h.deadline
  unfold deadAt at hdeadline
  unfold SendLoop.runInspect
  dsimp only
  rw [if_neg (by simpa using hbusy)]
  split
  · exact ⟨hbusy, hdeadline, hclock⟩
  · refine ⟨hbusy, hdeadline, ?_⟩
    change s.clock ≤ T
    omega

/-- A resend is followed by another look. -/
theorem Late.runResend {s : SendLoop} (h : Late T s) (hpc : s.pc = .resend) :
    Late T s.runResend := by
  have hclock : s.clock ≤ T := by
    have hlate := h.late
    unfold LateAt at hlate
    rw [hpc] at hlate
    exact hlate
  obtain ⟨front, rest, hin⟩ := List.exists_cons_of_ne_nil h.busy
  unfold SendLoop.runResend resendFront
  rw [hin]
  refine ⟨?_, h.deadline, hclock⟩
  change s.ch.state.inFlight ≠ []
  exact h.busy

/-- The loop returns, or is no later than before. -/
theorem Late.runLoop {s s' : SendLoop} (h : Late T s) (hp : s.Paced) (hs : s.runLoop = some s') :
    Late T s' := by
  have hbusy := h.busy
  have hdeadline := h.deadline
  have hlate := h.late
  have htimely := hp.timely
  unfold LateAt at hlate
  unfold Timely at htimely
  unfold SendLoop.runLoop at hs
  split at hs <;> rename_i hpc <;> rw [hpc] at hlate htimely
  · exact Option.some.inj hs ▸ h.runTop hp.window hpc
  · exact Option.some.inj hs ▸ h.runInspect hpc
  · obtain rfl := Option.some.inj hs
    exact ⟨hbusy, hdeadline, trivial⟩
  · exact Option.some.inj hs ▸ h.runResend hpc
  · split at hs
    · obtain rfl := Option.some.inj hs
      exact ⟨hbusy, hdeadline, htimely.1.trans hlate⟩
    · cases hs
  · -- whatever ends the wait ends it before the deadline
    split at hs
    · obtain rfl := Option.some.inj hs
      exact ⟨hbusy, hdeadline, Nat.le_add_right_of_le hlate⟩
    · split at hs
      · obtain rfl := Option.some.inj hs
        split
        · exact ⟨hbusy, hdeadline, Nat.le_add_right_of_le hlate⟩
        · exact ⟨hbusy, hdeadline, hlate⟩
      · cases hs
  · exact hlate.elim
  · cases hs
  · cases hs
  · cases hs

/-- Time passes up to `T` at most. -/
theorem Late.advance {s : SendLoop} (h : Late T s) (hp : s.Paced) {t : ℕ}
    (hmay : s.mayWait t = true) : Late T { s with clock := t } := by
  obtain ⟨ch, clock, pc, timeout, tracked, tried⟩ := s
  refine ⟨h.busy, h.deadline, ?_⟩
  have hlate := h.late
  have htimely := hp.timely
  have hdeadline := h.deadline
  unfold mayWait at hmay
  unfold LateAt at hlate ⊢
  unfold Timely at htimely
  cases pc with
  | waitHead r u =>
      have hle : t ≤ u := by simp at hmay; exact hmay.2
      exact hle.trans (htimely.trans hdeadline)
  | top | inspect | givingUp | resend => cases hmay
  | _ => exact hlate

/-- A send that completes is one that was counted. -/
theorem Late.sent {s s' : SendLoop} (h : Late T s) (hp : s.Paced)
    (hs : system.step .sent s = some s') : Late T s' := by
  have hbusy := h.busy
  have hdeadline := h.deadline
  have hlate := h.late
  have htimely := hp.timely
  have hframe := frameTime_le_overrun hbusy
  unfold LateAt at hlate
  unfold Timely at htimely
  simp only [system, step] at hs
  split at hs
  · rename_i started hpc
    rw [hpc] at hlate htimely
    obtain rfl := Option.some.inj hs
    refine ⟨hbusy, hdeadline, ?_⟩
    change s.clock + interFrameGap ≤ T + overrun s.ch
    unfold frameTime at hlate
    omega
  · rename_i started hpc
    rw [hpc] at hlate htimely
    obtain rfl := Option.some.inj hs
    refine ⟨hbusy, hdeadline, ?_⟩
    change s.clock ≤ T + overrun s.ch
    unfold frameTime at hframe
    omega
  · cases hs

/-- Nothing is received. -/
def Silent (_ : SendLoop) (l : LoopLabel) : Prop := ∀ value, l ≠ .receive value

/-- Every silent step keeps the bound. -/
theorem Late.step {s s' : SendLoop} {l : LoopLabel} (h : Late T s) (hp : s.Paced)
    (hl : Silent s l) (hs : system.step l s = some s') : Late T s' := by
  cases l with
  | advance t =>
      change (if s.clock ≤ t ∧ s.mayWait t = true then _ else none) = _ at hs
      split at hs
      · rename_i hmay
        obtain rfl := Option.some.inj hs
        exact h.advance hp hmay.2
      · cases hs
  | loop => exact h.runLoop hp hs
  | sent => exact h.sent hp hs
  | enqueue d =>
      obtain rfl := Option.some.inj hs
      exact h.keeps (enqueueDatagram_keeps d s.ch).1
  | receive value => exact absurd rfl (hl value)
  | setChunkSize n =>
      change (if 4 ≤ n then _ else none) = _ at hs
      split at hs
      · obtain rfl := Option.some.inj hs
        exact h.keeps ⟨rfl, rfl, rfl⟩
      · cases hs
  | markDead =>
      obtain rfl := Option.some.inj hs
      exact h.keeps ⟨rfl, rfl, rfl⟩

/-- Where the silence begins. -/
theorem Paced.late {s : SendLoop} (h : s.Paced) (hbusy : s.ch.state.inFlight ≠ []) :
    Late (max s.deadAt s.clock) s := by
  have hframe := frameTime_le_overrun hbusy
  have hclock : s.clock ≤ max s.deadAt s.clock := le_max_right _ _
  have htimely := h.timely
  refine ⟨hbusy, le_max_left _ _, ?_⟩
  unfold Timely at htimely
  unfold LateAt
  unfold frameTime at hframe ⊢
  split <;> rename_i hpc <;> rw [hpc] at htimely <;> dsimp only at htimely
  · omega
  · omega
  · omega
  · omega
  · omega
  · exact hclock
  · exact hclock
  · omega
  · exact absurd htimely hbusy
  · trivial

/-- While the loop has not returned, the clock is within the overrun. -/
theorem Late.clock_le {s : SendLoop} (h : Late T s) (hp : s.Paced)
    (hreturned : ∀ cause, s.pc ≠ .returned cause) : s.clock ≤ T + 7 * frameTime := by
  have hover := overrun_le s.ch
  have hlate := h.late
  have htimely := hp.timely
  unfold LateAt at hlate
  unfold Timely at htimely
  unfold frameTime at *
  split at hlate <;> rename_i hpc <;> rw [hpc] at htimely <;> dsimp only at htimely
  · omega
  · omega
  · omega
  · omega
  · omega
  · omega
  · omega
  · omega
  · exact hlate.elim
  · exact absurd hpc (hreturned _)

end SendLoop

end IrohBle.Reliable
