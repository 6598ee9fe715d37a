import IrohBle.Lib.System
import IrohBle.Reliable.Spec

/-! # Reliable.SendLoop: `run_send_loop` against a clock

The send loop as a program counter with its two locals (`timeout`,
`tracked_progress_at`) beside the channel. Between two of its lock sections any
other task may run, so each of them is one step:

* `top`: the call of `next_send_action`;
* `inspect`: after `Wait`, the second lock section, which reads the head, the
  ACK deadline and `last_progress_at` and arms the timers;
* `givingUp`: the deadline had passed in what it read, and the lock is taken
  again to set `link_dead`; an ACK may be handled in between;
* `waitHead`, `waitIdle`: suspended on `wake.notified()` under a timeout;
* `resend`: the timer fired past `retransmit_at`, the head is about to be read;
* `sending`, `resending`: suspended in `send_fn`; `gap`: the inter-frame sleep.

The clock moves only while the loop is suspended, and never past a timer that is
due: a wake or a timer is served at once, and a `send_fn` returns before
`ackTimeout` has passed. `timeout(d, notified())` polls the notification first, so
a stored permit wins over an expired timer. No time passes in front of the lock: its
one holder that awaits anything is `receive_fragment`, which waits for a slot that only
its own caller empties, and so gets the slot at once or never (`Gatt.Pipe.stuck_step`).

`tried` is a history variable: the head of `in_flight` has been retransmitted
since `last_progress_at` was last written.
-/

namespace IrohBle.Reliable

open ReliableChannel Lib

/-- Why `run_send_loop` returned `Err(LinkDead)`. -/
inductive Cause where
  /-- `next_send_action` found `link_dead` set. -/
  | dead
  /-- `LINK_DEAD_DEADLINE` passed; the flag is `tried` when `link_dead` is set. -/
  | deadline (tried : Bool)
deriving DecidableEq, Repr

/-- Where the loop is. -/
inductive Pc where
  | top
  | inspect
  | givingUp
  | sending (started : ℕ)
  | gap (wakeAt : ℕ)
  | waitHead (retransmitAt sleepUntil : ℕ)
  | resend
  | resending (started : ℕ)
  | waitIdle (sleepUntil : Option ℕ)
  | returned (cause : Cause)
deriving DecidableEq, Repr

/-- The loop with its locals, its channel and the clock. -/
structure SendLoop where
  ch : ReliableChannel
  clock : ℕ
  pc : Pc
  timeout : ℕ
  trackedProgressAt : Option ℕ
  tried : Bool
deriving DecidableEq, Repr

/-- The steps of the loop and of those around it. -/
inductive LoopLabel where
  /-- The clock moves to `t`. -/
  | advance (t : ℕ)
  /-- The loop runs to its next suspension or lock section. -/
  | loop
  /-- `send_fn` returns, with or without an error. -/
  | sent
  | enqueue (d : Bytes)
  | receive (value : Bytes)
  | setChunkSize (n : ℕ)
  | markDead
deriving DecidableEq, Repr

namespace SendLoop

/-- The clock may move to `t`: the loop is suspended and none of its timers is
due before `t`. -/
def mayWait (t : ℕ) (s : SendLoop) : Bool :=
  match s.pc with
  | .top | .inspect | .givingUp | .resend => false
  | .sending started | .resending started => t < started + ackTimeout
  | .gap wakeAt => t ≤ wakeAt
  | .waitHead _ sleepUntil => !s.ch.wake && t ≤ sleepUntil
  | .waitIdle sleepUntil => !s.ch.wake && sleepUntil.all (t ≤ ·)
  | .returned _ => true

/-- `timeout = (timeout * 2).min(ACK_TIMEOUT_MAX); continue`. -/
def backoff (s : SendLoop) : SendLoop :=
  { s with timeout := min (s.timeout * 2) ackTimeoutMax, pc := .top }

/-- `next_send_action` and the dispatch on its result. -/
def runTop (s : SendLoop) : SendLoop :=
  let r := nextSendAction s.clock s.ch
  match r.2 with
  | .dead => { s with ch := r.1, pc := .returned .dead }
  | .wait => { s with ch := r.1, pc := .inspect }
  | .send _ =>
    { s with
      ch := r.1
      pc := .sending s.clock
      -- idle → busy writes `last_progress_at`
      tried := if s.ch.state.inFlight.isEmpty && !r.1.state.inFlight.isEmpty then false
        else s.tried }

/-- The `Wait` branch up to its suspension, or up to the second lock section of
the deadline branch. -/
def runInspect (s : SendLoop) : SendLoop :=
  let st := s.ch.state
  -- nothing in flight: wait for a wake, or for the acknowledgement that is due
  if st.inFlight.isEmpty then { s with pc := .waitIdle st.ackDeadline }
  else
    -- progress since the last look resets the backoff
    let timeout :=
      if s.trackedProgressAt.any (· ≠ st.lastProgressAt) then ackTimeout else s.timeout
    let deadAt := st.lastProgressAt + linkDeadDeadline
    let s := { s with timeout := timeout, trackedProgressAt := some st.lastProgressAt }
    -- the lock is given up here and taken again to set `link_dead`
    if deadAt ≤ s.clock then { s with pc := .givingUp }
    else
      let retransmitAt := s.clock + timeout
      -- whichever comes first: the acknowledgement, the retransmission or the deadline
      let sleepUntil := match st.ackDeadline with
        | some dl => min (min dl retransmitAt) deadAt
        | none => min retransmitAt deadAt
      { s with pc := .waitHead retransmitAt sleepUntil }

/-- `state.lock().await.link_dead = true; return Err(LinkDead)`. -/
def declareDead (s : SendLoop) : SendLoop :=
  { s with
    ch := { s.ch with state := { s.ch.state with linkDead := true } }
    pc := .returned (.deadline s.tried) }

/-- The lock section of the retransmission. -/
def runResend (s : SendLoop) : SendLoop :=
  let r := resendFront s.ch
  match r.2 with
  | some _ => { s with ch := r.1, pc := .resending s.clock, tried := true }
  | none => backoff { s with ch := r.1 }

/-- Consume the permit of `notify_one`. -/
def takeWake (s : SendLoop) : SendLoop := { s with ch := { s.ch with wake := false } }

/-- After the idle wait. -/
def leaveIdle (s : SendLoop) : SendLoop :=
  { s with timeout := ackTimeout, trackedProgressAt := none, pc := .top }

/-- The loop goes on from where it is, if it can. -/
def runLoop (s : SendLoop) : Option SendLoop :=
  match s.pc with
  | .top => some s.runTop
  | .inspect => some s.runInspect
  | .givingUp => some s.declareDead
  | .resend => some s.runResend
  | .gap wakeAt => if wakeAt ≤ s.clock then some { s with pc := .top } else none
  | .waitHead retransmitAt sleepUntil =>
    -- `notified()` is polled before the timer
    if s.ch.wake then some { s.takeWake with pc := .top }
    else if sleepUntil ≤ s.clock then
      -- woken by the clock: for a retransmission, or for something that came due before
      some { s with pc := if s.clock < retransmitAt then .top else .resend }
    else none
  | .waitIdle sleepUntil =>
    if s.ch.wake then some s.takeWake.leaveIdle
    else if sleepUntil.any (· ≤ s.clock) then some s.leaveIdle
    else none
  | .sending _ | .resending _ | .returned _ => none

/-- `receive_fragment`; a moved `send_base` is progress, which writes
`last_progress_at`. -/
def receive (value : Bytes) (s : SendLoop) : SendLoop :=
  let ch := receiveFragment s.clock value s.ch
  { s with
    ch := ch
    tried := if ch.state.sendBase = s.ch.state.sendBase then s.tried else false }

/-- One step. -/
def step : LoopLabel → SendLoop → Option SendLoop
  | .advance t, s => if s.clock ≤ t ∧ s.mayWait t then some { s with clock := t } else none
  | .loop, s => s.runLoop
  | .sent, s =>
    match s.pc with
    | .sending _ => some { s with pc := .gap (s.clock + interFrameGap) }
    | .resending _ => some s.backoff
    | _ => none
  | .enqueue d, s => some { s with ch := (enqueueDatagram d s.ch).1 }
  | .receive value, s => some (s.receive value)
  | .setChunkSize n, s => if 4 ≤ n then some { s with ch := s.ch.setChunkSize n } else none
  | .markDead, s => some { s with ch := s.ch.markDead }

/-- The loop starts on a fresh channel, some time after it was made. -/
def start (chunkSize : ℕ) (made now : ℕ) : SendLoop :=
  ⟨ReliableChannel.new chunkSize made, now, .top, ackTimeout, none, false⟩

/-- The send loop as a transition system, from a channel that was made before the loop started. -/
def system : System SendLoop LoopLabel where
  Init s := ∃ (chunkSize : ℕ) (made now : ℕ), 4 ≤ chunkSize ∧ made ≤ now ∧
    s = start chunkSize made now
  step := step

end SendLoop

end IrohBle.Reliable
