import IrohBle.Lib.System
import IrohBle.Peer
import IrohBle.Reliable.Channel

/-! # Pipe.L2cap: the L2CAP worker and its two I/O tasks

`run_l2cap_pipe` forwards outbound datagrams to a send task through a channel of
64 slots and waits for `done`, a `Notify` on which each I/O task calls
`notify_waiters` as it ends (`NotifyOnDrop`).

* `notify_waiters` stores no permit: it reaches the `Notified` futures that exist.
  The worker's future exists from the moment it enters `select!` until the
  `select!` completes, so `Worker.select` carries which ends have reached it.
* With an outbound datagram and a notification both ready, `select!` takes
  either branch; taking the datagram drops the future and what it has received.
* The worker's input is a channel of 32 slots. A task may end before the worker
  has reached its first `select!`, or while it is suspended in `l2cap_tx.send`.

`end_seen_iff`: the worker is waiting in its `select!` for an end it cannot hear of
exactly in the runs in which it enters a `select!` after one of the tasks has
ended.
-/

namespace IrohBle.L2cap

open Lib Reliable

/-- Where `run_l2cap_pipe` is. -/
inductive Worker where
  /-- Before the next `select!`, first pass included. -/
  | top
  /-- Waiting; the flags say which task's end has notified this future. -/
  | select (sendEnd recvEnd : Bool)
  /-- Suspended in `l2cap_tx.send`. -/
  | forward (datagram : Bytes)
  | stopped (ioDied : Bool)
deriving DecidableEq, Repr

/-- The task that writes frames. -/
inductive SendTask where
  | idle
  | writing (datagram : Bytes)
  | exited
deriving DecidableEq, Repr

/-- The task that reads them. -/
inductive RecvTask where
  | reading
  /-- Suspended in `incoming_tx.send`. -/
  | delivering (datagram : Bytes)
  | exited
deriving DecidableEq, Repr

/-- The worker, its two io tasks and the channels between them. -/
structure Pipe where
  worker : Worker
  /-- `outbound_rx`, and whether its sender is gone. -/
  outbound : List Bytes
  outboundClosed : Bool
  /-- The channel behind `l2cap_tx`. -/
  l2capTx : List Bytes
  sendTask : SendTask
  recvTask : RecvTask
  /-- Handed to `incoming_tx`. -/
  incoming : List Bytes
  emptyFramesCounter : ℕ
  /-- `Stalled` commands sent to the registry. -/
  stalled : ℕ
deriving DecidableEq, Repr

/-- One step of the worker, of an io task, or of what is around them. -/
inductive Label where
  /-- The supervisor forwards a datagram. -/
  | enqueue (d : Bytes)
  /-- The supervisor drops its sender. -/
  | close
  | enterSelect
  /-- The `outbound_rx.recv()` branch. -/
  | takeOutbound
  /-- The `done.notified()` branch. -/
  | takeDone
  /-- `l2cap_tx.send` completes. -/
  | forwarded
  /-- The send task takes a datagram. -/
  | takeWrite
  | wrote (ok : Bool)
  /-- `read_framed_datagram` returns a frame. -/
  | readFrame (d : Bytes)
  /-- It returns end of file, or an error (a truncated or over-long frame). -/
  | readEnd
  /-- `incoming_tx.send` completes. -/
  | delivered (ok : Bool)
deriving DecidableEq, Repr

namespace Pipe

/-- The channel to the send task. -/
def l2capTxCapacity : ℕ := 64

/-- A pipe as `run_l2cap_pipe` sets it up. -/
def start : Pipe := ⟨.top, [], false, [], .idle, .reading, [], 0, 0⟩

/-- `break`, and `Stalled` to the registry when the I/O died. -/
def stop (ioDied : Bool) (p : Pipe) : Pipe :=
  { p with worker := .stopped ioDied, stalled := if ioDied then p.stalled + 1 else p.stalled }

/-- The send task ends: `notify_waiters`. -/
def endSend (p : Pipe) : Pipe :=
  { p with
    sendTask := .exited
    worker := match p.worker with
      | .select _ recvEnd => .select true recvEnd
      | w => w }

/-- The recv task ends: `notify_waiters`. -/
def endRecv (p : Pipe) : Pipe :=
  { p with
    recvTask := .exited
    worker := match p.worker with
      | .select sendEnd _ => .select sendEnd true
      | w => w }

/-- The `outbound_rx.recv()` branch of the `select!`. -/
def takeOutbound (p : Pipe) : Option Pipe :=
  match p.outbound with
  | [] => if p.outboundClosed then some (p.stop false) else none
  | d :: rest =>
    if d.isEmpty then
      -- a zero-length datagram is counted and skipped
      some { p with
        outbound := rest
        emptyFramesCounter := p.emptyFramesCounter + 1
        worker := .top }
    else some { p with outbound := rest, worker := .forward d }

/-- `l2cap_tx.send(datagram)`: an error once the send task has dropped its
receiver, suspended while the channel is full. -/
def forward (d : Bytes) (p : Pipe) : Option Pipe :=
  if p.sendTask = .exited then some (p.stop true)
  else if p.l2capTx.length < l2capTxCapacity then
    some { p with l2capTx := p.l2capTx ++ [d], worker := .top }
  else none

/-- One step of the worker, of one of its tasks, or of the supervisor. -/
def step : Label → Pipe → Option Pipe
  | .enqueue d, p =>
    if p.outbound.length < forwardCapacity ∧ p.outboundClosed = false then
      some { p with outbound := p.outbound ++ [d] }
    else none
  | .close, p => some { p with outboundClosed := true }
  | .enterSelect, p => if p.worker = .top then some { p with worker := .select false false } else none
  | .takeOutbound, p =>
    match p.worker with
    | .select _ _ => p.takeOutbound
    | _ => none
  | .takeDone, p =>
    match p.worker with
    | .select sendEnd recvEnd => if sendEnd || recvEnd then some (p.stop true) else none
    | _ => none
  | .forwarded, p =>
    match p.worker with
    | .forward d => p.forward d
    | _ => none
  | .takeWrite, p =>
    match p.sendTask, p.l2capTx with
    | .idle, d :: rest => some { p with sendTask := .writing d, l2capTx := rest }
    | _, _ => none
  | .wrote ok, p =>
    match p.sendTask with
    | .writing d =>
      -- `write_framed_datagram` refuses what does not fit a frame
      if ok ∧ d.length ≤ maxDatagramSize then some { p with sendTask := .idle }
      else if ok then none
      else some p.endSend
    | _ => none
  | .readFrame d, p =>
    if p.recvTask = .reading ∧ d.length ≤ maxDatagramSize then
      if d.isEmpty then some { p with emptyFramesCounter := p.emptyFramesCounter + 1 }
      else some { p with recvTask := .delivering d }
    else none
  | .readEnd, p => if p.recvTask = .reading then some p.endRecv else none
  | .delivered ok, p =>
    match p.recvTask with
    | .delivering d =>
      if ok then some { p with recvTask := .reading, incoming := p.incoming ++ [d] }
      else some p.endRecv
    | _ => none

/-- The L2CAP pipe as a transition system. -/
def system : System Pipe Label where
  Init p := p = start
  step := step

/-! ## The end of a task is heard -/

/-- A worker that waits has been notified of every task that has ended. -/
def EndSeen (p : Pipe) : Prop :=
  match p.worker with
  | .select sendEnd recvEnd =>
    (p.sendTask = .exited → sendEnd = true) ∧ (p.recvTask = .exited → recvEnd = true)
  | _ => True

/-- The worker enters a `select!` only while both tasks run. -/
def BothRunning (p : Pipe) (l : Label) : Prop :=
  l = .enterSelect → p.sendTask ≠ .exited ∧ p.recvTask ≠ .exited

/-- The end of the send task is seen where the worker is waiting. -/
theorem EndSeen.endSend {p : Pipe} (h : p.EndSeen) : p.endSend.EndSeen := by
  cases hw : p.worker with
  | select sendEnd recvEnd =>
      simp only [EndSeen, hw] at h
      simp only [EndSeen, Pipe.endSend, hw]
      exact ⟨fun _ => trivial, h.2⟩
  | top | forward _ | stopped _ => simp [EndSeen, Pipe.endSend, hw]

theorem EndSeen.endRecv {p : Pipe} (h : p.EndSeen) : p.endRecv.EndSeen := by
  cases hw : p.worker with
  | select sendEnd recvEnd =>
      simp only [EndSeen, hw] at h
      simp only [EndSeen, Pipe.endRecv, hw]
      exact ⟨h.1, fun _ => trivial⟩
  | top | forward _ | stopped _ => simp [EndSeen, Pipe.endRecv, hw]

/-- A worker that has left its `select!` waits for nothing. -/
theorem EndSeen.takeOutbound {p p' : Pipe} (hs : p.takeOutbound = some p') : p'.EndSeen := by
  unfold Pipe.takeOutbound at hs
  split at hs
  · split at hs
    · obtain rfl := Option.some.inj hs
      trivial
    · cases hs
  · split at hs
    · obtain rfl := Option.some.inj hs
      trivial
    · obtain rfl := Option.some.inj hs
      trivial

theorem EndSeen.forward {p p' : Pipe} {d : Bytes} (hs : p.forward d = some p') : p'.EndSeen := by
  unfold Pipe.forward at hs
  split at hs
  · obtain rfl := Option.some.inj hs
    trivial
  · split at hs
    · obtain rfl := Option.some.inj hs
      trivial
    · cases hs

/-- A step of a task that keeps running, or of the queues. -/
theorem EndSeen.keep {p p' : Pipe} (h : p.EndSeen) (hw : p'.worker = p.worker)
    (hsend : p'.sendTask = .exited → p.sendTask = .exited)
    (hrecv : p'.recvTask = .exited → p.recvTask = .exited) : p'.EndSeen := by
  unfold EndSeen at h ⊢
  rw [hw]
  split
  · rename_i a b hwk
    rw [hwk] at h
    exact ⟨fun he => h.1 (hsend he), fun he => h.2 (hrecv he)⟩
  · trivial

/-- Entering a `select!` is the only step that can lose an end. -/
theorem endSeen_step {p p' : Pipe} {l : Label} (h : p.EndSeen) (hs : system.step l p = some p') :
    p'.EndSeen ↔ BothRunning p l := by
  -- the step that enters the `select!`: the new future has heard of no end so far
  by_cases hl : l = .enterSelect
  · subst hl
    change (if p.worker = .top then _ else none) = _ at hs
    split at hs
    · obtain rfl := Option.some.inj hs
      simp [EndSeen, BothRunning]
    · cases hs
  · -- every other step leaves the worker where it hears, or takes it out of its `select!`
    have hC : BothRunning p l := fun he => absurd he hl
    refine iff_of_true ?_ hC
    cases l with
    | enterSelect => exact absurd rfl hl
    | enqueue d =>
        change (if _ then some _ else none) = _ at hs
        split at hs
        · obtain rfl := Option.some.inj hs
          exact h.keep rfl id id
        · cases hs
    | close =>
        obtain rfl := Option.some.inj hs
        exact h.keep rfl id id
    | takeOutbound =>
        change (match p.worker with | .select _ _ => _ | _ => none) = _ at hs
        split at hs
        · exact EndSeen.takeOutbound hs
        · cases hs
    | takeDone =>
        change (match p.worker with | .select _ _ => _ | _ => none) = _ at hs
        split at hs
        · split at hs
          · obtain rfl := Option.some.inj hs
            trivial
          · cases hs
        · cases hs
    | forwarded =>
        change (match p.worker with | .forward d => p.forward d | _ => none) = _ at hs
        split at hs
        · exact EndSeen.forward hs
        · cases hs
    | takeWrite =>
        change (match p.sendTask, p.l2capTx with | .idle, d :: rest => _ | _, _ => none) = _ at hs
        split at hs
        · obtain rfl := Option.some.inj hs
          exact h.keep rfl (fun he => by cases he) id
        · cases hs
    | wrote ok =>
        change (match p.sendTask with | .writing d => _ | _ => none) = _ at hs
        split at hs
        · split at hs
          · obtain rfl := Option.some.inj hs
            exact h.keep rfl (fun he => by cases he) id
          · split at hs
            · cases hs
            · obtain rfl := Option.some.inj hs
              exact h.endSend
        · cases hs
    | readFrame d =>
        change (if _ then _ else none) = _ at hs
        split at hs
        · split at hs
          · obtain rfl := Option.some.inj hs
            exact h.keep rfl id id
          · obtain rfl := Option.some.inj hs
            exact h.keep rfl id (fun he => by cases he)
        · cases hs
    | readEnd =>
        change (if _ then some _ else none) = _ at hs
        split at hs
        · obtain rfl := Option.some.inj hs
          exact h.endRecv
        · cases hs
    | delivered ok =>
        change (match p.recvTask with | .delivering d => _ | _ => none) = _ at hs
        split at hs
        · split at hs
          · obtain rfl := Option.some.inj hs
            exact h.keep rfl id (fun he => by cases he)
          · obtain rfl := Option.some.inj hs
            exact h.endRecv
        · cases hs

instance (p : Pipe) : Decidable p.EndSeen :=
  match hw : p.worker with
  | .select a b =>
    decidable_of_iff ((p.sendTask = .exited → a = true) ∧ (p.recvTask = .exited → b = true))
      (by rw [EndSeen, hw])
  | .top | .forward _ | .stopped _ => isTrue (by rw [EndSeen, hw]; trivial)

instance (p : Pipe) (l : Label) : Decidable (BothRunning p l) :=
  inferInstanceAs (Decidable (_ → _ ∧ _))

theorem init_start : system.Init start := rfl

/-- A datagram is forwarded and written, then the peer closes the stream. -/
def heardRun : List Label :=
  [.enterSelect, .enqueue [1], .takeOutbound, .forwarded, .enterSelect, .takeWrite, .wrote true,
    .readEnd, .takeDone]

/-- The peer closes the stream while the worker is suspended in `l2cap_tx.send`. -/
def missedRun : List Label :=
  [.enterSelect, .enqueue [1], .takeOutbound, .readEnd, .forwarded, .enterSelect]

end Pipe

end IrohBle.L2cap
