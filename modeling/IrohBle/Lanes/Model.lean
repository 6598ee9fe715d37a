import IrohBle.Node.Model

/-! # Lanes.Model: the registry's actor and the driver's device lanes

The driver of `transport/driver.rs` queues the native work of a device (connect, disconnect,
refresh, the VERSION read and the L2CAP open) on a lane of its own, where a worker runs one
job at a time in dispatch order.

* A lane has a watched `lifecycle`, set and cleared as soon as an action is executed, and a
  `nativeOwner`, which changes in the order of the queue.
* `recv` is the worker's turn up to the await of the work; `finish` and `cancel` end the
  work. A call of the interface may take any time, so `finish` comes at any later point,
  with any outcome; a report to the inbox needs a free slot.
* Everybody else that sends to the inbox is a producer, as in `Actor`.
-/

namespace IrohBle

open Lib Reliable Registry

/-- What abandoning a device does to a job on its lane. -/
inductive Cancellation where
  /-- Cleanup survives retirement. -/
  | never
  /-- Skipped while still queued; once started it runs to completion. -/
  | whileQueued
  /-- Unwound as soon as the device is abandoned. -/
  | immediate
deriving DecidableEq, Repr

/-- The work of a job, by the action that dispatches it. -/
inductive LaneWork where
  | connect
  | readVersion
  | closeChannel
  | closeNativeConnection
  | refresh
  | openL2cap (upgradeGen : ℕ)
deriving DecidableEq, Repr

/-- A disconnect or a refresh. -/
def LaneWork.isCleanup : LaneWork → Bool
  | .closeChannel | .closeNativeConnection | .refresh => true
  | _ => false

/-- A piece of native work, with the lifecycle it was ordered for and whether it stops with it. -/
structure LaneTask where
  lifecycleId : ℕ
  cancellation : Cancellation
  work : LaneWork
deriving DecidableEq, Repr

/-- What a lane's queue holds: the owner of the native connection changes in order with the work.
-/
inductive LaneJob where
  | activate (lifecycleId : ℕ)
  | work (task : LaneTask)
deriving DecidableEq, Repr

/-- `DeviceLane`, with the state of its worker. -/
structure DeviceLane where
  jobs : List LaneJob
  nativeOwner : Option ℕ
  running : Option LaneTask
  lifecycle : Option ℕ
  /-- Jobs queued or running, as the driver counts them. -/
  outstanding : ℕ
deriving DecidableEq

namespace DeviceLane

/-- A lane with nothing to do. -/
def new : DeviceLane := ⟨[], none, none, none, 0⟩

/-- Count a job and send it to the worker. -/
def send (job : LaneJob) (lane : DeviceLane) : DeviceLane :=
  { lane with jobs := lane.jobs ++ [job], outstanding := lane.outstanding + 1 }

/-- The guard of a job is dropped. -/
def done (lane : DeviceLane) : DeviceLane := { lane with outstanding := lane.outstanding - 1 }

/-- The worker takes the next job: `run_lane` up to the await of the work. -/
def recv (lane : DeviceLane) : Option DeviceLane :=
  match lane.running, lane.jobs with
  | none, .activate lifecycleId :: jobs =>
    some { lane with jobs, nativeOwner := some lifecycleId }.done
  | none, .work task :: jobs =>
    if lane.nativeOwner ≠ some task.lifecycleId then
      -- work for a replaced native lifecycle
      some { lane with jobs }.done
    else if task.cancellation ≠ .never ∧ lane.lifecycle ≠ some task.lifecycleId then
      -- queued work for a retired lifecycle
      some { lane with jobs }.done
    else some { lane with jobs, running := some task }
  | _, _ => none

/-- The work has ended. -/
def finish (lane : DeviceLane) : Option (LaneTask × DeviceLane) :=
  lane.running.map fun task => (task, { lane with running := none }.done)

/-- The work is unwound because its lifecycle is not the watched one any more. -/
def cancel (lane : DeviceLane) : Option DeviceLane :=
  match lane.running with
  | some task =>
    if task.cancellation = .immediate ∧ lane.lifecycle ≠ some task.lifecycleId then
      some { lane with running := none }.done
    else none
  | none => none

end DeviceLane

/-! ## The driver -/

/-- The lanes of the driver, by device. -/
abbrev Lanes := Map DeviceId DeviceLane

namespace Lanes

/-- Make `lifecycleId` the active one of a device. Lanes with nothing to do are dropped. -/
def activate (d : DeviceId) (lifecycleId : ℕ) (lanes : Lanes) : Lanes :=
  let lanes : Lanes := lanes.retain fun id lane =>
    decide (id = d) || lane.lifecycle.isSome || decide (lane.outstanding > 0)
  let lane := (lanes.lookup d).getD .new
  lanes.insert d ({ lane with lifecycle := some lifecycleId }.send (.activate lifecycleId))

/-- The lifecycle is over, unless a newer one is running. What was queued for it will be skipped.
-/
def retire (d : DeviceId) (lifecycleId : ℕ) (lanes : Lanes) : Lanes :=
  match lanes.lookup d with
  | some lane =>
    if lane.lifecycle = some lifecycleId then lanes.insert d { lane with lifecycle := none }
    else lanes
  | none => lanes

/-- Queues work for a device that has a lane. -/
def dispatch (d : DeviceId) (lifecycleId : ℕ) (cancellation : Cancellation) (work : LaneWork)
    (lanes : Lanes) : Lanes :=
  match lanes.lookup d with
  -- the device has no lane, and the job is dropped
  | none => lanes
  | some lane => lanes.insert d (lane.send (.work ⟨lifecycleId, cancellation, work⟩))

/-- `Driver::execute`, as far as it concerns the lanes. -/
def execute (a : PeerAction) (lanes : Lanes) : Lanes :=
  match a with
  | .startConnect d _ l => dispatch d l .whileQueued .connect (activate d l lanes)
  | .readVersion d l => dispatch d l .immediate .readVersion lanes
  | .retireLifecycle d l => retire d l lanes
  | .closeChannel d l _ _ => dispatch d l .never .closeChannel lanes
  | .closeNativeConnection d l => dispatch d l .never .closeNativeConnection lanes
  | .refresh d l => dispatch d l .never .refresh lanes
  -- the actor starts the pipe itself; the lane only gets its owner
  | .startDataPipe d l _ _ _ _ _ => activate d l lanes
  | .upgradeToL2cap d l u => dispatch d l .immediate (.openL2cap u) lanes
  -- actions that run outside the lanes
  | .ackSend .. | .restorePeripheral _ | .restartScan | .swapPipeToL2cap .. | .putPeerStore ..
  | .forgetPeerStore _ | .emitMetric _ => lanes

end Lanes

/-! ## What the work reports -/

/-- The version this side speaks. -/
def protocolVersion : UInt8 := 1

/-- The pauses before the attempts to read the PSM. -/
def readPsmBackoffsMs : List ℕ := [0, 150, 400]

/-- `read_psm_with_retry`: `read` gives the outcomes of the attempts. -/
def readPsmWithRetry (read : ℕ → Except String (Option ℕ)) : Except String ℕ :=
  go (List.range readPsmBackoffsMs.length) none
where
  go : List ℕ → Option String → Except String ℕ
    | [], lastErr => .error ("read_psm: " ++ lastErr.getD "unknown")
    -- only an error is worth another attempt
    | i :: rest, _ =>
      match read i with
      | .ok (some psm) => .ok psm
      | .ok none => .error "no psm advertised"
      | .error e => go rest (some e)

/-- What the interface answers to a job. -/
inductive Outcome where
  | connect (result : Except String ChannelHandle)
  /-- `none`: the read has timed out. -/
  | readVersion (result : Option (Except String (Option UInt8)))
  /-- A disconnect or a refresh is over, or has timed out. -/
  | cleanup
  | openL2cap (read : ℕ → Except String (Option ℕ)) (opened : ℕ → Except String L2capChannel)
  /-- `L2CAP_SELECT_TIMEOUT` has elapsed. -/
  | l2capElapsed

/-- The command a job sends to the inbox when it ends with an outcome, if any; `none` where
the outcome is not one of this work. -/
def LaneTask.report (d : DeviceId) (task : LaneTask) (outcome : Outcome) :
    Option (Option PeerCommand) :=
  match task.work, outcome with
  | .connect, .connect (.ok channel) => some (some (.connectSucceeded d task.lifecycleId channel))
  | .connect, .connect (.error error) => some (some (.connectFailed d task.lifecycleId error))
  -- a peer that speaks another version is reported; a read that failed is not
  | .readVersion, .readVersion (some (.ok (some got))) =>
    if got ≠ protocolVersion then
      some (some (.protocolVersionMismatch d task.lifecycleId got protocolVersion))
    else some none
  | .readVersion, .readVersion _ => some none
  | .closeChannel, .cleanup | .closeNativeConnection, .cleanup | .refresh, .cleanup => some none
  | .openL2cap u, .openL2cap read opened =>
    match (readPsmWithRetry read).bind opened with
    | .ok channel => some (some (.openL2capSucceeded d task.lifecycleId u channel))
    | .error error => some (some (.openL2capFailed d task.lifecycleId u error))
  -- `tokio::time::timeout` around the whole job
  | .openL2cap u, .l2capElapsed =>
    some (some (.openL2capFailed d task.lifecycleId u "l2cap select timeout"))
  | _, _ => none

/-! ## The actor with its lanes -/

/-- The actor, and the lanes its actions work on. -/
structure Driven where
  actor : Actor
  lanes : Lanes

/-- The actor and the workers move in any order. -/
inductive DrivenLabel where
  | actor (l : ActorLabel)
  | recv (d : DeviceId)
  | finish (d : DeviceId) (outcome : Outcome)
  | cancel (d : DeviceId)

namespace Driven

/-- The actions still to be executed. -/
def todo (s : Driven) : List PeerAction := s.actor.loop.todo

/-- What a step of the actor does to the lanes: an executed action goes to the driver. -/
def afterActor (l : ActorLabel) (s : Driven) : Lanes :=
  match l, s.todo with
  | .execute, a :: _ => s.lanes.execute a
  | _, _ => s.lanes

/-- The work of a lane ends, and what it has to report goes into the inbox. -/
def finish (d : DeviceId) (outcome : Outcome) (s : Driven) : Option Driven :=
  match (s.lanes.lookup d).bind DeviceLane.finish with
  | none => none
  | some (task, lane) =>
    match task.report d outcome with
    | none => none
    | some none => some { s with lanes := s.lanes.insert d lane }
    | some (some cmd) => (Actor.step (.produce { cmd }) s.actor).map fun actor =>
        { actor, lanes := s.lanes.insert d lane }

/-- What the actor executes changes the lanes at once; a worker takes, finishes or cancels its
job. -/
def step : DrivenLabel → Driven → Option Driven
  | .actor l, s => (Actor.step l s.actor).map fun actor => { actor, lanes := s.afterActor l }
  | .recv d, s => ((s.lanes.lookup d).bind DeviceLane.recv).map fun lane =>
      { s with lanes := s.lanes.insert d lane }
  | .finish d outcome, s => s.finish d outcome
  | .cancel d, s => ((s.lanes.lookup d).bind DeviceLane.cancel).map fun lane =>
      { s with lanes := s.lanes.insert d lane }

/-- No device has a lane. -/
def system : System Driven DrivenLabel where
  Init s := ∃ policy endpoint, s = ⟨.new policy endpoint, ∅⟩
  step := step

/-- No `Shutdown` is handled. -/
def NoShutdown (s : Driven) (l : DrivenLabel) : Prop :=
  match l with
  | .actor (.pop ..) => ∀ letter ∈ s.actor.inbox.head?, letter.cmd ≠ .shutdown
  | _ => True

/-! ## What has been issued and executed -/

/-- The actions that the registry emits in a step. -/
def emits (x : Driven × DrivenLabel) : List PeerAction :=
  match x.2, x.1.actor.inbox with
  | .actor (.pop io exact replaced), letter :: _ =>
    (x.1.actor.reg.runCommand io exact replaced letter.cmd).actions
  | _, _ => []

/-- The action that the driver executes in a step. -/
def executes (x : Driven × DrivenLabel) : List PeerAction :=
  match x.2 with
  | .actor .execute => x.1.todo.take 1
  | _ => []

/-- What the registry has ordered in a run. -/
def issued (h : List (Driven × DrivenLabel)) : List PeerAction := h.flatMap emits

/-- What the actor has executed of it. -/
def executed (h : List (Driven × DrivenLabel)) : List PeerAction := h.flatMap executes

end Driven

end IrohBle
