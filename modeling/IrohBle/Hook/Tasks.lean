import IrohBle.Conns
import IrohBle.Lib.System

/-! # Hook.Tasks: the dedup hook, its watchers and the event forwarder

`after_handshake` promotes the pipe a handshake ran over and registers the connection; a
watcher per connection reports the last one to go; the forwarder turns these reports into
commands for the registry.

* Each of them is a task that takes one lock or sends one message per step, so a run is any
  interleaving of the tasks, of the pipe exits of the driver and of connections that close.
* A send to the registry's inbox may wait for a slot; here it just happens at some later
  step.
-/

namespace IrohBle

open Lib

/-- What the hook and the watchers tell the forwarder. -/
inductive HookEvent where
  /-- The evicted devices, each with the pipe it was resolved from. -/
  | verifiedEndpoint (endpointId : EndpointId) (token : Option ℕ)
      (evicted : List (StableConnId × DeviceId))
  | connectionClosed (endpointId : EndpointId) (stableId : StableConnId)
deriving DecidableEq

/-- A handshake that `promote` accepted. -/
structure Accepted where
  conn : ConnId
  remote : EndpointId
  pipe : StableConnId
  evicted : List (StableConnId × DeviceId) := []
deriving DecidableEq

/-- A task of the hook, by where it stands: about to take its next lock, send its next message or
close its next connection. -/
inductive Task where
  /-- `after_handshake`, about to read the connection's paths. -/
  | handshake (conn : ConnId)
  | promoting (conn : ConnId) (remote : EndpointId) (pipe : StableConnId)
  | rejecting (conn : ConnId) (remote : EndpointId) (pipe : StableConnId)
  /-- The hook rejected the connection, and iroh closes it. -/
  | refusing (conn : ConnId)
  /-- Looking up the devices of the evicted pipes. -/
  | resolving (a : Accepted) (todo evicted : List StableConnId)
  /-- `close_evicted_pipes`. -/
  | evicting (a : Accepted) (todo : List StableConnId)
  | inserting (a : Accepted)
  | notifying (conn : ConnId) (remote : EndpointId) (token : Option ℕ)
      (evicted : List (StableConnId × DeviceId)) (watch : Option (StableConnId × ℕ))
  /-- The watcher, in `closed().await`. -/
  | watching (conn : ConnId) (remote : EndpointId) (pipe : StableConnId) (watch : ℕ)
  /-- The watcher found the bucket empty. -/
  | reporting (remote : EndpointId) (pipe : StableConnId)
  /-- Closing the connections that `close_pipe` or `insert` collected. -/
  | closing (handles : List ConnId) (pipe : StableConnId) (next : Task)
  /-- The pipe task after `run_data_pipe` returned: about to call `evict_pipe_state`, then
  `close_pipe`, then `evict_pipe`. -/
  | exiting (pipe : StableConnId)
  | leaving (pipe : StableConnId)
  | gone (pipe : StableConnId)
  | done
deriving DecidableEq

/-- Where the forwarder stands with the event in hand. -/
inductive Forwarder where
  | idle
  | stalling (evicted : List (StableConnId × DeviceId)) (endpointId : EndpointId)
      (token : Option ℕ)
  /-- `ConnectionClosed` in hand. -/
  | hangingUp (endpointId : EndpointId) (pipe : StableConnId)
  /-- The routable entry is removed. -/
  | evicted (endpointId : EndpointId) (pipe : StableConnId)
  | resolved (endpointId : EndpointId) (pipe : StableConnId) (device : Option DeviceId)
  /-- In `inbox.send(Stalled)`. -/
  | raising (endpointId : EndpointId) (pipe : StableConnId) (device : DeviceId)
deriving DecidableEq

/-- The tables that the tasks share, and the tasks themselves. -/
structure Hook where
  self : EndpointId
  routing : Routing := {}
  conns : ConnectionRegistry := {}
  links : List Link := []
  queue : List HookEvent := []
  tasks : List Task := []
  forwarder : Forwarder := .idle
  inbox : List (Letter StableConnId) := []

/-- A step of a task, or something that happens to a connection or to a pipe. -/
inductive HookLabel where
  /-- A connection completes its handshake and enters `after_handshake`. -/
  | connect (link : Link)
  | setPaths (conn : ConnId) (paths : List Path)
  /-- The application or the peer closes the connection. -/
  | closeLink (conn : ConnId)
  | dropLink (conn : ConnId)
  | rehash (orders : Routing.Orders)
  | openPipe (now : ℕ) (device : DeviceId) (role : ConnectRole) (target : Option EndpointId)
  | exitPipe (pipe : StableConnId)
  | noteScanHint (keyPrefix : KeyPrefix) (device : DeviceId)
  | reserveOutbound (now : ℕ) (endpointId : EndpointId)
  /-- The next step of a task; `order` is the order in which `close_pipe` collects. -/
  | run (task : ℕ) (now : ℕ) (order : List ConnId)
  | forward

namespace Hook

/-- The connection exists and is open. -/
def isOpen (s : Hook) (conn : ConnId) : Bool := s.links[conn]?.any Link.isOpen

/-- The connection exists and is closed. -/
def isClosed (s : Hook) (conn : ConnId) : Bool := s.links[conn]?.any fun l => !l.isOpen

/-- What happens to a connection. -/
def updateLink (conn : ConnId) (f : Link → Link) (s : Hook) : Hook :=
  { s with links := s.links.modify conn f }

/-- Into the queue of events, which is unbounded. -/
def send (event : HookEvent) (s : Hook) : Hook := { s with queue := s.queue ++ [event] }

/-- Into the registry's inbox. -/
def post (letter : Letter StableConnId) (s : Hook) : Hook := { s with inbox := s.inbox ++ [letter] }

/-- `close_pipe`: remember the pipe as closed, then close what it carried. -/
def closePipe (now : ℕ) (order : List ConnId) (pipe : StableConnId) (reason : String)
    (next : Task) (s : Hook) : Option (Hook × Task) :=
  if order.Perm (s.conns.handlesOn pipe) then
    some ({ s with conns := s.conns.closePipe now pipe bleCloseCodeRetry reason },
      .closing order pipe next)
  else none

/-- Registers the connection and spawns its watcher. A pipe closed in the meantime closes the
connection again. -/
def insert (now : ℕ) (a : Accepted) (s : Hook) : Hook × Task :=
  match s.conns.insert now a.remote a.pipe a.conn with
  | (conns, watch, late) =>
    let next := .notifying a.conn a.remote (some a.pipe.raw) a.evicted (some (a.pipe, watch))
    ({ s with conns := conns }, if late then .closing [a.conn] a.pipe next else next)

/-- One step of a task: the new state and what the task is at next. -/
def runTask (now : ℕ) (order : List ConnId) (s : Hook) : Task → Option (Hook × Task)
  | .handshake conn => s.links[conn]?.map fun l =>
    match l.token with
    -- a connection that is on no BLE path: reported verified, without a token
    | none => (s, .notifying conn l.remote none [] none)
    | some token => (s, .promoting conn l.remote ⟨token⟩)
  | .promoting conn remote pipe =>
    match s.routing.promote now pipe s.self remote with
    | (routing, .rejected) => some ({ s with routing := routing }, .rejecting conn remote pipe)
    | (routing, .accepted evicted) =>
      some ({ s with routing := routing }, .resolving ⟨conn, remote, pipe, []⟩ evicted evicted)
  -- rejected: it is verified all the same, and then refused
  | .rejecting conn remote pipe =>
    some (s.send (.verifiedEndpoint remote (some pipe.raw) []), .refusing conn)
  | .refusing conn => some (s.updateLink conn fun l => { l with isOpen := false }, .done)
  -- the devices are looked up before any of the evicted pipes is closed
  | .resolving a [] evicted => some (s, .evicting a evicted)
  | .resolving a (pipe :: todo) evicted =>
    let found := (s.routing.deviceForPipe pipe).toList.map fun device => (pipe, device)
    some (s, .resolving { a with evicted := a.evicted ++ found } todo evicted)
  | .evicting a [] => some (s, .inserting a)
  | .evicting a (pipe :: todo) => s.closePipe now order pipe bleCloseReasonEvicted (.evicting a todo)
  | .inserting a => some (s.insert now a)
  | .notifying conn remote token evicted watch =>
    some (s.send (.verifiedEndpoint remote token evicted),
      match watch with
      | some (pipe, watch) => .watching conn remote pipe watch
      | none => .done)
  | .watching conn remote pipe watch =>
    -- `conn.closed().await`
    if s.isOpen conn then none
    else
      match s.conns.removeAndIsEmpty remote pipe watch with
      | (conns, isEmpty) =>
        some ({ s with conns := conns }, if isEmpty then .reporting remote pipe else .done)
  | .reporting remote pipe => some (s.send (.connectionClosed remote pipe), .done)
  -- outside the lock of the index, one connection after the other
  | .closing [] _ next => some (s, next)
  | .closing (conn :: handles) pipe next =>
    some (s.updateLink conn (Link.closeIfOnlyPath pipe), .closing handles pipe next)
  -- the exit sequence of the driver
  | .exiting pipe =>
    some ({ s with routing := (s.routing.evictPipeState pipe).1 }, .leaving pipe)
  | .leaving pipe => s.closePipe now order pipe bleCloseReasonPipeClosed (.gone pipe)
  | .gone pipe => some ({ s with routing := s.routing.evictPipe now pipe }, .done)
  | .done => none

/-- One step of the forwarder. -/
def forward (s : Hook) : Option Hook :=
  match s.forwarder with
  | .idle =>
    match s.queue with
    | [] => none
    | .verifiedEndpoint e token evicted :: queue =>
      some { s with queue := queue, forwarder := .stalling evicted e token }
    | .connectionClosed e p :: queue => some { s with queue := queue, forwarder := .hangingUp e p }
  | .stalling ((pipe, device) :: evicted) e token =>
    some { s.post ⟨.stalled device .linkDead, some pipe⟩ with
      forwarder := .stalling evicted e token }
  -- the verified endpoint comes after the evicted devices
  | .stalling [] e token =>
    some { s.post { cmd := .verifiedEndpoint e token } with forwarder := .idle }
  | .hangingUp e p =>
    match s.routing.evictRoutableIfPipe e p with
    | (routing, some _) => some { s with routing := routing, forwarder := .evicted e p }
    -- the endpoint has a different pipe by now, or none
    | (routing, none) => some { s with routing := routing, forwarder := .idle }
  | .evicted e p => some { s with forwarder := .resolved e p (s.routing.deviceForPipe p) }
  | .resolved e p device =>
    let routing := (s.routing.evictPipeState p).1
    match device with
    | some device => some { s with routing := routing, forwarder := .raising e p device }
    -- a pipe without a device: nothing to stall
    | none => some { s with routing := routing, forwarder := .idle }
  | .raising _ p device =>
    some { s.post ⟨.stalled device .localClose, some p⟩ with forwarder := .idle }

/-- Run the task at position `i`. -/
def runAt (i now : ℕ) (order : List ConnId) (s : Hook) : Option Hook :=
  match s.tasks[i]? with
  | none => none
  | some task =>
    (s.runTask now order task).map fun x => { x.1 with tasks := x.1.tasks.set i x.2 }

/-- Every interleaving of these is a run. -/
def step : HookLabel → Hook → Option Hook
  | .connect link, s =>
    some { s with links := s.links ++ [link], tasks := s.tasks ++ [.handshake s.links.length] }
  | .setPaths conn paths, s => some (s.updateLink conn fun l => { l with paths := paths })
  -- closed by the peer, or by the application
  | .closeLink conn, s => some (s.updateLink conn fun l => { l with isOpen := false })
  | .dropLink conn, s =>
    some (s.updateLink conn fun l => { l with isOpen := false, held := false })
  | .rehash orders, s => (s.routing.rehash orders).map fun r => { s with routing := r }
  | .openPipe now device role target, s =>
    some { s with routing := (s.routing.openPipe now device role target).1 }
  -- a pipe exits once it is registered, at any time
  | .exitPipe pipe, s =>
    if (s.routing.deviceForPipe pipe).isSome then
      some { s with tasks := s.tasks ++ [.exiting pipe] }
    else none
  | .noteScanHint keyPrefix device, s =>
    some { s with routing := (s.routing.noteScanHint keyPrefix device).1 }
  | .reserveOutbound now e, s => some { s with routing := (s.routing.reserveOutbound now e).1 }
  | .run i now order, s => s.runAt i now order
  | .forward, s => s.forward

def system : System Hook HookLabel where
  Init s := ∃ self, s = { self := self }
  step := step

end Hook

end IrohBle
