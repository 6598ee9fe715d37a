import IrohBle.Node.Zombie
import IrohBle.Hook.Accounts

/-! # Transport.Model: the registry, the pipes, the routing table and the hook

The node of `Node.Model` and the hook of `Hook.Tasks` share the routing table and the inbox:
executing `StartDataPipe` registers the pipe, `Registry::run` looks `VerifiedEndpoint` up in
the table, and what the forwarder sends goes to the registry.

* `ids` lists the stable id of every pipe, in the order in which they were started. A letter
  of the forwarder carries the pipe it is about by its position there.
* `Linked`: every id names one pipe, and a pipe that the table knows has the device that the
  table gives for it.
-/

namespace IrohBle

open Lib Reliable Registry

/-- The whole transport of one side. The routing table and the inbox of `hook` are the shared
ones. -/
structure Transport where
  node : Node
  hook : Hook
  ids : List StableConnId

/-- One step of one of its tasks. -/
inductive TransportLabel where
  | external (cmd : PeerCommand)
  | pop (io : Io)
  | execute (now : ℕ)
  | sent
  | reorder (ks : List DeviceId)
  | pipe (i : ℕ) (l : PipeLabel)
  | hook (l : HookLabel)

namespace Transport

/-- What `Registry::run` looks up for `VerifiedEndpoint`: the device of the pipe that carried
the handshake, and the device its prefix pointed to before. -/
def resolve (cmd : PeerCommand) (r : Routing) : Routing × Option DeviceId × Option DeviceId :=
  match cmd with
  | .verifiedEndpoint endpoint (some token) =>
    match r.deviceForPipe ⟨token⟩ with
    | none => (r, none, none)
    | some device =>
      match r.noteScanHint (prefixFromEndpoint endpoint) device with
      | (r, .replaced previous) => (r, some device, some previous)
      | (r, _) => (r, some device, none)
  | _ => (r, none, none)

/-- The actor takes a command; for `VerifiedEndpoint` it looks up the table first, which may move
a scan hint. -/
def pop (io : Io) (s : Transport) : Option Transport :=
  match s.node.actor.inbox with
  | [] => none
  | letter :: _ =>
    match resolve letter.cmd s.hook.routing with
    | (routing, exact, replaced) =>
      (s.node.pop io exact replaced).map fun node =>
        { s with node := node, hook := { s.hook with routing := routing } }

/-- Executing `StartDataPipe` opens the pipe in the table, in one step here. -/
def execute (now : ℕ) (s : Transport) : Option Transport :=
  (Node.step .execute s.node).map fun node =>
    match s.node.actor.loop with
    | .acting (.startDataPipe d _ _ role target _ _ :: _) _ =>
      match s.hook.routing.openPipe now d role target with
      | (routing, id) => ⟨node, { s.hook with routing := routing }, s.ids ++ [id]⟩
    | _ => { s with node := node }

/-- What the forwarder sends goes to the registry's inbox. -/
def deliver (s : Transport) : Option Transport :=
  match s.hook.inbox with
  | [] => some s
  | letter :: _ =>
    (s.node.post ⟨letter.cmd, letter.pipe.bind fun id => s.ids.idxOf? id⟩).map fun node =>
      { s with node := node, hook := { s.hook with inbox := [] } }

/-- The pipe's supervisor has returned. -/
def exited (s : Transport) (id : StableConnId) : Bool :=
  ((s.ids.idxOf? id).bind fun i => s.node.pipes[i]?).any fun p => p.supervisor = .exited

/-- Pipes are opened by the driver only, and a pipe's exit runs once its supervisor has returned.
-/
def stepHook (l : HookLabel) (s : Transport) : Option Transport :=
  match l with
  | .openPipe .. => none
  | .exitPipe id =>
    if s.exited id then (Hook.step l s.hook).bind fun hook => deliver { s with hook := hook } else none
  | _ => (Hook.step l s.hook).bind fun hook => deliver { s with hook := hook }

/-- What the hook sends is not taken from outside a second time. -/
def step : TransportLabel → Transport → Option Transport
  | .external cmd, s =>
    if cmd.fromHook then none
    else (Node.step (.external cmd) s.node).map fun node => { s with node := node }
  | .pop io, s => s.pop io
  | .execute now, s => s.execute now
  | .sent, s => (Node.step .sent s.node).map fun node => { s with node := node }
  | .reorder ks, s => (Node.step (.reorder ks) s.node).map fun node => { s with node := node }
  | .pipe i l, s => (Node.step (.pipe i l) s.node).map fun node => { s with node := node }
  | .hook l, s => s.stepHook l

/-- Nothing is known and nothing runs. -/
def start (policy : L2capPolicy) (endpoint : EndpointId) : Transport :=
  ⟨⟨.new policy endpoint, []⟩, { self := endpoint }, []⟩

def system : System Transport TransportLabel where
  Init s := ∃ policy endpoint, s = start policy endpoint
  step := step

/-! ## What a step can do -/

/-- The moves of the transport. -/
inductive Stepped (s : Transport) : TransportLabel → Transport → Prop where
  | external {cmd : PeerCommand} {node : Node} (hcmd : cmd.fromHook = false)
      (hs : Node.system.step (.external cmd) s.node = some node) :
      Stepped s (.external cmd) { s with node := node }
  | pop {io : Io} {letter : Letter ℕ} {rest : List (Letter ℕ)} {routing : Routing}
      {exact replaced : Option DeviceId} {node : Node} (hin : s.node.actor.inbox = letter :: rest)
      (hr : resolve letter.cmd s.hook.routing = (routing, exact, replaced))
      (hs : Node.system.step (.pop io exact replaced) s.node = some node) :
      Stepped s (.pop io) { s with node := node, hook := { s.hook with routing := routing } }
  | start {now : ℕ} {d : DeviceId} {l txGen : ℕ} {role : ConnectRole} {target : Option EndpointId}
      {path : ConnectPath} {l2cap : Option L2capChannel} {todo : List PeerAction} {shutdown : Bool}
      {node : Node} {routing : Routing} {id : StableConnId}
      (hl : s.node.actor.loop =
        .acting (.startDataPipe d l txGen role target path l2cap :: todo) shutdown)
      (hs : Node.system.step .execute s.node = some node)
      (ho : s.hook.routing.openPipe now d role target = (routing, id)) :
      Stepped s (.execute now) ⟨node, { s.hook with routing := routing }, s.ids ++ [id]⟩
  | execute {now : ℕ} {node : Node}
      (hl : ∀ d l txGen role target path l2cap todo shutdown, s.node.actor.loop ≠
        .acting (.startDataPipe d l txGen role target path l2cap :: todo) shutdown)
      (hs : Node.system.step .execute s.node = some node) :
      Stepped s (.execute now) { s with node := node }
  | sent {node : Node} (hs : Node.system.step .sent s.node = some node) :
      Stepped s .sent { s with node := node }
  | reorder {ks : List DeviceId} {node : Node} (hs : Node.system.step (.reorder ks) s.node = some node) :
      Stepped s (.reorder ks) { s with node := node }
  | pipe {i : ℕ} {l : PipeLabel} {node : Node} (hs : Node.system.step (.pipe i l) s.node = some node) :
      Stepped s (.pipe i l) { s with node := node }
  | hook {l : HookLabel} {hook : Hook} {s' : Transport} (hp : s.hook.Passes l hook)
      (hs : deliver { s with hook := hook } = some s') : Stepped s (.hook l) s'

theorem step_stepped {s s' : Transport} {l : TransportLabel} (h : system.step l s = some s') :
    Stepped s l s' := by
  cases l with
  | external cmd =>
      simp only [system, step] at h
      split at h
      · cases h
      · rename_i hcmd
        rcases Option.map_eq_some_iff.mp h with ⟨node, hs, rfl⟩
        exact .external (by simpa using hcmd) hs
  | pop io =>
      simp only [system, step, pop] at h
      split at h
      · cases h
      · rename_i letter rest hin
        rcases Option.map_eq_some_iff.mp h with ⟨node, hs, rfl⟩
        exact .pop hin rfl hs
  | execute now =>
      rcases Option.map_eq_some_iff.mp h with ⟨node, hs, hs'⟩
      split at hs'
      · -- the action opens a pipe: table and node take their steps together
        rename_i d l txGen role target path l2cap todo shutdown hl
        split at hs'
        rename_i routing id ho
        subst hs'
        exact .start hl hs ho
      · rename_i hl
        subst hs'
        exact .execute hl hs
  | sent =>
      rcases Option.map_eq_some_iff.mp h with ⟨node, hs, rfl⟩
      exact .sent hs
  | reorder ks =>
      rcases Option.map_eq_some_iff.mp h with ⟨node, hs, rfl⟩
      exact .reorder hs
  | pipe i l =>
      rcases Option.map_eq_some_iff.mp h with ⟨node, hs, rfl⟩
      exact .pipe hs
  | hook l =>
      have hstep : (∀ now d role target, l ≠ .openPipe now d role target) ∧
          ((Hook.step l s.hook).bind fun hook => deliver { s with hook := hook }) = some s' := by
        -- the labels of the driver are not the hook's own
        simp only [system, step, stepHook] at h
        split at h
        · cases h
        · split at h
          · exact ⟨by simp, h⟩
          · cases h
        · rename_i hne _
          exact ⟨hne, h⟩
      rcases Option.bind_eq_some_iff.mp hstep.2 with ⟨hook, hs, hd⟩
      exact .hook (Hook.step_passes hs hstep.1) hd

/-- What a delivery does: nothing, or one more letter for the registry. -/
theorem deliver_cases {s s' : Transport} (h : s.deliver = some s') :
    s.hook.inbox = [] ∧ s' = s ∨ ∃ letter rest, s.hook.inbox = letter :: rest ∧
      s'.ids = s.ids ∧ s'.hook = { s.hook with inbox := [] } ∧
      (s.node.actor.loop.isStopped = true ∧ s'.node = s.node ∨
        s'.node = ⟨{ s.node.actor with inbox := s.node.actor.inbox ++
          [⟨letter.cmd, letter.pipe.bind fun id => s.ids.idxOf? id⟩] }, s.node.pipes⟩) := by
  unfold deliver at h
  split at h
  · rename_i hin
    exact .inl ⟨hin, (Option.some.inj h).symm⟩
  · rename_i letter rest hin
    rcases Option.map_eq_some_iff.mp h with ⟨node, hp, rfl⟩
    refine .inr ⟨letter, rest, hin, rfl, rfl, ?_⟩
    rcases Node.post_cases hp with ⟨hstop, rfl⟩ | ⟨-, rfl⟩
    · exact .inl ⟨hstop, rfl⟩
    · exact .inr rfl

theorem fromPipe_of_fromHook {cmd : PeerCommand} (h : cmd.fromHook = true) :
    cmd.fromPipe = false := by
  cases cmd <;> first | rfl | cases h

/-! ## Ids and pipes -/

/-- How the table's ids, the pipes of the node and their devices hang together. -/
structure Linked (s : Transport) : Prop where
  node : Node.Inv s.node
  issued : s.hook.routing.Issued s.ids
  length : s.ids.length = s.node.pipes.length
  registered : ∀ id x, s.hook.routing.pipes.lookup id = some x →
    ∃ (i : ℕ) (p : DataPipe), s.ids[i]? = some id ∧ s.node.pipes[i]? = some p ∧
      p.device = x.deviceId
  inbox : s.hook.inbox = []

/-- The lookup moves scan hints at most. -/
theorem resolve_frame {cmd : PeerCommand} {r routing : Routing} {exact replaced : Option DeviceId}
    (h : resolve cmd r = (routing, exact, replaced)) : r.Frame routing := by
  unfold resolve at h
  split at h
  · rename_i endpoint token
    split at h
    · cases h
      exact .refl r
    · rename_i device hd
      have hf := Routing.Frame.noteScanHint r (prefixFromEndpoint endpoint) device
      split at h
      · rename_i hn
        cases h
        rw [hn] at hf
        exact hf
      · rename_i hn
        cases h
        rw [hn] at hf
        exact hf
  · cases h
    exact .refl r

variable {s s' : Transport} {l : TransportLabel}

/-- A step that starts no pipe. -/
theorem Linked.of_moved {nl : NodeLabel} {node : Node} {hook : Hook} (h : Linked s)
    (hm : Node.Moved s.node nl node) (hlen : node.pipes.length = s.node.pipes.length)
    (hf : s.hook.routing.Frame hook.routing) (hin : hook.inbox = []) :
    Linked ⟨node, hook, s.ids⟩ := by
  refine ⟨hm.inv h.node, h.issued.frame hf, h.length.trans hlen.symm, fun id x hx => ?_, hin⟩
  rcases h.registered id x (hf.pipes id x hx) with ⟨i, p, hi, hp, hd⟩
  rcases (hm.advances h.node.keyed).pipes i p hp with ⟨p', hp', hsame, -⟩
  exact ⟨i, p', hi, hp', hsame.device.trans hd⟩

/-- A step that leaves the node alone. -/
theorem Linked.of_routing {hook : Hook} (h : Linked s) (hi : hook.routing.Issued s.ids)
    (hp : ∀ id x, hook.routing.pipes.lookup id = some x →
      s.hook.routing.pipes.lookup id = some x) (hin : hook.inbox = []) :
    Linked ⟨s.node, hook, s.ids⟩ :=
  ⟨h.node, hi, h.length, fun id x hx => h.registered id x (hp id x hx), hin⟩

/-- The new pipe comes last on both sides, under an id that was not in use. -/
theorem Linked.start {now : ℕ} {d : DeviceId} {g txGen : ℕ} {role : ConnectRole}
    {target : Option EndpointId} {path : ConnectPath} {l2cap : Option L2capChannel}
    {todo : List PeerAction} {shutdown : Bool} {node : Node} {routing : Routing} {id : StableConnId}
    (h : Linked s)
    (hl : s.node.actor.loop =
      .acting (.startDataPipe d g txGen role target path l2cap :: todo) shutdown)
    (hs : Node.system.step .execute s.node = some node)
    (ho : s.hook.routing.openPipe now d role target = (routing, id)) :
    Linked ⟨node, { s.hook with routing := routing }, s.ids ++ [id]⟩ := by
  have hm := Node.step_moved hs
  -- the node appends the pipe it has started
  have hpipes : node.pipes = s.node.pipes ++ [DataPipe.start d txGen path l2cap] := by
    rcases Option.map_eq_some_iff.mp hs with ⟨actor, -, rfl⟩
    simp only [Node.executePipes, hl]
  refine ⟨hm.inv h.node, h.issued.openPipe ho, ?_, fun id' x hx => ?_, h.inbox⟩
  · dsimp only
    rw [hpipes, List.length_append, List.length_append, h.length]
    rfl
  · -- the table holds it under the id it was opened with
    dsimp only at hx ⊢
    rw [(Routing.openPipe_cases ho).1, Map.lookup_insert_ite] at hx
    split at hx
    · rename_i hid
      obtain rfl := Option.some.inj hx
      refine ⟨s.ids.length, DataPipe.start d txGen path l2cap, ?_, ?_, DataPipe.start_device _ _ _ _⟩
      · rw [hid]
        simp
      · rw [hpipes, h.length]
        simp
    · rcases h.registered id' x hx with ⟨i, p, hi, hp, hd⟩
      refine ⟨i, p, ?_, ?_, hd⟩
      · rw [List.getElem?_append_left (List.getElem?_eq_some_iff.mp hi).1]
        exact hi
      · rw [hpipes, List.getElem?_append_left (List.getElem?_eq_some_iff.mp hp).1]
        exact hp

/-- A step of the hook, with what it sends. -/
theorem Linked.hook {hl : HookLabel} {hook : Hook} (h : Linked s) (hp : s.hook.Passes hl hook)
    (hs : Transport.deliver { s with hook := hook } = some s') : Linked s' := by
  -- a step of the hook issues no id to a pipe
  have hissued : hook.routing.Issued s.ids := by
    rcases hp.routing with hf | ⟨now, e, hr⟩
    · exact h.issued.frame hf
    · rw [hr]
      exact h.issued.reserveOutbound now e
  -- and registers none
  have hpipes : ∀ id x, hook.routing.pipes.lookup id = some x →
      s.hook.routing.pipes.lookup id = some x := by
    rcases hp.routing with hf | ⟨now, e, hr⟩
    · exact hf.pipes
    · rw [hr, Routing.reserveOutbound_pipes]
      exact fun _ _ h => h
  -- it sends nothing, or one letter
  rcases deliver_cases hs with ⟨hin, rfl⟩ | ⟨letter, rest, hin, hids, hhook, hnode⟩
  · exact h.of_routing hissued hpipes hin
  · have hnew : Linked ⟨s.node, { hook with inbox := [] }, s.ids⟩ :=
      @Linked.of_routing s { hook with inbox := [] } h hissued hpipes rfl
    rcases s' with ⟨node', hook', ids'⟩
    dsimp only at hids hhook hnode hin
    subst hids hhook
    rcases hnode with ⟨-, rfl⟩ | rfl
    · exact hnew
    · have hcmd : letter.cmd.fromPipe = false := by
        rcases hp.inbox with hsame | ⟨letter', heq, hacc⟩
        · rw [hsame, h.inbox] at hin
          cases hin
        · rw [heq, h.inbox] at hin
          cases hin
          exact fromPipe_of_fromHook hacc.1
      exact hnew.of_moved (@Node.Moved.external s.node
        ⟨letter.cmd, letter.pipe.bind fun id => s.ids.idxOf? id⟩ hcmd) rfl (.refl _) rfl

/-- The invariant over one step. -/
theorem Linked.step (h : Linked s) (hs : Stepped s l s') : Linked s' := by
  cases hs with
  | external hcmd hs =>
      exact h.of_moved (Node.step_moved hs) ((Node.step_moved hs).length nofun) (.refl _) h.inbox
  | pop hin hr hs =>
      exact h.of_moved (Node.step_moved hs) ((Node.step_moved hs).length nofun) (resolve_frame hr)
        h.inbox
  | start hl hs ho => exact h.start hl hs ho
  | execute hl hs =>
      exact h.of_moved (Node.step_moved hs)
        ((Node.step_moved hs).length fun d g txGen role target path l2cap todo shutdown _ =>
          hl d g txGen role target path l2cap todo shutdown) (.refl _) h.inbox
  | sent hs =>
      exact h.of_moved (Node.step_moved hs) ((Node.step_moved hs).length nofun) (.refl _) h.inbox
  | reorder hs =>
      exact h.of_moved (Node.step_moved hs) ((Node.step_moved hs).length nofun) (.refl _) h.inbox
  | pipe hs =>
      exact h.of_moved (Node.step_moved hs) ((Node.step_moved hs).length nofun) (.refl _) h.inbox
  | hook hp hs => exact h.hook hp hs

theorem linked_init (h : system.Init s) : Linked s := by
  rcases h with ⟨policy, endpoint, rfl⟩
  refine ⟨Node.inv_init ⟨policy, endpoint, rfl⟩, Routing.issued_empty, rfl, fun id x hx => ?_, rfl⟩
  cases hx

end Transport

end IrohBle
