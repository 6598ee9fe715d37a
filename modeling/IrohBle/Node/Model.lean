import IrohBle.Actor
import IrohBle.Pipe.Supervisor
import IrohBle.Registry.Handles

/-! # Node.Model: the registry's actor and the pipes it starts

The actor of `Actor` together with the data pipes that its `StartDataPipe` actions start. A
pipe is known by its position in `pipes`; the letters it and its workers send carry it.

* Commands of everybody else (event pumps, lane jobs, `poll_send`, the hook's forwarder)
  come from outside.
* What the registry's `try_send`s on a pipe's channels return is what the pipe's state
  says: `closed` once its supervisor has returned, `full` when the channel is.
* When the actor stops, the registry and the inbox are dropped: sends to it come to
  nothing, and nobody holds the channels of a pipe any more.
-/

namespace IrohBle

open Lib Reliable Registry

/-- The commands only the driver and the pipes send. -/
def PeerCommand.fromPipe : PeerCommand → Bool
  | .dataPipeReady .. | .l2capHandoverTimeout _ => true
  | _ => false

/-- The pipe whose handles a command carries. -/
def PeerCommand.ready? : PeerCommand → Option ℕ
  | .dataPipeReady _ _ handles => some handles.outboundTx
  | _ => none

namespace Loop

/-- The actions still to run. -/
def todo : Loop → List PeerAction
  | .acting todo _ => todo
  | .sending _ todo _ => todo
  | _ => []

/-- A pipe for `d` is about to be started. -/
def starting (d : DeviceId) (loop : Loop) : Bool :=
  loop.todo.any fun a => a.device? == some d

/-- The command in `inbox.send`. -/
def sending? : Loop → Option PeerCommand
  | .sending ready _ _ => some ready
  | _ => none

end Loop

/-- The registry's actor with all pipes it has started. -/
structure Node where
  actor : Actor
  pipes : List DataPipe

/-- The steps of the node: those of the actor, and of its `i`th pipe. -/
inductive NodeLabel where
  | external (cmd : PeerCommand)
  | pop (io : Io) (exact replaced : Option DeviceId)
  | execute
  | sent
  | reorder (ks : List DeviceId)
  | pipe (i : ℕ) (l : PipeLabel)

namespace Node

/-- What a `try_send` finds: the pipe is gone, its channel is full, or the item goes in. -/
def trySendResult (p : DataPipe) (length capacity : ℕ) : TrySendResult :=
  if p.supervisor = .exited then .closed else if length < capacity then .ok else .full

/-- A `try_send` on a pipe's channel. -/
def attempt (pipes : List DataPipe) : TrySend → Option (List DataPipe)
  | .outbound tx send result =>
    match pipes[tx]? with
    | none => none
    | some p =>
      -- the outcome the registry has seen must be one the channel allows
      if trySendResult p p.outbound.length outboundCapacity = result then
        some (if result = .ok then pipes.set tx { p with outbound := p.outbound ++ [send] } else pipes)
      else none
  | .inbound tx bytes result =>
    match pipes[tx]? with
    | none => none
    | some p =>
      if trySendResult p p.inbound.length inboundCapacity = result then
        some (if result = .ok then pipes.set tx { p with inbound := p.inbound ++ [bytes] } else pipes)
      else none

/-- The commands in the inbox, and the one that waits for its slot. -/
def queued (s : Node) : List PeerCommand :=
  s.actor.inbox.map Letter.cmd ++ s.actor.loop.sending?.toList

/-- The pipes whose handles are still to be handed over, in order. -/
def readies (s : Node) : List ℕ := s.queued.filterMap PeerCommand.ready?

/-- Somebody holds the sending ends of the pipe's channels. -/
def held (s : Node) (i : ℕ) : Bool :=
  !s.actor.loop.isStopped && (decide (i ∈ s.readies) ||
    s.actor.reg.peers.values.any fun e => e.pipe.any fun handles => handles.outboundTx == i)

/-- A send to the inbox. -/
def post (letter : Letter ℕ) (s : Node) : Option Node :=
  if s.actor.loop.isStopped then some s
  else (Actor.step (.produce letter) s.actor).map fun actor => { s with actor }

/-- A turn of the actor, with the `try_send`s it makes on the channels of the pipes. -/
def pop (io : Io) (exact replaced : Option DeviceId) (s : Node) : Option Node :=
  match s.actor.inbox with
  | [] => none
  | letter :: _ =>
    (s.actor.pop io exact replaced).bind fun actor =>
      ((s.actor.reg.runCommand io exact replaced letter.cmd).tried.foldlM attempt s.pipes).map
        fun pipes => ⟨actor, pipes⟩

/-- What executing the next action does to the pipes. -/
def executePipes (s : Node) : List DataPipe :=
  match s.actor.loop with
  | .acting (.startDataPipe d _ txGen _ _ path l2cap :: _) _ =>
    s.pipes ++ [DataPipe.start d txGen path l2cap]
  | .acting (.swapPipeToL2cap _ channel swapTx :: _) _ =>
    s.pipes.modify swapTx fun p => { p with addL2cap := p.addL2cap ++ [channel] }
  | _ => s.pipes

/-- A step of one pipe, whose command goes to the inbox. -/
def stepPipe (i : ℕ) (l : PipeLabel) (s : Node) : Option Node :=
  match s.pipes[i]? with
  | none => none
  | some p =>
    match p.step (s.held i) l with
    | none => none
    | some (p, cmd) =>
      -- the pipe moves first; its command is sent from the new state
      let s := { s with pipes := s.pipes.set i p }
      match cmd with
      | none => some s
      | some cmd => s.post ⟨cmd, some i⟩

/-- One step of the node; commands of a pipe come from the pipes only. -/
def step : NodeLabel → Node → Option Node
  | .external cmd, s => if cmd.fromPipe then none else s.post { cmd }
  | .pop io exact replaced, s => s.pop io exact replaced
  | .execute, s => s.actor.execute.map fun actor => ⟨actor, s.executePipes⟩
  | .sent, s => s.actor.sent.map fun actor => { s with actor }
  | .reorder ks, s => (Actor.step (.reorder ks) s.actor).map fun actor => { s with actor }
  | .pipe i l, s => s.stepPipe i l

/-- The node as a transition system, from the start of the actor on. -/
def system : System Node NodeLabel where
  Init s := ∃ policy endpoint, s = ⟨.new policy endpoint, []⟩
  step := step

/-! ## The pipe of the live session -/

/-- The entry of the pipe's device is `Connected`, and the pipe is the one started for that
session: no other was started for the device since, and none is about to be. -/
def current (s : Node) (i : ℕ) : Bool :=
  match s.pipes[i]? with
  | none => false
  | some p =>
    !s.actor.loop.isStopped && !(s.pipes.drop (i + 1)).any (fun q => q.device == p.device) &&
      !s.actor.loop.starting p.device &&
      (s.actor.reg.peer p.device).any fun e => e.phase.isConnected

/-- What is behind the `i`th is at a greater position. -/
theorem mem_drop_succ {α : Type} {l : List α} {i : ℕ} {x : α} :
    x ∈ l.drop (i + 1) ↔ ∃ j, i < j ∧ l[j]? = some x := by
  constructor
  · intro h
    rcases List.mem_iff_getElem?.mp h with ⟨n, hn⟩
    rw [List.getElem?_drop] at hn
    exact ⟨i + 1 + n, by omega, hn⟩
  · rintro ⟨j, hj, hx⟩
    refine List.mem_iff_getElem?.mpr ⟨j - (i + 1), ?_⟩
    rw [List.getElem?_drop, show i + 1 + (j - (i + 1)) = j by omega]
    exact hx

/-- The pipe of a live session: the youngest of its device, the entry Connected, and no other
about to be started. -/
theorem current_iff {s : Node} {i : ℕ} :
    s.current i = true ↔ ∃ p, s.pipes[i]? = some p ∧ s.actor.loop.isStopped = false ∧
      (∀ j q, i < j → s.pipes[j]? = some q → q.device ≠ p.device) ∧
      s.actor.loop.starting p.device = false ∧
      ∃ e, s.actor.reg.peer p.device = some e ∧ e.phase.isConnected = true := by
  unfold current
  cases hp : s.pipes[i]? with
  | none => simp
  | some p =>
      simp only [Bool.and_eq_true, Bool.not_eq_true', List.any_eq_false, beq_iff_eq,
        Option.any_eq_true, mem_drop_succ, Option.some.injEq, exists_eq_left', and_assoc]
      constructor
      · rintro ⟨hstop, hnew, hstart, hpeer⟩
        exact ⟨hstop, fun j q hj hq => hnew q ⟨j, hj, hq⟩, hstart, hpeer⟩
      · rintro ⟨hstop, hnew, hstart, hpeer⟩
        exact ⟨hstop, fun q ⟨j, hj, hq⟩ => hnew j q hj hq, hstart, hpeer⟩

/-- What every step does to the sessions and their pipes: a live session is one that was live
before, or one whose pipe is about to be started; and what was about to be started still is,
or has been. -/
structure Advances (s s' : Node) : Prop where
  pipes : ∀ (j : ℕ) (q : DataPipe), s.pipes[j]? = some q → ∃ q', s'.pipes[j]? = some q' ∧
    q.SamePipe q' ∧
    (q.supervisor = .exited → q'.supervisor = .exited)
  stopped : s.actor.loop.isStopped = true → s'.actor.loop.isStopped = true
  starting : ∀ d, s.actor.loop.starting d = true → s'.actor.loop.starting d = true ∨
    ∃ (j : ℕ) (q : DataPipe), s.pipes.length ≤ j ∧ s'.pipes[j]? = some q ∧ q.device = d
  peer : ∀ d e', s'.actor.reg.peer d = some e' → e'.phase.isConnected = true →
    s'.actor.loop.starting d = true ∨
      ∃ e, s.actor.reg.peer d = some e ∧ e.phase.isConnected = true ∧ e'.txGen = e.txGen

theorem Advances.of_inbox (s : Node) (inbox : List (Letter ℕ)) :
    Advances s ⟨{ s.actor with inbox := inbox }, s.pipes⟩ :=
  ⟨fun _ q hq => ⟨q, hq, ⟨rfl, rfl, rfl⟩, id⟩, id, fun _ h => .inl h,
    fun _ e' he' hc => .inr ⟨e', he', hc, rfl⟩⟩

theorem Advances.refl (s : Node) : Advances s s := .of_inbox s s.actor.inbox

/-- A pipe whose session is over stays behind. -/
theorem Advances.current {s s' : Node} (h : Advances s s') {i : ℕ} (hi : i < s.pipes.length)
    (hc : s'.current i = true) : s.current i = true := by
  rw [current_iff] at hc ⊢
  rcases hc with ⟨p', hp', hstop, hnew, hstart, e', he', hconn⟩
  have hp : s.pipes[i]? = some s.pipes[i] := List.getElem?_eq_getElem hi
  rcases h.pipes i _ hp with ⟨q', hq', hsame, -⟩
  obtain rfl : q' = p' := Option.some.inj (hq'.symm.trans hp')
  rw [hsame.device] at hnew hstart he'
  refine ⟨_, hp, ?_, ?_, ?_, ?_⟩
  · by_contra hcon
    rw [h.stopped (by simpa using hcon)] at hstop
    cases hstop
  · intro j q hj hq
    rcases h.pipes j q hq with ⟨q', hq', hsame', -⟩
    rw [← hsame'.device]
    exact hnew j q' hj hq'
  · by_contra hcon
    rcases h.starting _ (by simpa using hcon) with hs | ⟨j, q, hj, hq, hd⟩
    · rw [hstart] at hs
      cases hs
    · exact hnew j q (by omega) hq hd
  · rcases h.peer _ e' he' hconn with hs | ⟨e, he, hce, -⟩
    · rw [hstart] at hs
      cases hs
    · exact ⟨e, he, hce⟩

/-! ## The channels of the pipes -/

/-- The pipes are the same, with other contents in their channels. -/
def Refilled (pipes pipes' : List DataPipe) : Prop :=
  pipes'.length = pipes.length ∧ ∀ (j : ℕ) (q : DataPipe), pipes[j]? = some q →
    ∃ q', pipes'[j]? = some q' ∧ q.Refilled q'

theorem Refilled.refl (pipes : List DataPipe) : Refilled pipes pipes :=
  ⟨rfl, fun _ q hq => ⟨q, hq, .refl q⟩⟩

/-- Channels are filled one after another. -/
theorem Refilled.trans {pipes pipes₁ pipes' : List DataPipe} (h₁ : Refilled pipes pipes₁)
    (h₂ : Refilled pipes₁ pipes') : Refilled pipes pipes' := by
  refine ⟨h₂.1.trans h₁.1, fun j q hq => ?_⟩
  rcases h₁.2 j q hq with ⟨q₁, hq₁, hr₁⟩
  rcases h₂.2 j q₁ hq₁ with ⟨q', hq', hr'⟩
  exact ⟨q', hq', hr₁.trans hr'⟩

/-- A pipe that is refilled among the others. -/
theorem refilled_set {pipes : List DataPipe} {i : ℕ} {p p' : DataPipe} (hp : pipes[i]? = some p)
    (h : p.Refilled p') : Refilled pipes (pipes.set i p') := by
  refine ⟨List.length_set, fun j q hq => ?_⟩
  rw [List.getElem?_set]
  by_cases hij : i = j
  · subst hij
    obtain rfl : p = q := Option.some.inj (hp.symm.trans hq)
    rw [if_pos rfl, if_pos (List.getElem?_eq_some_iff.mp hp).1]
    exact ⟨p', rfl, h⟩
  · rw [if_neg hij]
    exact ⟨q, hq, .refl q⟩

/-- A `try_send` fills a channel at most. -/
theorem refilled_attempt {pipes pipes' : List DataPipe} {t : TrySend}
    (h : attempt pipes t = some pipes') : Refilled pipes pipes' := by
  cases t with
  | outbound tx send result =>
      simp only [attempt] at h
      split at h
      · cases h
      · rename_i p hp
        split at h
        · obtain rfl := Option.some.inj h
          split
          · exact refilled_set hp ⟨⟨rfl, rfl, rfl⟩, rfl, rfl, rfl, rfl⟩
          · exact .refl pipes
        · cases h
  | inbound tx bytes result =>
      simp only [attempt] at h
      split at h
      · cases h
      · rename_i p hp
        split at h
        · obtain rfl := Option.some.inj h
          split
          · exact refilled_set hp ⟨⟨rfl, rfl, rfl⟩, rfl, rfl, rfl, rfl⟩
          · exact .refl pipes
        · cases h

theorem refilled_attempts {pipes pipes' : List DataPipe} {tried : List TrySend}
    (h : tried.foldlM attempt pipes = some pipes') : Refilled pipes pipes' := by
  induction tried generalizing pipes with
  | nil =>
      obtain rfl : pipes = pipes' := by simpa using h
      exact .refl pipes
  | cons t tried ih =>
      rw [List.foldlM_cons] at h
      rcases Option.bind_eq_some_iff.mp h with ⟨pipes₁, h₁, h₂⟩
      exact (refilled_attempt h₁).trans (ih h₂)

/-- A channel found closed is one of a pipe that is gone. -/
theorem exited_of_closed {pipes pipes' : List DataPipe} {tried : List TrySend} {i : ℕ}
    {send : PendingSend} (h : tried.foldlM attempt pipes = some pipes')
    (hmem : TrySend.outbound i send .closed ∈ tried) {p : DataPipe} (hp : pipes[i]? = some p) :
    p.supervisor = .exited := by
  induction tried generalizing pipes p with
  | nil => cases hmem
  | cons t tried ih =>
      rw [List.foldlM_cons] at h
      rcases Option.bind_eq_some_iff.mp h with ⟨pipes₁, h₁, h₂⟩
      rcases List.mem_cons.mp hmem with rfl | hmem
      · simp only [attempt, hp] at h₁
        split at h₁
        · rename_i hr
          unfold trySendResult at hr
          split at hr
          · assumption
          · split at hr <;> cases hr
        · cases h₁
      · rcases (refilled_attempt h₁).2 i p hp with ⟨p₁, hp₁, hr₁⟩
        rw [← hr₁.supervisor]
        exact ih h₂ hmem hp₁

/-! ## What a step can do -/

/-- What a send to the inbox leaves in it. -/
def Posted (s : Node) (i : ℕ) (cmd : Option PeerCommand) (inbox : List (Letter ℕ)) : Prop :=
  (cmd = none ∨ s.actor.loop.isStopped = true) ∧ inbox = s.actor.inbox ∨
    ∃ c, cmd = some c ∧ s.actor.loop.isStopped = false ∧ inbox = s.actor.inbox ++ [⟨c, some i⟩]

/-- The moves of a node; whether a command from outside is about one of the pipes is left
open. -/
inductive Moved (s : Node) : NodeLabel → Node → Prop where
  | dropped {cmd : PeerCommand} (h : s.actor.loop.isStopped = true) : Moved s (.external cmd) s
  | external {letter : Letter ℕ} (hcmd : letter.cmd.fromPipe = false) :
      Moved s (.external letter.cmd)
        ⟨{ s.actor with inbox := s.actor.inbox ++ [letter] }, s.pipes⟩
  | pop {io : Io} {exact replaced : Option DeviceId} {letter : Letter ℕ} {rest : List (Letter ℕ)}
      {t : Turn} {pipes : List DataPipe} (hl : s.actor.loop = .recv)
      (hin : s.actor.inbox = letter :: rest)
      (ht : t = s.actor.reg.runCommand io exact replaced letter.cmd)
      (hpipes : t.tried.foldlM attempt s.pipes = some pipes) :
      Moved s (.pop io exact replaced)
        ⟨{ s.actor with
            reg := t.reg, inbox := rest, loop := .acting t.actions (decide (letter.cmd = .shutdown)) },
          pipes⟩
  | finish {shutdown : Bool} (hl : s.actor.loop = .acting [] shutdown) :
      Moved s .execute ⟨{ s.actor with loop := if shutdown then .stopped else .recv }, s.pipes⟩
  | start {d : DeviceId} {l txGen : ℕ} {role : ConnectRole} {target : Option EndpointId}
      {path : ConnectPath} {l2cap : Option L2capChannel} {todo : List PeerAction} {shutdown : Bool}
      (hl : s.actor.loop = .acting (.startDataPipe d l txGen role target path l2cap :: todo) shutdown) :
      Moved s .execute
        ⟨{ s.actor with
            loop := .sending (.dataPipeReady d txGen (Actor.handlesOf s.actor.pipes)) todo shutdown
            pipes := s.actor.pipes + 1 },
          s.pipes ++ [DataPipe.start d txGen path l2cap]⟩
  | act {a : PeerAction} {todo : List PeerAction} {shutdown : Bool} {pipes : List DataPipe}
      (hl : s.actor.loop = .acting (a :: todo) shutdown) (ha : a.device? = none)
      (hpipes : Refilled s.pipes pipes) :
      Moved s .execute ⟨{ s.actor with loop := .acting todo shutdown }, pipes⟩
  | sent {ready : PeerCommand} {todo : List PeerAction} {shutdown : Bool}
      (hl : s.actor.loop = .sending ready todo shutdown) :
      Moved s .sent
        ⟨{ s.actor with
            inbox := s.actor.inbox ++ [{ cmd := ready }], loop := .acting todo shutdown }, s.pipes⟩
  | reorder {ks : List DeviceId} {reg : Registry} (h : ∀ d, reg.peer d = s.actor.reg.peer d) :
      Moved s (.reorder ks) ⟨{ s.actor with reg := reg }, s.pipes⟩
  | pipe {i : ℕ} {l : PipeLabel} {p p' : DataPipe} {cmd : Option PeerCommand}
      {inbox : List (Letter ℕ)} (hp : s.pipes[i]? = some p) (hm : p.Move (s.held i) l p' cmd)
      (hin : Posted s i cmd inbox) :
      Moved s (.pipe i l) ⟨{ s.actor with inbox := inbox }, s.pipes.set i p'⟩

/-- A letter reaches the inbox unless the actor has stopped. -/
theorem post_cases {s s' : Node} {letter : Letter ℕ} (h : s.post letter = some s') :
    s.actor.loop.isStopped = true ∧ s' = s ∨ s.actor.loop.isStopped = false ∧
      s' = ⟨{ s.actor with inbox := s.actor.inbox ++ [letter] }, s.pipes⟩ := by
  unfold post at h
  split at h
  · rename_i hstop
    exact .inl ⟨hstop, (Option.some.inj h).symm⟩
  · rename_i hstop
    rcases Option.map_eq_some_iff.mp h with ⟨actor, hactor, rfl⟩
    refine .inr ⟨by simpa using hstop, ?_⟩
    simp only [Actor.step] at hactor
    split at hactor
    · cases hactor
    · split at hactor
      · obtain rfl := Option.some.inj hactor
        rfl
      · cases hactor

/-- A channel for an upgrade that is handed to a pipe is in one of its channels. -/
theorem refilled_swap (s : Node) (channel : L2capChannel) (tx : ℕ) :
    Refilled s.pipes (s.pipes.modify tx fun p => { p with addL2cap := p.addL2cap ++ [channel] }) := by
  refine ⟨List.length_modify _ _ _, fun j q hq => ?_⟩
  rw [List.getElem?_modify, hq]
  by_cases h : tx = j
  · simp only [h, if_true]
    exact ⟨_, rfl, ⟨rfl, rfl, rfl⟩, rfl, rfl, rfl, rfl⟩
  · simp only [h, if_false]
    exact ⟨q, rfl, .refl q⟩

/-- Executing an action, as a move. -/
theorem execute_moved {s : Node} {actor : Actor} (h : s.actor.execute = some actor) :
    Moved s .execute ⟨actor, s.executePipes⟩ := by
  rcases Actor.execute_cases h with ⟨shutdown, hl, rfl⟩ |
    ⟨d, l, g, role, target, path, l2cap, todo, shutdown, hl, rfl⟩ | ⟨a, todo, shutdown, hl, ha, rfl⟩
  · simp only [executePipes, hl]
    exact .finish hl
  · simp only [executePipes, hl]
    exact .start hl
  · cases a with
    | startDataPipe d l g role target path ch => cases ha
    | swapPipeToL2cap d channel tx =>
        simp only [executePipes, hl]
        exact .act hl rfl (refilled_swap s channel tx)
    | _ =>
        simp only [executePipes, hl]
        exact .act hl rfl (.refl _)

/-- Every step of the node is one of the moves. -/
theorem step_moved {s s' : Node} {l : NodeLabel} (h : system.step l s = some s') : Moved s l s' := by
  cases l with
  | external cmd =>
      simp only [system, step] at h
      split at h
      · cases h
      · -- a letter from outside reaches the inbox or nobody
        rename_i hcmd
        rcases post_cases h with ⟨hstop, rfl⟩ | ⟨-, rfl⟩
        · exact .dropped hstop
        · exact @Moved.external _ { cmd } (by simpa using hcmd)
  | pop io exact replaced =>
      simp only [system, step, pop] at h
      split at h
      · cases h
      · rename_i letter rest hin
        rcases Option.bind_eq_some_iff.mp h with ⟨actor, hactor, h⟩
        rcases Option.map_eq_some_iff.mp h with ⟨pipes, hpipes, rfl⟩
        simp only [Actor.pop, hin] at hactor
        split at hactor
        · -- the turn and the attempts it makes on the pipes' channels
          rename_i letter' rest' hl hcons
          cases hcons
          obtain rfl := Option.some.inj hactor
          exact .pop hl hin rfl hpipes
        · cases hactor
  | execute =>
      rcases Option.map_eq_some_iff.mp h with ⟨actor, hactor, rfl⟩
      exact execute_moved hactor
  | sent =>
      rcases Option.map_eq_some_iff.mp h with ⟨actor, hactor, rfl⟩
      rcases Actor.sent_cases hactor with ⟨ready, todo, shutdown, hl, -, rfl⟩
      exact .sent hl
  | reorder ks =>
      rcases Option.map_eq_some_iff.mp h with ⟨actor, hactor, rfl⟩
      rcases Option.map_eq_some_iff.mp hactor with ⟨reg, hreg, rfl⟩
      exact .reorder fun d => peer_reorder hreg d
  | pipe i l =>
      simp only [system, step, stepPipe] at h
      split at h
      · cases h
      · rename_i p hp
        split at h
        · cases h
        · rename_i p' cmd hstep
          have hm := DataPipe.step_move hstep
          split at h
          · obtain rfl := Option.some.inj h
            exact .pipe hp hm (.inl ⟨.inl rfl, rfl⟩)
          · rename_i c
            rcases post_cases h with ⟨hstop, rfl⟩ | ⟨hstop, rfl⟩
            · exact .pipe hp hm (.inl ⟨.inr hstop, rfl⟩)
            · exact .pipe hp hm (.inr ⟨c, rfl, hstop, rfl⟩)

/-! ## Every step advances -/

theorem pipes_of_refilled {pipes pipes' : List DataPipe} (h : Refilled pipes pipes') (j : ℕ)
    (q : DataPipe) (hq : pipes[j]? = some q) : ∃ q', pipes'[j]? = some q' ∧ q.SamePipe q' ∧
      (q.supervisor = .exited → q'.supervisor = .exited) := by
  rcases h.2 j q hq with ⟨q', hq', hr⟩
  exact ⟨q', hq', hr.toSamePipe, fun he => hr.supervisor.trans he⟩

theorem starting_acting {d : DeviceId} {a : PeerAction} {todo : List PeerAction} {shutdown : Bool}
    (ha : a.device? ≠ some d) :
    (Loop.acting (a :: todo) shutdown).starting d = (Loop.acting todo shutdown).starting d := by
  simp [Loop.starting, Loop.todo, ha]

theorem Moved.advances {s s' : Node} {l : NodeLabel} (h : Moved s l s') (hk : s.actor.reg.Keyed) :
    Advances s s' := by
  -- the pipes stay as they are
  have hsame : ∀ (j : ℕ) (q : DataPipe), s.pipes[j]? = some q → ∃ q', s.pipes[j]? = some q' ∧
      q.SamePipe q' ∧ (q.supervisor = .exited → q'.supervisor = .exited) :=
    pipes_of_refilled (.refl s.pipes)
  -- and so does the entry of every device
  have hpeer : ∀ d e', s.actor.reg.peer d = some e' → e'.phase.isConnected = true →
      ∃ e, s.actor.reg.peer d = some e ∧ e.phase.isConnected = true ∧ e'.txGen = e.txGen :=
    fun d e' he' hc => ⟨e', he', hc, rfl⟩
  cases h with
  | dropped h => exact ⟨hsame, id, fun d h => .inl h, fun d e' he' hc => .inr (hpeer d e' he' hc)⟩
  | external h => exact ⟨hsame, id, fun d h => .inl h, fun d e' he' hc => .inr (hpeer d e' he' hc)⟩
  | @pop io exact replaced letter rest t pipes hl hin ht hpipes =>
      refine ⟨pipes_of_refilled (refilled_attempts hpipes), ?_, ?_, ?_⟩
      · rw [hl]
        exact id
      · rw [hl]
        exact fun d h => nomatch h
      · intro d e' he' hc
        rw [ht] at he'
        cases runCommand_turned hk io exact replaced letter.cmd d with
        | kept hno hsurv => exact .inr (hsurv e' he' hc)
        | @started e l role target path l2cap he hstarts hch =>
            left
            have hmem : PeerAction.startDataPipe d l e.txGen role target path l2cap ∈ t.starts := by
              rw [ht, hstarts]
              exact List.mem_cons_self
            exact List.any_eq_true.mpr ⟨_, (List.mem_filter.mp hmem).1, beq_self_eq_true (some d)⟩
  | @finish shutdown hl =>
      refine ⟨hsame, ?_, ?_, fun d e' he' hc => .inr (hpeer d e' he' hc)⟩
      · rw [hl]
        exact fun h => nomatch h
      · rw [hl]
        exact fun d h => nomatch h
  | @start d l txGen role target path l2cap todo shutdown hl =>
      refine ⟨fun j q hq => ?_, ?_, fun d' hd' => ?_, fun d e' he' hc => .inr (hpeer d e' he' hc)⟩
      · dsimp only
        rw [List.getElem?_append_left (List.getElem?_eq_some_iff.mp hq).1]
        exact hsame j q hq
      · rw [hl]
        exact fun h => nomatch h
      · by_cases hd : d' = d
        · subst hd
          exact .inr ⟨s.pipes.length, DataPipe.start d' txGen path l2cap, Nat.le_refl _, by simp,
            DataPipe.start_device d' txGen path l2cap⟩
        · left
          have hne : (PeerAction.startDataPipe d l txGen role target path l2cap).device? ≠ some d' :=
            fun h => hd (Option.some.inj h).symm
          rw [hl, starting_acting hne] at hd'
          exact hd'
  | @act a todo shutdown pipes hl ha hpipes =>
      refine ⟨pipes_of_refilled hpipes, ?_, fun d hd => .inl ?_,
        fun d e' he' hc => .inr (hpeer d e' he' hc)⟩
      · rw [hl]
        exact fun h => nomatch h
      · rw [hl, starting_acting (by simp [ha])] at hd
        exact hd
  | sent hl =>
      refine ⟨hsame, ?_, fun d hd => .inl ?_, fun d e' he' hc => .inr (hpeer d e' he' hc)⟩
      · rw [hl]
        exact fun h => nomatch h
      · rw [hl] at hd
        exact hd
  | reorder h =>
      refine ⟨hsame, id, fun d h => .inl h, fun d e' he' hc => .inr (hpeer d e' ?_ hc)⟩
      exact (h d).symm.trans he'
  | @pipe i l p p' cmd inbox hp hm hin =>
      refine ⟨fun j q hq => ?_, id, fun d h => .inl h, fun d e' he' hc => .inr (hpeer d e' he' hc)⟩
      dsimp only
      rw [List.getElem?_set]
      by_cases hij : i = j
      · subst hij
        obtain rfl : p = q := Option.some.inj (hp.symm.trans hq)
        rw [if_pos rfl, if_pos (List.getElem?_eq_some_iff.mp hp).1]
        exact ⟨p', rfl, hm.samePipe, hm.exited⟩
      · rw [if_neg hij]
        exact hsame j q hq

end Node

end IrohBle
