import IrohBle.Registry.FailedDial
import IrohBle.Registry.Command

/-! # Actor: the registry's actor loop and its inbox

`Registry::run` takes one command at a time from an inbox of 256 slots and executes
the actions it leads to one after another, awaiting each. All of them hand their work
to another task, except `StartDataPipe`, which awaits a slot in the same inbox for its
`DataPipeReady`.

* Everything else that sends to the inbox is a producer: event pumps, pipe workers,
  lane jobs, `poll_send`. A producer's step is a command entering a free slot.
* `never_waits`: the actor finds a slot as long as no producer takes the slot that it is
  going to need. `full_inbox_waits`: when one does, the actor ends up waiting for a
  slot that only it can free.

A command leads to at most one `StartDataPipe` (`Registry.starts_le_one`). What
`VerifiedEndpoint` looks up in the routing table is part of the label.
-/

namespace IrohBle

open Lib Reliable Registry

/-! ## The actor -/

/-- `Registry::run`'s inbox. -/
def inboxCapacity : ℕ := 256

/-- Where the actor stands. -/
inductive Loop where
  /-- Waiting in `rx.recv`. -/
  | recv
  /-- Executing the actions of a command, one after another. -/
  | acting (todo : List PeerAction) (shutdown : Bool)
  /-- Suspended in `inbox.send` inside `execute(StartDataPipe)`. -/
  | sending (ready : PeerCommand) (todo : List PeerAction) (shutdown : Bool)
  | stopped

/-- The actor has left its loop. -/
def Loop.isStopped : Loop → Bool
  | .stopped => true
  | _ => false

instance (l : Loop) : Decidable (l = .recv) :=
  match l with
  | .recv => isTrue rfl
  | .acting .. | .sending .. | .stopped => isFalse Loop.noConfusion

/-- The actor with its registry and its inbox. -/
structure Actor where
  reg : Registry
  inbox : List (Letter ℕ)
  loop : Loop
  /-- Pipes created so far; the next one gets this number. -/
  pipes : ℕ

/-- A producer or the actor itself takes a step. -/
inductive ActorLabel where
  | produce (letter : Letter ℕ)
  | pop (io : Io) (exact replaced : Option DeviceId)
  /-- `driver.execute` up to its first await. -/
  | execute
  /-- The awaited `inbox.send` completes. -/
  | sent
  /-- The peers map iterates in another order from now on. -/
  | reorder (ks : List DeviceId)

namespace Actor

/-- The channels and the clock created for a pipe. -/
def handlesOf (pipe : ℕ) : PipeHandles := ⟨pipe, pipe, pipe, pipe⟩

/-- `rx.recv`: the handler runs at once, and its actions are next. -/
def pop (io : Io) (exact replaced : Option DeviceId) (s : Actor) : Option Actor :=
  match s.loop, s.inbox with
  | .recv, letter :: rest =>
    let t := s.reg.runCommand io exact replaced letter.cmd
    some { s with
      reg := t.reg
      inbox := rest
      loop := .acting t.actions (decide (letter.cmd = .shutdown)) }
  | _, _ => none

/-- The next action. A pipe's handles are sent to the actor's own inbox. -/
def execute (s : Actor) : Option Actor :=
  match s.loop with
  | .acting [] shutdown => some { s with loop := if shutdown then .stopped else .recv }
  | .acting (.startDataPipe d _ txGen _ _ _ _ :: todo) shutdown =>
    some { s with
      loop := .sending (.dataPipeReady d txGen (handlesOf s.pipes)) todo shutdown
      pipes := s.pipes + 1 }
  | .acting (_ :: todo) shutdown => some { s with loop := .acting todo shutdown }
  | _ => none

/-- The inbox has a slot for them. -/
def sent (s : Actor) : Option Actor :=
  match s.loop with
  | .sending ready todo shutdown =>
    if s.inbox.length < inboxCapacity then
      some { s with inbox := s.inbox ++ [{ cmd := ready }], loop := .acting todo shutdown }
    else none
  | _ => none

/-- Actor and producers in any order. -/
def step : ActorLabel → Actor → Option Actor
  | .produce letter, s =>
    match s.loop with
    | .stopped => none
    | _ =>
      if s.inbox.length < inboxCapacity then some { s with inbox := s.inbox ++ [letter] } else none
  | .pop io exact replaced, s => s.pop io exact replaced
  | .execute, s => s.execute
  | .sent, s => s.sent
  | .reorder ks, s => (Registry.step (.reorder ks) s.reg).map fun reg => { s with reg := reg }

/-- Nothing is known and nothing waits. -/
def new (policy : L2capPolicy) (endpoint : EndpointId) : Actor := ⟨.new policy endpoint, [], .recv, 0⟩

/-- The system of actor and producers. -/
def system : System Actor ActorLabel where
  Init s := ∃ policy endpoint, s = new policy endpoint
  step := step

/-! ## What one step does -/

section Cases

variable {s s' : Actor}

/-- What is taken is the oldest letter, and what is next are the actions of its command. -/
theorem pop_cases {io : Io} {exact replaced : Option DeviceId}
    (hs : s.pop io exact replaced = some s') :
    ∃ letter rest, s.loop = .recv ∧ s.inbox = letter :: rest ∧ s' = { s with
      reg := (s.reg.runCommand io exact replaced letter.cmd).reg
      inbox := rest
      loop := .acting (s.reg.runCommand io exact replaced letter.cmd).actions
        (decide (letter.cmd = .shutdown)) } := by
  unfold pop at hs
  split at hs
  · rename_i letter rest hl hi
    exact ⟨letter, rest, hl, hi, (Option.some.inj hs).symm⟩
  · cases hs

/-- The actor is done with a command, starts a pipe, or executes another action. -/
theorem execute_cases (hs : s.execute = some s') :
    (∃ shutdown, s.loop = .acting [] shutdown ∧
      s' = { s with loop := if shutdown then .stopped else .recv }) ∨
    (∃ d l g role target path ch todo shutdown,
      s.loop = .acting (.startDataPipe d l g role target path ch :: todo) shutdown ∧
      s' = { s with
        loop := .sending (.dataPipeReady d g (handlesOf s.pipes)) todo shutdown
        pipes := s.pipes + 1 }) ∨
    ∃ a todo shutdown, s.loop = .acting (a :: todo) shutdown ∧ a.isStartDataPipe = false ∧
      s' = { s with loop := .acting todo shutdown } := by
  unfold execute at hs
  split at hs
  · rename_i shutdown hl
    exact .inl ⟨shutdown, hl, (Option.some.inj hs).symm⟩
  · rename_i d l g role target path ch todo shutdown hl
    exact .inr (.inl ⟨d, l, g, role, target, path, ch, todo, shutdown, hl,
      (Option.some.inj hs).symm⟩)
  · rename_i a todo shutdown hne hl
    have ha : a.isStartDataPipe = false := by
      cases a with
      | startDataPipe d l g role target path ch => exact absurd rfl (hne d l g role target path ch)
      | _ => rfl
    exact .inr (.inr ⟨a, todo, shutdown, hl, ha, (Option.some.inj hs).symm⟩)
  · cases hs

/-- The letter goes to the end of the inbox, and the actor goes on. -/
theorem sent_cases (hs : s.sent = some s') :
    ∃ ready todo shutdown, s.loop = .sending ready todo shutdown ∧
      s.inbox.length < inboxCapacity ∧ s' = { s with
        inbox := s.inbox ++ [{ cmd := ready }]
        loop := .acting todo shutdown } := by
  unfold sent at hs
  split at hs
  · rename_i ready todo shutdown hl
    split at hs
    · rename_i hroom
      exact ⟨ready, todo, shutdown, hl, hroom, (Option.some.inj hs).symm⟩
    · cases hs
  · cases hs

end Cases

/-! ## The actor finds its slot -/

/-- The slots the actor is still going to need for the command it is at. -/
def owed (s : Actor) : ℕ :=
  match s.loop with
  | .acting todo _ => todo.countP PeerAction.isStartDataPipe
  | .sending _ todo _ => todo.countP PeerAction.isStartDataPipe + 1
  | _ => 0

/-- The actor is suspended on its own, full inbox. -/
def Waits (s : Actor) : Prop :=
  match s.loop with
  | .sending .. => inboxCapacity ≤ s.inbox.length
  | _ => False

/-- A producer leaves the actor the slots it is going to need. -/
def SlotKept (s : Actor) (l : ActorLabel) : Prop :=
  match l with
  | .produce _ => s.inbox.length + s.owed < inboxCapacity
  | _ => True

/-- There is room for every command that the actor still owes itself. -/
def Roomy (s : Actor) : Prop := s.inbox.length + s.owed ≤ inboxCapacity

/-- An actor with room does not wait. -/
theorem not_waits_of_roomy {s : Actor} (h : s.Roomy) : ¬ s.Waits := by
  unfold Roomy owed at h
  unfold Waits
  split
  · rename_i ready todo shutdown hl
    rw [hl] at h
    dsimp only at h
    omega
  · exact id

/-- A command owes one at most, and frees the slot that it came from. -/
theorem roomy_pop {s s' : Actor} {io : Io} {exact replaced : Option DeviceId} (hk : s.reg.Keyed)
    (h : s.Roomy) (hs : s.pop io exact replaced = some s') : s'.Roomy := by
  rcases pop_cases hs with ⟨letter, rest, -, hi, rfl⟩
  have hone := starts_le_one hk io exact replaced letter.cmd
  rw [Turn.starts, ← List.countP_eq_length_filter] at hone
  unfold Roomy at h ⊢
  rw [hi, List.length_cons] at h
  change rest.length + (s.reg.runCommand io exact replaced letter.cmd).actions.countP _ ≤ _
  omega

/-- Executing neither fills the inbox nor changes what is owed. -/
theorem owed_execute {s s' : Actor} (hs : s.execute = some s') :
    s'.inbox = s.inbox ∧ s'.owed = s.owed := by
  rcases execute_cases hs with ⟨shutdown, hl, rfl⟩ |
    ⟨d, l, g, role, target, path, ch, todo, shutdown, hl, rfl⟩ | ⟨a, todo, shutdown, hl, ha, rfl⟩
  · cases shutdown <;> simp [owed, hl]
  · simp [owed, hl, List.countP_cons, PeerAction.isStartDataPipe]
  · simp [owed, hl, ha]

/-- What is paid is not owed any more. -/
theorem roomy_sent {s s' : Actor} (h : s.Roomy) (hs : s.sent = some s') : s'.Roomy := by
  rcases sent_cases hs with ⟨ready, todo, shutdown, hl, -, rfl⟩
  unfold Roomy owed at h ⊢
  rw [hl] at h
  simp only [List.length_append, List.length_singleton] at h ⊢
  omega

/-- A letter goes to the end of the inbox, and nothing else changes. -/
theorem produce_eq {s s' : Actor} {letter : Letter ℕ} (hs : step (.produce letter) s = some s') :
    s' = { s with inbox := s.inbox ++ [letter] } := by
  simp only [step] at hs
  split at hs
  · cases hs
  · split at hs
    · exact (Option.some.inj hs).symm
    · cases hs

/-- The registry keeps its entries under their devices. -/
theorem keyed_step {s s' : Actor} {l : ActorLabel} (hk : s.reg.Keyed)
    (hs : system.step l s = some s') : s'.reg.Keyed := by
  cases l with
  | produce letter =>
      obtain rfl := produce_eq hs
      exact hk
  | pop io exact replaced =>
      rcases pop_cases hs with ⟨letter, rest, -, -, rfl⟩
      exact runCommand_keyed hk io exact replaced letter.cmd
  | execute =>
      rcases execute_cases hs with ⟨_, _, rfl⟩ | ⟨_, _, _, _, _, _, _, _, _, _, rfl⟩ |
        ⟨_, _, _, _, _, rfl⟩ <;> exact hk
  | sent =>
      rcases sent_cases hs with ⟨_, _, _, _, _, rfl⟩
      exact hk
  | reorder ks =>
      rcases Option.map_eq_some_iff.mp hs with ⟨reg, hreg, rfl⟩
      exact keyed_reorder hk hreg

/-- The invariant over one step. -/
theorem roomy_step {s s' : Actor} {l : ActorLabel} (hk : s.reg.Keyed) (h : s.Roomy)
    (hC : SlotKept s l) (hs : system.step l s = some s') : s'.Roomy := by
  cases l with
  | produce letter =>
      obtain rfl := produce_eq hs
      unfold SlotKept at hC
      unfold Roomy
      rw [List.length_append, List.length_singleton]
      change s.inbox.length + 1 + s.owed ≤ _
      omega
  | pop io exact replaced => exact roomy_pop hk h hs
  | execute =>
      rcases owed_execute hs with ⟨hi, ho⟩
      unfold Roomy
      rw [hi, ho]
      exact h
  | sent => exact roomy_sent h hs
  | reorder ks =>
      rcases Option.map_eq_some_iff.mp hs with ⟨reg, -, rfl⟩
      exact h

/-- What every step keeps. -/
def Sound (s : Actor) : Prop := s.reg.Keyed ∧ s.Roomy

/-- As long as every producer leaves the actor the slots it is going to need, the actor
never waits on its own inbox. -/
theorem never_waits {h : List (Actor × ActorLabel)} {s : Actor} (hrun : system.Run h s)
    (hC : System.Meets SlotKept h) : ¬ s.Waits := by
  have hinv : s.Sound := by
    refine hrun.invariant ?_ ?_ hC
    · rintro s ⟨policy, endpoint, rfl⟩
      exact ⟨keyed_new policy endpoint, Nat.zero_le _⟩
    · rintro s l s' ⟨hk, hr⟩ hl hs
      exact ⟨keyed_step hk hs, roomy_step hk hr hl hs⟩
  exact not_waits_of_roomy hinv.2

/-- The condition is the exact one: once the inbox is full with a `StartDataPipe` still
to run, the actor's own steps lead to the wait. -/
theorem full_inbox_waits {s : Actor} {todo : List PeerAction} {shutdown : Bool}
    (hl : s.loop = .acting todo shutdown) (howed : 0 < s.owed)
    (hfull : s.inbox.length = inboxCapacity) :
    ∃ n s', system.exec (List.replicate n .execute) s = some s' ∧ s'.Waits := by
  induction todo generalizing s with
  | nil =>
      simp only [owed, hl] at howed
      exact absurd howed (by simp)
  | cons a todo ih =>
      by_cases ha : a.isStartDataPipe = true
      · cases a with
        | startDataPipe d l g role target path ch =>
            refine ⟨1, { s with
              loop := .sending (.dataPipeReady d g (handlesOf s.pipes)) todo shutdown
              pipes := s.pipes + 1 }, ?_, hfull.ge⟩
            simp [System.exec, system, step, execute, hl]
        | _ => cases ha
      · -- any other action is executed without waiting
        have hstep : system.step .execute s = some { s with loop := .acting todo shutdown } := by
          change s.execute = _
          unfold execute
          rw [hl]
          cases a with
          | startDataPipe d l g role target path ch => exact absurd rfl ha
          | _ => rfl
        have howed' : 0 < ({ s with loop := .acting todo shutdown } : Actor).owed := by
          simp only [owed, hl, List.countP_cons_of_neg ha] at howed
          exact howed
        obtain ⟨n, s', hex, hw⟩ := ih rfl howed' hfull
        refine ⟨n + 1, s', ?_, hw⟩
        rw [List.replicate_succ, System.exec, hstep]
        exact hex

instance (s : Actor) (l : ActorLabel) : Decidable (SlotKept s l) :=
  match l with
  | .produce _ => inferInstanceAs (Decidable (_ < _))
  | .pop .. | .execute | .sent | .reorder _ => isTrue trivial

instance (s : Actor) : Decidable s.Waits :=
  match hl : s.loop with
  | .sending .. =>
    decidable_of_iff (inboxCapacity ≤ s.inbox.length) (by rw [Waits, hl])
  | .recv | .acting .. | .stopped => isFalse (by rw [Waits, hl]; exact id)

theorem init_new (policy : L2capPolicy) (endpoint : EndpointId) :
    system.Init (new policy endpoint) := ⟨policy, endpoint, rfl⟩

/-- A first fragment starts a pipe. -/
def pipeRun : List ActorLabel :=
  [.produce ⟨.inboundGattFragment "peer" .peripheralReceivedC2p [1], none⟩, .pop (ioAt 0) none none,
    .produce ⟨.centralConnected "peer", none⟩, .execute]

/-- On a run: a pipe is started, and its handles find a slot. -/
theorem never_waits_pipeRun :
    ∃ h s, system.Run h s ∧ h.map Prod.snd = pipeRun ∧
      s.loop = .sending (.dataPipeReady "peer" 1 (handlesOf 0)) [] false ∧ ¬ s.Waits := by
  obtain ⟨h, s, hrun, hC, hl, hP⟩ := System.Run.of_execMeets (C := SlotKept)
    (P := fun s => (match s.loop with
      | .sending ready todo shutdown =>
        decide (ready = .dataPipeReady "peer" 1 (handlesOf 0) ∧ todo = [] ∧ shutdown = false)
      | _ => false) = true)
    pipeRun (init_new .disabled localEndpoint) (by decide +kernel)
  refine ⟨h, s, hrun, hl, ?_, never_waits hrun hC⟩
  cases hloop : s.loop with
  | sending ready todo shutdown =>
      simp only [hloop, decide_eq_true_eq] at hP
      rw [hP.1, hP.2.1, hP.2.2]
  | _ => simp [hloop] at hP

/-- While the actor handles the fragment, 256 more events arrive. -/
def floodRun : List ActorLabel :=
  [.produce ⟨.inboundGattFragment "peer" .peripheralReceivedC2p [1], none⟩, .pop (ioAt 0) none none] ++
    List.replicate 256 (.produce ⟨.centralConnected "peer", none⟩) ++ [.execute]

/-- Producers that fill the inbox in between have the actor wait for itself. -/
theorem flooded_inbox_waits :
    ∃ h s, system.Run h s ∧ h.map Prod.snd = floodRun ∧ s.Waits := by
  obtain ⟨h, s, hrun, hl, hw⟩ := System.Run.of_exec (P := fun s : Actor => s.Waits)
    floodRun (init_new .disabled localEndpoint) (by decide +kernel)
  exact ⟨h, s, hrun, hl, hw⟩

end Actor

end IrohBle
