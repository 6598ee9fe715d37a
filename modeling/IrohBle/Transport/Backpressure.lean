import IrohBle.Actor

/-! # Transport.Backpressure: senders parked on a full inbox

`BleSender::poll_send` never waits for a slot. It tries to send its command; if the inbox is
full it parks its waker and tries once more, and only then returns `Pending`. `Registry::run`
takes the parked wakers after every pop and wakes them all.

* Any number of calls are under way, each between two of its steps, and the actor is between
  two of its own. What `poll_send` looks up before it has a command is part of the label.
* `parked_is_woken`: as long as no call is turned away while the actor is at a `Shutdown`, every
  sender that waits is parked and the actor is going to wake it.
* `stranded_by_shutdown`: a call that is turned away then waits for an actor that is gone.
-/

namespace IrohBle

open Lib Reliable Registry

/-! ## The calls -/

/-- What `poll_send` returns when it is ready. -/
inductive PollSend where
  | ok
  | err (kind : ErrorKind) (text : String)
deriving DecidableEq, Repr

/-- What `poll_send` answers when the inbox is gone. -/
def shutDown : PollSend := .err .brokenPipe "transport shut down"

/-- Where a call of `poll_send` is. -/
inductive Place where
  /-- About to try the inbox for the first time. -/
  | trying
  /-- The inbox was full. -/
  | refused
  /-- The waker is parked, and the inbox about to be tried again. -/
  | parked
  | pending
  | ready (result : PollSend)
deriving DecidableEq, Repr

/-- A call of `poll_send` from its first try on. -/
structure Call where
  device : DeviceId
  targetEndpoint : Option EndpointId
  send : PendingSend
  place : Place := .trying
  /-- The waker has been woken since it was parked. -/
  woken : Bool := false
deriving DecidableEq

namespace Call

/-- The command it sends. -/
def cmd (c : Call) : PeerCommand :=
  .sendDatagram c.device c.targetEndpoint c.send.txGen c.send.datagram c.send.waker

/-- The call returned `Pending`, and its task has not been woken. -/
def waits (c : Call) : Bool := c.place == .pending && !c.woken

/-- The waker `w` is woken. -/
def wake (w : Waker) (c : Call) : Call := if c.send.waker = w then { c with woken := true } else c

end Call

/-! ## The actor between a pop and `handle` -/

/-- What the actor holds between the pop of a letter and its handling. -/
inductive Hand where
  | empty
  | popped (letter : Letter ℕ)
  /-- The parked wakers are taken, and `toWake` are still to be woken. -/
  | waking (letter : Letter ℕ) (toWake : List Waker)

/-- The wakers that are taken and not yet woken. -/
def Hand.toWake : Hand → List Waker
  | .waking _ ws => ws
  | _ => []

/-- Whether the parked wakers have still to be taken. -/
def Hand.isPopped : Hand → Bool
  | .popped _ => true
  | _ => false

/-- A `Shutdown` for which the parked wakers are taken. -/
def Hand.isShutdown : Hand → Bool
  | .waking letter _ => decide (letter.cmd = .shutdown)
  | _ => false

/-- Whether the actor stops after what it is at. -/
def Loop.isShutdown : Loop → Bool
  | .acting _ shutdown => shutdown
  | .sending _ _ shutdown => shutdown
  | _ => false

/-- The actor, the parked wakers and the calls under way. -/
structure Backpressure where
  actor : Actor
  hand : Hand := .empty
  inboxCapacityWakers : List Waker := []
  calls : List Call := []
  txBytes : ℕ := 0

/-- The steps of the calls, of the others that send, and of the actor. -/
inductive BackpressureLabel where
  | poll (device : DeviceId) (target : Option EndpointId) (send : PendingSend)
  /-- The first `try_send` of a call, or the second. -/
  | trySend (call : ℕ)
  | park (call : ℕ)
  /-- Anything else that sends to the inbox. -/
  | produce (letter : Letter ℕ)
  | pop
  | take
  | wake
  | handle (io : Io) (exact replaced : Option DeviceId)
  | execute
  | sent
  | reorder (ks : List DeviceId)

namespace Backpressure

/-- A waker is woken. -/
def wake (w : Waker) (s : Backpressure) : Backpressure := { s with calls := s.calls.map (Call.wake w) }

/-- The `i`th call moves on. -/
def setCall (i : ℕ) (c : Call) (s : Backpressure) : Backpressure := { s with calls := s.calls.set i c }

/-- A call whose command is taken, or cannot be any more, is ready; `full` is where it goes on
otherwise. -/
def offer (i : ℕ) (c : Call) (full : Place) (s : Backpressure) : Backpressure :=
  if s.actor.loop.isStopped then s.setCall i { c with place := .ready shutDown }
  else if s.actor.inbox.length < inboxCapacity then
    { s.setCall i { c with place := .ready .ok } with
      actor := { s.actor with inbox := s.actor.inbox ++ [{ cmd := c.cmd }] }
      txBytes := s.txBytes + c.send.datagram.length }
  else s.setCall i { c with place := full }

/-- A call tries: the first refusal lets it park, the second lets it wait. -/
def trySend (i : ℕ) (s : Backpressure) : Option Backpressure :=
  s.calls[i]?.bind fun c =>
    match c.place with
    | .trying => some (s.offer i c .refused)
    | .parked => some (s.offer i c .pending)
    | _ => none

/-- A refused call parks its waker. -/
def park (i : ℕ) (s : Backpressure) : Option Backpressure :=
  s.calls[i]?.bind fun c =>
    match c.place with
    | .refused =>
      some { s.setCall i { c with place := .parked, woken := false } with
        inboxCapacityWakers := s.inboxCapacityWakers ++ [c.send.waker] }
    | _ => none

/-- The actor takes a letter. -/
def pop (s : Backpressure) : Option Backpressure :=
  match s.hand, s.actor.loop, s.actor.inbox with
  | .empty, .recv, letter :: rest =>
    some { s with actor := { s.actor with inbox := rest }, hand := .popped letter }
  | _, _, _ => none

/-- It takes the parked wakers. -/
def take (s : Backpressure) : Option Backpressure :=
  match s.hand with
  | .popped letter =>
    some { s with hand := .waking letter s.inboxCapacityWakers, inboxCapacityWakers := [] }
  | _ => none

/-- It wakes the next of them. -/
def wakeNext (s : Backpressure) : Option Backpressure :=
  match s.hand with
  | .waking letter (w :: ws) => some ({ s with hand := .waking letter ws }.wake w)
  | _ => none

/-- What `run` does with the command in hand is what the actor does with one it pops. -/
def handle (io : Io) (exact replaced : Option DeviceId) (s : Backpressure) : Option Backpressure :=
  match s.hand with
  | .waking letter [] =>
    ({ s.actor with inbox := letter :: s.actor.inbox }.pop io exact replaced).map fun actor =>
      { s with actor := actor, hand := .empty }
  | _ => none

/-- Executing an `AckSend` wakes the sender. -/
def execute (s : Backpressure) : Option Backpressure :=
  s.actor.execute.map fun actor =>
    match s.actor.loop with
    | .acting (.ackSend _ w _ :: _) _ => { s with actor := actor }.wake w
    | _ => { s with actor := actor }

/-- One step. -/
def step : BackpressureLabel → Backpressure → Option Backpressure
  | .poll device target send, s =>
    some { s with calls := s.calls ++ [⟨device, target, send, .trying, false⟩] }
  -- the two `try_send`s, and the parking between them
  | .trySend i, s => s.trySend i
  | .park i, s => s.park i
  | .produce letter, s =>
    (Actor.step (.produce letter) s.actor).map fun actor => { s with actor := actor }
  -- the three parts of one turn of `Registry::run`
  | .pop, s => s.pop
  | .take, s => s.take
  | .wake, s => s.wakeNext
  | .handle io exact replaced, s => s.handle io exact replaced
  | .execute, s => s.execute
  | .sent, s => s.actor.sent.map fun actor => { s with actor := actor }
  | .reorder ks, s =>
    (Actor.step (.reorder ks) s.actor).map fun actor => { s with actor := actor }

/-- The inbox and its senders as a transition system. -/
def system : System Backpressure BackpressureLabel where
  Init s := ∃ policy endpoint, s = { actor := .new policy endpoint }
  step := step

/-! ## Who is going to be woken -/

/-- The waker is parked and the actor is going to take the list, or it has been taken and not been
woken yet. -/
def Awaited (s : Backpressure) (w : Waker) : Prop :=
  w ∈ s.inboxCapacityWakers ∧
      (s.actor.loop.isStopped = false ∧ s.actor.inbox ≠ [] ∨ s.hand.isPopped = true) ∨
    w ∈ s.hand.toWake

/-- Every sender that waits is going to be woken. -/
def Attended (s : Backpressure) : Prop := ∀ c ∈ s.calls, c.waits = true → s.Awaited c.send.waker

/-- The actor is at a `Shutdown`, and takes the parked wakers no more. -/
def closing (s : Backpressure) : Bool := s.hand.isShutdown || s.actor.loop.isShutdown

/-- A parked call that tries again while the actor is at a `Shutdown` finds a slot, or has been
woken or is about to be. -/
def NotTurnedAway (s : Backpressure) : BackpressureLabel → Prop
  | .trySend i => s.closing = true → ∀ c ∈ s.calls[i]?, c.place = .parked → c.woken = false →
    c.send.waker ∉ s.hand.toWake → s.actor.inbox.length < inboxCapacity
  | _ => True

instance (s : Backpressure) (l : BackpressureLabel) : Decidable (NotTurnedAway s l) :=
  match l with
  | .trySend _ => inferInstanceAs (Decidable (_ → _))
  | .poll .. | .park _ | .produce _ | .pop | .take | .wake | .handle .. | .execute | .sent
  | .reorder _ => isTrue trivial

/-! ## The invariant -/

/-- The actor is going to pop and take the parked wakers. -/
structure Attending (s : Backpressure) : Prop where
  closing : s.closing = false
  running : s.actor.loop.isStopped = false
  busy : s.actor.inbox ≠ [] ∨ s.hand.isPopped = true

/-- A call that has parked is in the list, or taken out of it to be woken. One that waits relies on
the actor too. -/
structure Kept (s : Backpressure) (c : Call) : Prop where
  parked : c.woken = false → c.place = .parked →
    c.send.waker ∈ s.inboxCapacityWakers ∨ c.send.waker ∈ s.hand.toWake
  pending : c.woken = false → c.place = .pending →
    c.send.waker ∈ s.inboxCapacityWakers ∧ s.Attending ∨ c.send.waker ∈ s.hand.toWake

/-- Every call that waits will be woken. -/
def Inv (s : Backpressure) : Prop := ∀ c ∈ s.calls, s.Kept c

variable {s s' : Backpressure}

/-- A step that lets go of no waker, and that leaves the actor attending. -/
theorem Kept.carry {c : Call} (h : s.Kept c)
    (hwakers : s.inboxCapacityWakers ⊆ s'.inboxCapacityWakers)
    (htaken : c.woken = false → c.send.waker ∈ s.hand.toWake → c.send.waker ∈ s'.hand.toWake)
    (hattending : s.Attending → s'.Attending) : s'.Kept c where
  parked hno hplace := (h.parked hno hplace).imp (fun hmem => hwakers hmem) (htaken hno)
  pending hno hplace := by
    rcases h.pending hno hplace with ⟨hmem, hs⟩ | hmem
    · exact .inl ⟨hwakers hmem, hattending hs⟩
    · exact .inr (htaken hno hmem)

/-- A call that has not parked, or is done, relies on nothing. -/
theorem Kept.of_place {c : Call} (hparked : c.place ≠ .parked) (hpending : c.place ≠ .pending) :
    s.Kept c :=
  ⟨fun _ h => absurd h hparked, fun _ h => absurd h hpending⟩

theorem Kept.of_woken {c : Call} (h : c.woken = true) : s.Kept c := by
  have hno : c.woken ≠ false := by simp [h]
  exact ⟨fun h' => absurd h' hno, fun h' => absurd h' hno⟩

/-- Waking a waker does no harm to the calls of the others. -/
theorem Kept.wake {c : Call} {w : Waker} (h : c.send.waker ≠ w → s.Kept c) : s.Kept (c.wake w) := by
  unfold Call.wake
  split
  · exact .of_woken rfl
  · rename_i hne
    exact h hne

theorem Inv.carry (h : Inv s) (hcalls : s'.calls = s.calls)
    (hwakers : s.inboxCapacityWakers ⊆ s'.inboxCapacityWakers)
    (htaken : s.hand.toWake ⊆ s'.hand.toWake) (hattending : s.Attending → s'.Attending) : Inv s' := by
  intro c hc
  rw [hcalls] at hc
  exact (h c hc).carry hwakers (fun _ hmem => htaken hmem) hattending

/-- Waking keeps the invariant. -/
theorem Inv.wake (h : Inv s) (w : Waker) : Inv (s.wake w) := by
  intro c' hc'
  obtain ⟨c, hc, rfl⟩ := List.mem_map.mp hc'
  refine Kept.wake fun _ => ?_
  exact (h c hc).carry (List.Subset.refl _) (fun _ hmem => hmem)
    fun ha => ⟨ha.closing, ha.running, ha.busy⟩

/-- One call changes. -/
theorem Inv.setCall (h : Inv s) {i : ℕ} {c : Call} (hcalls : s'.calls = s.calls.set i c)
    (hc : s'.Kept c) (hwakers : s.inboxCapacityWakers ⊆ s'.inboxCapacityWakers)
    (hhand : s'.hand = s.hand) (hattending : s.Attending → s'.Attending) : Inv s' := by
  intro c' hc'
  rw [hcalls] at hc'
  rcases List.mem_or_eq_of_mem_set hc' with hc' | rfl
  · refine (h c' hc').carry hwakers (fun _ hmem => ?_) hattending
    rw [hhand]
    exact hmem
  · exact hc

/-! ## The steps of a call -/

/-- A call that finds the inbox full goes on at `full`; the others are ready. -/
theorem Inv.offer (h : Inv s) {i : ℕ} {c : Call} {full : Place}
    (hc : s.actor.loop.isStopped = false → inboxCapacity ≤ s.actor.inbox.length →
      s.Kept { c with place := full }) : Inv (s.offer i c full) := by
  have hready : ∀ (s' : Backpressure) result, s'.Kept { c with place := .ready result } :=
    fun _ _ => .of_place Place.noConfusion Place.noConfusion
  unfold Backpressure.offer
  -- the actor is gone, the inbox has a slot, or it is full
  split
  · exact h.setCall rfl (hready _ _) (List.Subset.refl _) rfl
      fun ha => ⟨ha.closing, ha.running, ha.busy⟩
  · rename_i hrunning
    split
    · refine h.setCall rfl (hready _ _) (List.Subset.refl _) rfl ?_
      intro ha
      exact ⟨ha.closing, ha.running, .inl (by simp)⟩
    · rename_i hroom
      refine h.setCall rfl ?_ (List.Subset.refl _) rfl fun ha => ⟨ha.closing, ha.running, ha.busy⟩
      refine (hc (by simpa using hrunning) (Nat.not_lt.mp hroom)).carry (List.Subset.refl _)
        (fun _ hmem => hmem) fun ha => ⟨ha.closing, ha.running, ha.busy⟩

/-- A try keeps it, unless it is turned away by an actor at a Shutdown. -/
theorem Inv.trySend (h : Inv s) {i : ℕ} (hC : NotTurnedAway s (.trySend i))
    (hs : s.trySend i = some s') : Inv s' := by
  obtain ⟨c, hc, hs⟩ := Option.bind_eq_some_iff.mp hs
  split at hs
  · obtain rfl := Option.some.inj hs
    refine h.offer fun _ _ => ?_
    exact .of_place Place.noConfusion Place.noConfusion
  · rename_i hplace
    obtain rfl := Option.some.inj hs
    refine h.offer fun hrunning hfull => ⟨fun _ heq => Place.noConfusion heq, fun hno _ => ?_⟩
    rcases (h c (List.mem_of_getElem? hc)).parked hno hplace with hmem | hmem
    · by_cases htaken : c.send.waker ∈ s.hand.toWake
      · exact .inr htaken
      · -- it is turned away, so the actor is not at a `Shutdown`, and the inbox is full
        have hclosing : s.closing = false := by
          rw [Bool.eq_false_iff]
          intro hclosing
          have hroom := hC hclosing c hc hplace hno htaken
          omega
        refine .inl ⟨hmem, hclosing, hrunning, .inl ?_⟩
        intro hnil
        rw [hnil] at hfull
        exact absurd hfull (by decide)
    · exact .inr hmem
  · cases hs

/-- Parking keeps it. -/
theorem Inv.park (h : Inv s) {i : ℕ} (hs : s.park i = some s') : Inv s' := by
  obtain ⟨c, hc, hs⟩ := Option.bind_eq_some_iff.mp hs
  split at hs
  · obtain rfl := Option.some.inj hs
    refine h.setCall rfl ?_ (List.subset_append_left _ _) rfl
      fun ha => ⟨ha.closing, ha.running, ha.busy⟩
    exact ⟨fun _ _ => .inl (List.mem_append_right _ List.mem_cons_self),
      fun _ heq => Place.noConfusion heq⟩
  · cases hs

/-! ## The steps of the actor -/

/-- Taking a letter keeps the invariant. -/
theorem Inv.pop (h : Inv s) (hs : s.pop = some s') : Inv s' := by
  unfold Backpressure.pop at hs
  split at hs
  · rename_i letter rest hhand hloop hinbox
    obtain rfl := Option.some.inj hs
    refine h.carry rfl (List.Subset.refl _) ?_ ?_
    · rw [hhand]
      exact List.Subset.refl _
    · intro _
      refine ⟨?_, ?_, .inr rfl⟩
      · change (false || s.actor.loop.isShutdown) = false
        rw [hloop]
        rfl
      · change s.actor.loop.isStopped = false
        rw [hloop]
        rfl
  · cases hs

/-- Taking the parked wakers, all of them, keeps the invariant. -/
theorem Inv.take (h : Inv s) (hs : s.take = some s') : Inv s' := by
  unfold Backpressure.take at hs
  split at hs
  · rename_i letter hhand
    obtain rfl := Option.some.inj hs
    have hnone : s.hand.toWake = [] := by
      rw [hhand]
      rfl
    -- everyone in the list is woken next
    intro c hc
    refine ⟨fun hno hplace => .inr ?_, fun hno hplace => .inr ?_⟩
    · have hmem := (h c hc).parked hno hplace
      rw [hnone] at hmem
      exact hmem.resolve_right List.not_mem_nil
    · have hmem := (h c hc).pending hno hplace
      rw [hnone] at hmem
      exact (hmem.resolve_right List.not_mem_nil).1
  · cases hs

/-- Waking the next waker keeps the invariant. -/
theorem Inv.wakeNext (h : Inv s) (hs : s.wakeNext = some s') : Inv s' := by
  unfold Backpressure.wakeNext at hs
  split at hs
  · rename_i letter w ws hhand
    obtain rfl := Option.some.inj hs
    intro c' hc'
    obtain ⟨c, hc, rfl⟩ := List.mem_map.mp hc'
    refine Kept.wake fun hne => ?_
    refine (h c hc).carry (List.Subset.refl _) ?_ ?_
    · intro _ hmem
      rw [hhand] at hmem
      exact (List.mem_cons.mp hmem).resolve_left hne
    · intro ha
      have hclosing := ha.closing
      have hbusy := ha.busy
      unfold Backpressure.closing at hclosing
      rw [hhand] at hclosing hbusy
      exact ⟨hclosing, ha.running, hbusy⟩
  · cases hs

/-- Handling the letter keeps the invariant. -/
theorem Inv.handle (h : Inv s) {io : Io} {exact replaced : Option DeviceId}
    (hs : s.handle io exact replaced = some s') : Inv s' := by
  unfold Backpressure.handle at hs
  split at hs
  · rename_i letter hhand
    obtain ⟨actor, hpop, rfl⟩ := Option.map_eq_some_iff.mp hs
    -- the letter that the actor pops is the one in hand, so the inbox is as it was
    obtain ⟨letter', rest, hloop, hinbox, rfl⟩ := Actor.pop_cases hpop
    obtain ⟨rfl, rfl⟩ := List.cons.inj hinbox
    refine h.carry rfl (List.Subset.refl _) ?_ ?_
    · rw [hhand]
      exact List.Subset.refl _
    · intro ha
      have hclosing := ha.closing
      have hbusy := ha.busy
      unfold Backpressure.closing at hclosing
      rw [hhand] at hclosing hbusy
      exact ⟨(Bool.or_eq_false_iff.mp hclosing).1, rfl, hbusy⟩
  · cases hs

/-- The actor goes on: it is not at a `Shutdown` if it was not before, and takes nothing out of its
inbox. -/
theorem Inv.actor (h : Inv s) {actor : Actor}
    (hloop : s.actor.loop.isShutdown = false → s.actor.loop.isStopped = false →
      actor.loop.isShutdown = false ∧ actor.loop.isStopped = false)
    (hinbox : s.actor.inbox ≠ [] → actor.inbox ≠ []) : Inv { s with actor := actor } := by
  refine h.carry rfl (List.Subset.refl _) (List.Subset.refl _) ?_
  intro ha
  obtain ⟨hhand, hshutdown⟩ := Bool.or_eq_false_iff.mp ha.closing
  obtain ⟨hshutdown', hrunning'⟩ := hloop hshutdown ha.running
  refine ⟨?_, hrunning', ha.busy.imp_left hinbox⟩
  exact Bool.or_eq_false_iff.mpr ⟨hhand, hshutdown'⟩

/-- Executing an action keeps the invariant. -/
theorem Inv.execute (h : Inv s) (hs : s.execute = some s') : Inv s' := by
  obtain ⟨actor, hactor, rfl⟩ := Option.map_eq_some_iff.mp hs
  have hgoes : Inv { s with actor := actor } := by
    rcases Actor.execute_cases hactor with ⟨shutdown, hl, rfl⟩ |
      ⟨d, l, g, role, target, path, ch, todo, shutdown, hl, rfl⟩ | ⟨a, todo, shutdown, hl, -, rfl⟩
    · -- it stops after a `Shutdown` only
      refine h.actor ?_ id
      intro hshutdown _
      rw [hl] at hshutdown
      cases shutdown with
      | true => cases hshutdown
      | false => exact ⟨rfl, rfl⟩
    · refine h.actor ?_ id
      intro hshutdown _
      rw [hl] at hshutdown
      exact ⟨hshutdown, rfl⟩
    · refine h.actor ?_ id
      intro hshutdown _
      rw [hl] at hshutdown
      exact ⟨hshutdown, rfl⟩
  split
  · exact hgoes.wake _
  · exact hgoes

theorem Inv.sent (h : Inv s) {actor : Actor} (hs : s.actor.sent = some actor) :
    Inv { s with actor := actor } := by
  obtain ⟨ready, todo, shutdown, hl, -, rfl⟩ := Actor.sent_cases hs
  refine h.actor ?_ fun _ => by simp
  intro hshutdown _
  rw [hl] at hshutdown
  exact ⟨hshutdown, rfl⟩

/-! ## Runs -/

/-- Every step in which nobody is turned away keeps it. -/
theorem inv_step {l : BackpressureLabel} (h : Inv s) (hC : NotTurnedAway s l)
    (hs : system.step l s = some s') : Inv s' := by
  cases l with
  | poll device target send =>
      obtain rfl := Option.some.inj hs
      intro c hc
      rcases List.mem_append.mp hc with hc | hc
      · exact (h c hc).carry (List.Subset.refl _) (fun _ hmem => hmem)
          fun ha => ⟨ha.closing, ha.running, ha.busy⟩
      · obtain rfl := List.mem_singleton.mp hc
        exact .of_place Place.noConfusion Place.noConfusion
  | trySend i => exact h.trySend hC hs
  | park i => exact h.park hs
  | produce letter =>
      obtain ⟨actor, hactor, rfl⟩ := Option.map_eq_some_iff.mp hs
      obtain rfl := Actor.produce_eq hactor
      exact h.actor (fun hshutdown hrunning => ⟨hshutdown, hrunning⟩) fun _ => by simp
  | pop => exact h.pop hs
  | take => exact h.take hs
  | wake => exact h.wakeNext hs
  | handle io exact replaced => exact h.handle hs
  | execute => exact h.execute hs
  | sent =>
      obtain ⟨actor, hactor, rfl⟩ := Option.map_eq_some_iff.mp hs
      exact h.sent hactor
  | reorder ks =>
      obtain ⟨actor, hactor, rfl⟩ := Option.map_eq_some_iff.mp hs
      obtain ⟨reg, -, rfl⟩ := Option.map_eq_some_iff.mp hactor
      exact h.actor (fun hshutdown hrunning => ⟨hshutdown, hrunning⟩) id

/-- A parked sender is one the actor is going to wake. -/
theorem Inv.attended (h : Inv s) : s.Attended := by
  intro c hc hwaits
  obtain ⟨hpending, hno⟩ := Bool.and_eq_true_iff.mp hwaits
  rcases (h c hc).pending (by simpa using hno) (eq_of_beq hpending) with ⟨hmem, ha⟩ | hmem
  · refine .inl ⟨hmem, ?_⟩
    exact ha.busy.imp_left fun hbusy => ⟨ha.running, hbusy⟩
  · exact .inr hmem

/-- As long as no call is turned away while the actor is at a `Shutdown`, every sender that waits
is going to be woken. -/
theorem parked_is_woken {h : List (Backpressure × BackpressureLabel)} (hrun : system.Run h s)
    (hC : System.Meets NotTurnedAway h) : s.Attended := by
  have hinv : Inv s := by
    refine hrun.invariant ?_ (fun s l s' => inv_step) hC
    rintro s ⟨policy, endpoint, rfl⟩ c hc
    cases hc
  exact hinv.attended

theorem init_new : system.Init { actor := .new .disabled localEndpoint } :=
  ⟨.disabled, localEndpoint, rfl⟩

/-- The inbox fills up, and a sender finds it full twice. -/
def fullRun : List BackpressureLabel :=
  List.replicate 256 (.produce ⟨.centralConnected "peer", none⟩) ++
    [.poll "peer" none ⟨0, [1], 7⟩, .trySend 0, .park 0, .trySend 0]

/-- A run with a full inbox, in which a sender waits. -/
theorem parked_is_woken_fullRun : ∃ h s, system.Run h s ∧ h.map Prod.snd = fullRun ∧
    s.calls.map Call.waits = [true] ∧ s.Attended := by
  obtain ⟨h, s, hrun, hC, hl, hwaits⟩ := System.Run.of_execMeets (C := NotTurnedAway)
    (P := fun s => s.calls.map Call.waits = [true]) fullRun init_new (by decide +kernel)
  exact ⟨h, s, hrun, hl, hwaits, parked_is_woken hrun hC⟩

/-- The same while the actor is at a `Shutdown`, after which it returns. -/
def shutdownRun : List BackpressureLabel :=
  [.produce ⟨.shutdown, none⟩, .pop, .take, .handle (ioAt 0) none none] ++ fullRun ++ [.execute]

/-- A run with a Shutdown, in which a sender waits for an actor that has stopped. -/
theorem stranded_by_shutdown : ∃ h s, system.Run h s ∧ h.map Prod.snd = shutdownRun ∧
    s.actor.loop.isStopped = true ∧ s.hand.toWake = [] ∧ s.hand.isPopped = false ∧
    s.calls.map Call.waits = [true] ∧ ¬ s.Attended := by
  obtain ⟨h, s, hrun, hl, hstopped, htaken, hpopped, hwaits⟩ := System.Run.of_exec
    (P := fun s : Backpressure => s.actor.loop.isStopped = true ∧ s.hand.toWake = [] ∧
      s.hand.isPopped = false ∧ s.calls.map Call.waits = [true])
    shutdownRun init_new (by decide +kernel)
  refine ⟨h, s, hrun, hl, hstopped, htaken, hpopped, hwaits, ?_⟩
  intro hattended
  obtain ⟨c, hc, hwait⟩ := List.mem_map.mp (hwaits ▸ List.mem_cons_self : true ∈ s.calls.map Call.waits)
  rcases hattended c hc hwait with ⟨-, ⟨hrunning, -⟩ | hpopped'⟩ | hmem
  · rw [hstopped] at hrunning
    cases hrunning
  · rw [hpopped] at hpopped'
    cases hpopped'
  · rw [htaken] at hmem
    cases hmem

end Backpressure

end IrohBle
