import IrohBle.Node.Model

/-! # Node.Zombie: a pipe that is gone leaves no live entry behind

The registry learns of the end of a pipe only from the `Stalled` of one of its workers.

* `Inv`: handles are handed over in the order in which the pipes were started, the pipe of a
  live session has the session's generation, and as long as it is not gone somebody holds its
  channels.
* `no_zombie`: once the supervisor of an entry's pipe has returned and its commands are
  handled, the entry is not `Connected`, as long as no L2CAP worker is evicted on time from a
  pipe that has no GATT worker (`FallsBack`).
* `zombie_after_timeout`: after such an eviction the supervisor returns, nobody reports it,
  and the entry stays `Connected`.
-/

namespace IrohBle.Node

open Lib Reliable Registry

/-- A `StartDataPipe` still to run is for its entry's generation. -/
def StartOk (reg : Registry) : PeerAction → Prop
  | .startDataPipe d _ txGen _ _ path l2cap =>
    (∃ e, reg.peer d = some e ∧ e.txGen = txGen) ∧ (path = .l2cap → l2cap.isSome = true)
  | _ => True

/-- How the pipes, the letters on their way and the entries of the registry belong together. -/
structure Inv (s : Node) : Prop where
  keyed : s.actor.reg.Keyed
  count : s.actor.pipes = s.pipes.length
  order : ∃ k, k ≤ s.pipes.length ∧ s.readies = List.range' k (s.pipes.length - k)
  letters : ∀ d txGen handles, PeerCommand.dataPipeReady d txGen handles ∈ s.queued →
    ∃ i p, handles = Actor.handlesOf i ∧ s.pipes[i]? = some p ∧ p.device = d ∧ p.txGen = txGen
  todo : ∀ a ∈ s.actor.loop.todo, StartOk s.actor.reg a
  gen : ∀ (i : ℕ) (p : DataPipe), s.pipes[i]? = some p → s.current i = true →
    ∃ e, s.actor.reg.peer p.device = some e ∧ e.txGen = p.txGen
  held : ∀ (i : ℕ) (p : DataPipe), s.pipes[i]? = some p → s.current i = true → i ∈ s.readies ∨
    (∃ e, s.actor.reg.peer p.device = some e ∧ e.pipe = some (Actor.handlesOf i)) ∨
    p.supervisor = .exited

variable {s s' : Node} {l : NodeLabel}

/-! ## Keys, counts and the order of the handles -/

/-- A step keeps the entries under their own devices. -/
theorem Moved.keyed (h : Moved s l s') (hk : s.actor.reg.Keyed) : s'.actor.reg.Keyed := by
  cases h with
  | pop hl hin ht hpipes =>
      rw [ht]
      exact runCommand_keyed hk _ _ _ _
  | reorder h => exact fun d e he => hk d e ((h d).symm.trans he)
  | _ => exact hk

/-- Only a `StartDataPipe` adds a pipe. -/
theorem Moved.length (h : Moved s l s')
    (hno : ∀ d g txGen role target path l2cap todo shutdown, l = .execute → s.actor.loop ≠
      .acting (.startDataPipe d g txGen role target path l2cap :: todo) shutdown) :
    s'.pipes.length = s.pipes.length := by
  cases h with
  | pop hl hin ht hpipes => exact (refilled_attempts hpipes).1
  | start hl => exact absurd hl (hno _ _ _ _ _ _ _ _ _ rfl)
  | act hl ha hpipes => exact hpipes.1
  | pipe hp hm hin => exact List.length_set
  | _ => rfl

/-- As many pipes have been started as the actor has counted. -/
theorem Moved.count (h : Moved s l s') (hc : s.actor.pipes = s.pipes.length) :
    s'.actor.pipes = s'.pipes.length := by
  cases h with
  | pop hl hin ht hpipes =>
      dsimp only
      rw [hc, (refilled_attempts hpipes).1]
  | start hl =>
      dsimp only
      rw [hc, List.length_append, List.length_singleton]
  | act hl ha hpipes =>
      dsimp only
      rw [hc, hpipes.1]
  | pipe hp hm hin =>
      dsimp only
      rw [hc, List.length_set]
  | _ => exact hc

theorem queued_recv (hl : s.actor.loop.sending? = none) : s.queued = s.actor.inbox.map Letter.cmd := by
  rw [queued, hl]
  exact List.append_nil _

/-- A command that hands no handles over changes nothing about those that do. -/
theorem readies_post {cmd : PeerCommand} {letter : Letter ℕ} (hcmd : letter.cmd = cmd)
    (hr : cmd.ready? = none) (pipes : List DataPipe) :
    (⟨{ s.actor with inbox := s.actor.inbox ++ [letter] }, pipes⟩ : Node).readies = s.readies := by
  simp [readies, queued, hcmd, hr]

/-- What does not come from a pipe hands no handles over. -/
theorem ready?_of_fromPipe {cmd : PeerCommand} (h : cmd.fromPipe = false) : cmd.ready? = none := by
  cases cmd with
  | dataPipeReady d g handles => cases h
  | _ => rfl

/-- A letter of a pipe is no handover. -/
theorem Posted.readies {i : ℕ} {p p' : DataPipe} {held : Bool} {pl : PipeLabel}
    {cmd : Option PeerCommand} {inbox : List (Letter ℕ)} (h : Posted s i cmd inbox)
    (hm : p.Move held pl p' cmd) (pipes : List DataPipe) :
    (⟨{ s.actor with inbox := inbox }, pipes⟩ : Node).readies = s.readies := by
  rcases h with ⟨-, rfl⟩ | ⟨c, hc, -, rfl⟩
  · rfl
  · refine readies_post rfl ?_ pipes
    rcases hm.cmd_cases hc with rfl | rfl <;> rfl

/-- A step keeps the handovers in the order of the starts. -/
theorem Moved.order (h : Moved s l s') (hcount : s.actor.pipes = s.pipes.length)
    (ho : ∃ k, k ≤ s.pipes.length ∧ s.readies = List.range' k (s.pipes.length - k)) :
    ∃ k, k ≤ s'.pipes.length ∧ s'.readies = List.range' k (s'.pipes.length - k) := by
  rcases ho with ⟨k, hk, hr⟩
  cases h with
  | dropped h => exact ⟨k, hk, hr⟩
  | external hcmd =>
      refine ⟨k, hk, ?_⟩
      rw [readies_post rfl (ready?_of_fromPipe hcmd)]
      exact hr
  | @pop io exact replaced letter rest t pipes hl hin ht hpipes =>
      rw [readies, queued_recv (by rw [hl]; rfl), hin, List.map_cons] at hr
      have hrest : (⟨{ s.actor with
          reg := t.reg, inbox := rest, loop := .acting t.actions (decide (letter.cmd = .shutdown)) },
          pipes⟩ : Node).readies = (rest.map Letter.cmd).filterMap PeerCommand.ready? := by
        rw [readies, queued_recv rfl]
      rw [(refilled_attempts hpipes).1, hrest]
      cases hready : letter.cmd.ready? with
      | none =>
          rw [List.filterMap_cons_none hready] at hr
          exact ⟨k, hk, hr⟩
      | some i =>
          rw [List.filterMap_cons_some hready] at hr
          -- the handles handed over first are those of the pipe started first
          have hlen : s.pipes.length - k = (s.pipes.length - (k + 1)) + 1 := by
            have := congrArg List.length hr
            rw [List.length_cons, List.length_range'] at this
            omega
          rw [hlen, List.range'_succ] at hr
          exact ⟨k + 1, by omega, (List.cons.inj hr).2⟩
  | @finish shutdown hl =>
      refine ⟨k, hk, ?_⟩
      rw [readies, queued_recv (by rw [hl]; rfl)] at hr
      rw [readies, queued_recv (by cases shutdown <;> rfl)]
      exact hr
  | @start d g txGen role target path l2cap todo shutdown hl =>
      refine ⟨k, by simp; omega, ?_⟩
      rw [readies, queued_recv (by rw [hl]; rfl)] at hr
      simp only [readies, queued, Loop.sending?, Option.toList_some, List.filterMap_append,
        List.filterMap_cons, List.filterMap_nil, PeerCommand.ready?, hr, hcount, Actor.handlesOf,
        List.length_append, List.length_singleton]
      rw [show s.pipes.length + 1 - k = (s.pipes.length - k) + 1 by omega, List.range'_concat]
      congr 2
      omega
  | act hl ha hpipes =>
      refine ⟨k, by rw [hpipes.1]; exact hk, ?_⟩
      rw [readies, queued_recv (by rw [hl]; rfl)] at hr
      rw [hpipes.1, readies, queued_recv rfl]
      exact hr
  | sent hl =>
      refine ⟨k, hk, ?_⟩
      rw [← hr]
      simp [readies, queued, hl, Loop.sending?]
  | reorder h => exact ⟨k, hk, hr⟩
  | pipe hp hm hin =>
      refine ⟨k, by rw [List.length_set]; exact hk, ?_⟩
      rw [List.length_set, hin.readies hm]
      exact hr

/-! ## Handles on their way -/

/-- Handles on their way were so before, or are those of the pipe just started. -/
theorem Moved.ready_cases (h : Moved s l s') {d : DeviceId} {txGen : ℕ} {handles : PipeHandles}
    (hmem : PeerCommand.dataPipeReady d txGen handles ∈ s'.queued) :
    PeerCommand.dataPipeReady d txGen handles ∈ s.queued ∨
      ∃ path l2cap, s'.pipes = s.pipes ++ [DataPipe.start d txGen path l2cap] ∧
        handles = Actor.handlesOf s.actor.pipes := by
  cases h with
  | dropped h => exact .inl hmem
  -- a letter from outside is no handover
  | @external letter hcmd =>
      left
      simp only [queued, List.map_append, List.map_cons, List.map_nil, List.mem_append,
        List.mem_singleton] at hmem ⊢
      rcases hmem with (hmem | heq) | hmem
      · exact .inl hmem
      · rw [← heq] at hcmd
        cases hcmd
      · exact .inr hmem
  -- a turn takes a letter off, and queues nothing
  | pop hl hin ht hpipes =>
      left
      rw [queued_recv rfl] at hmem
      rw [queued_recv (by rw [hl]; rfl), hin]
      exact List.mem_cons_of_mem _ hmem
  | @finish shutdown hl =>
      left
      rw [queued_recv (by cases shutdown <;> rfl)] at hmem
      rw [queued_recv (by rw [hl]; rfl)]
      exact hmem
  | @start d' l g role target path l2cap todo shutdown hl =>
      simp only [queued, Loop.sending?, Option.toList_some, List.mem_append, List.mem_singleton] at hmem
      rcases hmem with hmem | heq
      · left
        rw [queued_recv (by rw [hl]; rfl)]
        exact hmem
      · cases heq
        exact .inr ⟨path, l2cap, rfl, rfl⟩
  | act hl ha hpipes =>
      left
      rw [queued_recv rfl] at hmem
      rw [queued_recv (by rw [hl]; rfl)]
      exact hmem
  | sent hl =>
      left
      simp only [queued, Loop.sending?, Option.toList_none, List.append_nil, List.map_append,
        List.map_cons, List.map_nil] at hmem
      simp only [queued, hl, Loop.sending?, Option.toList_some]
      exact hmem
  | reorder h => exact .inl hmem
  | @pipe i l p p' cmd inbox hp hm hin =>
      left
      rcases hin with ⟨-, rfl⟩ | ⟨c, hc, -, rfl⟩
      · exact hmem
      · simp only [queued, List.map_append, List.map_cons, List.map_nil, List.mem_append,
          List.mem_singleton] at hmem ⊢
        rcases hmem with (hmem | rfl) | hmem
        · exact .inl hmem
        · rcases hm.cmd_cases hc with h | h <;> cases h
        · exact .inr hmem

/-- A handover on its way is about a pipe of its device and generation. -/
theorem Moved.letters (h : Moved s l s') (hinv : Inv s) (d : DeviceId) (txGen : ℕ)
    (handles : PipeHandles) (hmem : PeerCommand.dataPipeReady d txGen handles ∈ s'.queued) :
    ∃ i p, handles = Actor.handlesOf i ∧ s'.pipes[i]? = some p ∧ p.device = d ∧ p.txGen = txGen := by
  rcases h.ready_cases hmem with hmem | ⟨path, l2cap, hpipes, rfl⟩
  · rcases hinv.letters d txGen handles hmem with ⟨i, p, rfl, hp, rfl, rfl⟩
    rcases (h.advances hinv.keyed).pipes i p hp with ⟨p', hp', hsame, -⟩
    exact ⟨i, p', rfl, hp', hsame.device, hsame.txGen⟩
  · refine ⟨_, DataPipe.start d txGen path l2cap, rfl, ?_, by simp, by simp⟩
    rw [hpipes, hinv.count]
    simp

/-- A start still to be executed fits the entry it is for. -/
theorem Moved.todo (h : Moved s l s') (hinv : Inv s) :
    ∀ a ∈ s'.actor.loop.todo, StartOk s'.actor.reg a := by
  intro a ha
  cases h with
  | dropped h => exact hinv.todo a ha
  | external hcmd => exact hinv.todo a ha
  | @pop io exact replaced letter rest t pipes hl hin ht hpipes =>
      cases a with
      | startDataPipe d l txGen role target path l2cap =>
          have hmem : PeerAction.startDataPipe d l txGen role target path l2cap ∈ t.starts :=
            List.mem_filter.mpr ⟨ha, rfl⟩
          -- the one start the turn has issued is for the entry it leaves
          subst ht
          cases runCommand_turned hinv.keyed io exact replaced letter.cmd d with
          | kept hno _ => exact absurd rfl (hno _ hmem)
          | started he hone hch =>
              rw [hone, List.mem_singleton] at hmem
              cases hmem
              exact ⟨⟨_, he, rfl⟩, hch⟩
      | _ => trivial
  | @finish shutdown hl => cases shutdown <;> cases ha
  | start hl =>
      refine hinv.todo a ?_
      rw [hl]
      exact List.mem_cons_of_mem _ ha
  | act hl hdev hpipes =>
      refine hinv.todo a ?_
      rw [hl]
      exact List.mem_cons_of_mem _ ha
  | sent hl =>
      refine hinv.todo a ?_
      rw [hl]
      exact ha
  | reorder h =>
      have hok := hinv.todo a ha
      cases a with
      | startDataPipe d l txGen role target path l2cap =>
          refine ⟨?_, hok.2⟩
          rw [show _ = _ from h d]
          exact hok.1
      | _ => trivial
  | pipe hp hm hin => exact hinv.todo a ha

/-! ## The pipe of a live session -/

/-- A pipe that was not there before the step is the one just started. -/
theorem Moved.started (h : Moved s l s') {i : ℕ} {p' : DataPipe} (hp' : s'.pipes[i]? = some p')
    (hi : s.pipes.length ≤ i) : ∃ d l txGen role target path l2cap todo shutdown,
      s.actor.loop = .acting (.startDataPipe d l txGen role target path l2cap :: todo) shutdown ∧
      i = s.pipes.length ∧ p' = DataPipe.start d txGen path l2cap ∧ s'.actor.reg = s.actor.reg ∧
      s'.actor.loop = .sending (.dataPipeReady d txGen (Actor.handlesOf s.actor.pipes)) todo shutdown := by
  have hlt : i < s'.pipes.length := (List.getElem?_eq_some_iff.mp hp').1
  cases h with
  | start hl =>
      dsimp only at hp' hlt
      rw [List.length_append, List.length_singleton] at hlt
      rw [List.getElem?_append_right hi] at hp'
      obtain rfl := List.mem_singleton.mp (List.mem_of_getElem? hp')
      exact ⟨_, _, _, _, _, _, _, _, _, hl, by omega, rfl, rfl, rfl⟩
  | pop hl hin ht hpipes =>
      rw [(refilled_attempts hpipes).1] at hlt
      omega
  | act hl ha hpipes =>
      rw [hpipes.1] at hlt
      omega
  | pipe hp hm hin =>
      rw [List.length_set] at hlt
      omega
  | _ => exact absurd hlt (Nat.not_lt.mpr hi)

/-- The pipe of a live session keeps the generation of the session. -/
theorem Moved.gen (h : Moved s l s') (hinv : Inv s) (i : ℕ) (p' : DataPipe)
    (hp' : s'.pipes[i]? = some p') (hc : s'.current i = true) :
    ∃ e, s'.actor.reg.peer p'.device = some e ∧ e.txGen = p'.txGen := by
  have hadv := h.advances hinv.keyed
  by_cases hi : i < s.pipes.length
  · have hp : s.pipes[i]? = some s.pipes[i] := List.getElem?_eq_getElem hi
    rcases hadv.pipes i _ hp with ⟨q, hq, hsame, -⟩
    obtain rfl : q = p' := Option.some.inj (hq.symm.trans hp')
    rcases hinv.gen i _ hp (hadv.current hi hc) with ⟨e, he, hg⟩
    rcases current_iff.mp hc with ⟨q', hq', -, -, hstart, e', he', hconn⟩
    obtain rfl : q' = q := Option.some.inj (hq'.symm.trans hp')
    rcases hadv.peer _ e' he' hconn with hs | ⟨e₁, he₁, -, hg₁⟩
    · rw [hstart] at hs
      cases hs
    · rw [hsame.device, he] at he₁
      obtain rfl := Option.some.inj he₁
      exact ⟨e', he', by rw [hg₁, hg, hsame.txGen]⟩
  · rcases h.started hp' (by omega) with
      ⟨d, l, txGen, role, target, path, l2cap, todo, shutdown, hl, -, rfl, hreg, -⟩
    have hok := hinv.todo (.startDataPipe d l txGen role target path l2cap)
      (by rw [hl]; exact List.mem_cons_self)
    rw [DataPipe.start_device, DataPipe.start_txGen, hreg]
    exact hok.1

/-- Only the actor takes a handover off the queue. -/
theorem Moved.readies_of_ne_pop (h : Moved s l s') (hnp : ∀ io exact replaced, l ≠ .pop io exact replaced)
    {i : ℕ} (hi : i ∈ s.readies) : i ∈ s'.readies := by
  rw [readies] at hi ⊢
  refine List.mem_filterMap.mpr ?_
  rcases List.mem_filterMap.mp hi with ⟨cmd, hcmd, hr⟩
  refine ⟨cmd, ?_, hr⟩
  cases h with
  | dropped h => exact hcmd
  | external h =>
      simp only [queued, List.map_append, List.mem_append] at hcmd ⊢
      exact hcmd.imp_left .inl
  | pop h => exact absurd rfl (hnp _ _ _)
  | @finish shutdown hl =>
      rw [queued_recv (by rw [hl]; rfl)] at hcmd
      rw [queued_recv (by cases shutdown <;> rfl)]
      exact hcmd
  | start hl =>
      -- an action sends what it sends before anything else is handled
      rw [queued_recv (by rw [hl]; rfl)] at hcmd
      exact List.mem_append_left _ hcmd
  | act hl ha hpipes =>
      rw [queued_recv (by rw [hl]; rfl)] at hcmd
      rw [queued_recv rfl]
      exact hcmd
  | sent hl =>
      simp only [queued, hl, Loop.sending?, Option.toList_some] at hcmd
      rw [queued_recv rfl, List.map_append]
      exact hcmd
  | reorder h => exact hcmd
  | pipe hp hm hin =>
      rcases hin with ⟨-, rfl⟩ | ⟨c, -, -, rfl⟩
      · exact hcmd
      · simp only [queued, List.map_append, List.mem_append] at hcmd ⊢
        exact hcmd.imp_left .inl

/-- Only the actor changes an entry. -/
theorem Moved.peer_of_ne_pop (h : Moved s l s') (hnp : ∀ io exact replaced, l ≠ .pop io exact replaced)
    (d : DeviceId) : s'.actor.reg.peer d = s.actor.reg.peer d := by
  cases h with
  | pop h => exact absurd rfl (hnp _ _ _)
  | reorder h => exact h d
  | _ => rfl

/-- When the handles of a pipe are handed over, those of every later pipe are still to come. -/
theorem Inv.later_ready {letter : Letter ℕ} {rest : List (Letter ℕ)} {i j : ℕ} (hinv : Inv s)
    (hl : s.actor.loop = .recv) (hin : s.actor.inbox = letter :: rest)
    (hj : letter.cmd.ready? = some j) (hij : j < i) (hi : i < s.pipes.length) :
    i ∈ (rest.map Letter.cmd).filterMap PeerCommand.ready? := by
  rcases hinv.order with ⟨k, hk, hr⟩
  rw [readies, queued_recv (by rw [hl]; rfl), hin, List.map_cons,
    List.filterMap_cons_some hj] at hr
  have hkj : k = j := by
    have hhead : k ∈ List.head? (List.range' k (s.pipes.length - k)) := by
      have hlen := congrArg List.length hr
      rw [List.length_cons, List.length_range'] at hlen
      rw [List.head?_range', if_neg (by omega)]
      rfl
    rw [← hr] at hhead
    exact (Option.some.inj hhead).symm
  subst hkj
  have hmem : i ∈ List.range' k (s.pipes.length - k) := List.mem_range'_1.mpr ⟨hij.le, by omega⟩
  rw [← hr] at hmem
  rcases List.mem_cons.mp hmem with rfl | hmem
  · exact absurd hij (Nat.lt_irrefl i)
  · exact hmem

/-- A command of another kind than the handover and the sends leaves the handles of a live
entry alone. -/
theorem pop_held {io : Io} {exact replaced : Option DeviceId} {letter : Letter ℕ}
    {rest : List (Letter ℕ)} {t : Turn} {pipes : List DataPipe} (hinv : Inv s)
    (hin : s.actor.inbox = letter :: rest) (hl : s.actor.loop = .recv)
    (ht : t = s.actor.reg.runCommand io exact replaced letter.cmd)
    (hpipes : t.tried.foldlM attempt s.pipes = some pipes) {i : ℕ} {p : DataPipe} {e' : PeerEntry}
    (hp : s.pipes[i]? = some p) (hnew : ∀ (j : ℕ) (q : DataPipe), i < j → s.pipes[j]? = some q →
      q.device ≠ p.device)
    (hstart : ∀ a ∈ t.starts, a.device? ≠ some p.device) (he' : t.reg.peer p.device = some e')
    (hconn : e'.phase.isConnected = true) {e : PeerEntry} (he : s.actor.reg.peer p.device = some e)
    (hpipe : e.pipe = some (Actor.handlesOf i)) :
    i ∈ (rest.map Letter.cmd).filterMap PeerCommand.ready? ∨ e'.pipe = some (Actor.handlesOf i) ∨
      p.supervisor = .exited := by
  by_cases hoff : letter.cmd.offers = true
  · cases hcmd : letter.cmd with
    | dataPipeReady d₀ txGen handles =>
        rw [hcmd] at ht
        rw [ht, runCommand_of_ne (by simp)] at he'
        rcases handle_dataPipeReady_pipe he' with ⟨e₁, he₁, -, hp₁⟩
        obtain rfl : e = e₁ := Option.some.inj (he.symm.trans he₁)
        split at hp₁
        · rename_i hd
          -- the handles are those of this pipe, or of one that was started before it
          have hmem : PeerCommand.dataPipeReady d₀ txGen handles ∈ s.queued := by
            rw [queued_recv (by rw [hl]; rfl), hin, ← hcmd]
            exact List.mem_cons_self
          rcases hinv.letters _ _ _ hmem with ⟨j, q, rfl, hq, hdev, -⟩
          rcases Nat.lt_trichotomy i j with hij | rfl | hij
          · exact absurd (hdev.trans hd.1.symm) (hnew j q hij hq)
          · exact .inr (.inl hp₁)
          · refine .inl (hinv.later_ready hl hin ?_ hij (List.getElem?_eq_some_iff.mp hp).1)
            rw [hcmd]
            rfl
        · exact .inr (.inl (hp₁.trans hpipe))
    | sendDatagram d₀ target txGen datagram waker =>
        rw [hcmd] at ht
        subst ht
        rw [runCommand_of_ne (by simp)] at he' hpipes
        rcases handle_sendDatagram_pipe he' hconn with ⟨e₁, he₁, -, hsame | ⟨-, h, send, hh, hmem⟩⟩
        · obtain rfl : e = e₁ := Option.some.inj (he.symm.trans he₁)
          exact .inr (.inl (hsame.trans hpipe))
        · obtain rfl : e = e₁ := Option.some.inj (he.symm.trans he₁)
          obtain rfl : Actor.handlesOf i = h := Option.some.inj (hpipe.symm.trans hh)
          exact .inr (.inr (exited_of_closed hpipes hmem hp))
    | _ =>
        rw [hcmd] at hoff
        cases hoff
  · subst ht
    rcases runCommand_holdsPipe hinv.keyed io exact replaced (by simpa using hoff) hstart e' he' hconn with
      ⟨e₁, he₁, -, hsame⟩
    obtain rfl : e = e₁ := Option.some.inj (he.symm.trans he₁)
    exact .inr (.inl (hsame.trans hpipe))

/-- A turn that starts no pipe for a device has no such start among its actions. -/
theorem device?_ne_of_starting {t : Turn} {d : DeviceId} {shutdown : Bool}
    (h : (Loop.acting t.actions shutdown).starting d = false) : ∀ a ∈ t.starts, a.device? ≠ some d := by
  intro a ha hd
  have hany := List.any_eq_false.mp h a (List.mem_filter.mp ha).1
  rw [hd] at hany
  exact hany (beq_self_eq_true _)

/-- The handles of a pipe, handed over to the session they were started for. -/
theorem Inv.handed_over {io : Io} {exact replaced : Option DeviceId} {letter : Letter ℕ}
    {rest : List (Letter ℕ)} {i : ℕ} {p : DataPipe} {e' : PeerEntry} (hinv : Inv s)
    (hl : s.actor.loop = .recv) (hin : s.actor.inbox = letter :: rest)
    (hready : letter.cmd.ready? = some i) (hp : s.pipes[i]? = some p) (hcur : s.current i = true)
    (he' : (s.actor.reg.runCommand io exact replaced letter.cmd).reg.peer p.device = some e') :
    e'.pipe = some (Actor.handlesOf i) := by
  cases hcmd : letter.cmd with
  | dataPipeReady d₀ txGen handles =>
      rw [hcmd] at hready
      rw [hcmd, runCommand_of_ne (by simp)] at he'
      have hmem : PeerCommand.dataPipeReady d₀ txGen handles ∈ s.queued := by
        rw [queued_recv (by rw [hl]; rfl), hin, ← hcmd]
        exact List.mem_cons_self
      rcases hinv.letters _ _ _ hmem with ⟨j, q, rfl, hq, hdev, hgen⟩
      obtain rfl : j = i := Option.some.inj hready
      obtain rfl : p = q := Option.some.inj (hp.symm.trans hq)
      rcases hinv.gen j p hp hcur with ⟨e, he, hg⟩
      rcases handle_dataPipeReady_pipe he' with ⟨e₁, he₁, -, hp₁⟩
      obtain rfl : e = e₁ := Option.some.inj (he.symm.trans he₁)
      rw [hp₁, if_pos ⟨hdev, hg.trans hgen⟩]
  | _ =>
      rw [hcmd] at hready
      cases hready

/-- The pipe of a live session has its handles queued, held by the entry, or has returned. -/
theorem Moved.held (h : Moved s l s') (hinv : Inv s) (i : ℕ) (p' : DataPipe)
    (hp' : s'.pipes[i]? = some p') (hc : s'.current i = true) : i ∈ s'.readies ∨
      (∃ e, s'.actor.reg.peer p'.device = some e ∧ e.pipe = some (Actor.handlesOf i)) ∨
      p'.supervisor = .exited := by
  have hadv := h.advances hinv.keyed
  -- a pipe that was there before this step, or the one just started
  by_cases hi : i < s.pipes.length
  · have hp : s.pipes[i]? = some s.pipes[i] := List.getElem?_eq_getElem hi
    rcases hadv.pipes i _ hp with ⟨q, hq, hsame, hexit⟩
    obtain rfl : q = p' := Option.some.inj (hq.symm.trans hp')
    have hcur := hadv.current hi hc
    rw [hsame.device]
    by_cases hpop : ∀ io exact replaced, l ≠ .pop io exact replaced
    · rw [h.peer_of_ne_pop hpop]
      exact (hinv.held i _ hp hcur).imp (h.readies_of_ne_pop hpop) (.imp_right hexit)
    · -- a turn: the handles leave the queue for the entry, if that is still the one
      cases h with
      | @pop io exact replaced letter rest t pipes hl hin ht hpipes =>
          rcases current_iff.mp hc with ⟨q', hq', -, -, hstart, e', he', hconn⟩
          obtain rfl : q' = q := Option.some.inj (hq'.symm.trans hp')
          rcases current_iff.mp hcur with ⟨p, hp₁, -, hnew, -, -⟩
          obtain rfl : p = s.pipes[i] := Option.some.inj (hp₁.symm.trans hp)
          rw [hsame.device] at hstart he'
          have hrest : (⟨{ s.actor with
              reg := t.reg, inbox := rest, loop := .acting t.actions (decide (letter.cmd = .shutdown)) },
              pipes⟩ : Node).readies = (rest.map Letter.cmd).filterMap PeerCommand.ready? := by
            rw [readies, queued_recv rfl]
          rw [hrest]
          rcases hinv.held i _ hp hcur with hr | ⟨e, he, hpipe⟩ | hex
          · rw [readies, queued_recv (by rw [hl]; rfl), hin, List.map_cons] at hr
            cases hready : letter.cmd.ready? with
            | none =>
                rw [List.filterMap_cons_none hready] at hr
                exact .inl hr
            | some j =>
                rw [List.filterMap_cons_some hready] at hr
                rcases List.mem_cons.mp hr with rfl | hr
                · subst ht
                  exact .inr (.inl ⟨e', he', hinv.handed_over hl hin hready hp hcur he'⟩)
                · exact .inl hr
          · rcases pop_held hinv hin hl ht hpipes hp hnew (device?_ne_of_starting hstart) he' hconn he
              hpipe with hr | hpipe' | hex
            · exact .inl hr
            · exact .inr (.inl ⟨e', he', hpipe'⟩)
            · exact .inr (.inr (hexit hex))
          · exact .inr (.inr (hexit hex))
      | _ => exact absurd (by simp) hpop
  · rcases h.started hp' (by omega) with
      ⟨d, l, txGen, role, target, path, l2cap, todo, shutdown, -, rfl, -, -, hloop⟩
    left
    rw [readies, queued, hloop, List.filterMap_append, hinv.count]
    exact List.mem_append_right _ (List.mem_singleton.mpr rfl)

theorem Moved.inv (h : Moved s l s') (hinv : Inv s) : Inv s' :=
  ⟨h.keyed hinv.keyed, h.count hinv.count, h.order hinv.count hinv.order, h.letters hinv,
    h.todo hinv, h.gen hinv, h.held hinv⟩

/-- A node at its start satisfies it. -/
theorem inv_init (h : system.Init s) : Inv s := by
  rcases h with ⟨policy, endpoint, rfl⟩
  refine ⟨keyed_new policy endpoint, rfl, ⟨0, Nat.le_refl _, rfl⟩, ?_, ?_, ?_, ?_⟩
  · intro d txGen handles h
    cases h
  · intro a h
    cases h
  · intro i p h
    cases h
  · intro i p h
    cases h

/-! ## Reports -/

/-- An L2CAP worker is evicted on time only where a GATT worker is left to fall back to, or
from a pipe that is not the one of a live session. -/
def FallsBack (s : Node) : NodeLabel → Prop
  | .pipe i (.offered .timeout) =>
    (∀ p ∈ s.pipes[i]?, p.path = .gatt) ∨ s.current i = false
  | _ => True

/-- The pipe of a live session is sound, and what it reported is in the inbox. -/
structure Reports (s : Node) : Prop extends Inv s where
  sound : ∀ (i : ℕ) (p : DataPipe), s.pipes[i]? = some p → p.Sound (s.current i = false)
  letter : ∀ (i : ℕ) (p : DataPipe), s.pipes[i]? = some p → p.reported = true →
    ⟨.stalled p.device .linkDead, some i⟩ ∈ s.actor.inbox ∨ s.current i = false

/-- The channels of a pipe that a live session counts on are held. -/
theorem Inv.held_of_current (hinv : Inv s) {i : ℕ} {p : DataPipe} (hp : s.pipes[i]? = some p)
    (hsel : p.supervisor = .selecting) (hheld : s.held i = false) : s.current i = false := by
  by_contra hcon
  have hcur : s.current i = true := by simpa using hcon
  rcases current_iff.mp hcur with ⟨-, -, hrun, -⟩
  unfold Node.held at hheld
  rw [hrun, Bool.not_false, Bool.true_and, Bool.or_eq_false_iff, decide_eq_false_iff_not,
    List.any_eq_false] at hheld
  rcases hinv.held i p hp hcur with hr | ⟨e, he, hpipe⟩ | hex
  · exact hheld.1 hr
  · refine hheld.2 e ((Map.mem_values_iff _ _).mpr ⟨_, he⟩) ?_
    rw [hpipe]
    exact beq_self_eq_true i
  · rw [hsel] at hex
    cases hex

/-- What a step does to a pipe and its reports. -/
theorem Moved.sound (h : Moved s l s') (hinv : Inv s) (hC : FallsBack s l) {i : ℕ} {p : DataPipe}
    (hp : s.pipes[i]? = some p) (hsound : p.Sound (s.current i = false)) :
    ∃ p', s'.pipes[i]? = some p' ∧ p'.Sound (s.current i = false) ∧
      (p'.reported = true → p.reported = true ∨
        ⟨.stalled p.device .linkDead, some i⟩ ∈ s'.actor.inbox ∨ s.current i = false) := by
  -- steps that only fill channels keep every pipe sound
  have hrefill : ∀ {pipes : List DataPipe}, Refilled s.pipes pipes → ∃ p', pipes[i]? = some p' ∧
      p'.Sound (s.current i = false) ∧ (p'.reported = true → p.reported = true ∨
        ⟨.stalled p.device .linkDead, some i⟩ ∈ s'.actor.inbox ∨ s.current i = false) := by
    intro pipes hr
    rcases hr.2 i p hp with ⟨p', hp', hr'⟩
    exact ⟨p', hp', hsound.refilled hr', fun h => .inl (hr'.reported ▸ h)⟩
  cases h with
  | pop hl hin ht hpipes => exact hrefill (refilled_attempts hpipes)
  | start hl =>
      refine ⟨p, ?_, hsound, .inl⟩
      dsimp only
      rw [List.getElem?_append_left (List.getElem?_eq_some_iff.mp hp).1]
      exact hp
  | act hl ha hpipes => exact hrefill hpipes
  | @pipe j pl q q' cmd inbox hq hm hin =>
      by_cases hij : j = i
      · subst hij
        obtain rfl : p = q := Option.some.inj (hp.symm.trans hq)
        refine ⟨q', ?_, hm.sound hsound ?_ (hinv.held_of_current hp), fun hr => ?_⟩
        · dsimp only
          rw [List.getElem?_set_self (List.getElem?_eq_some_iff.mp hp).1]
        · rintro rfl
          exact hC.imp_left fun h => h p hp
        · rcases hm.reported hr with hr | rfl
          · exact .inl hr
          · rcases hin with ⟨hnone | hstop, -⟩ | ⟨c, hc, -, rfl⟩
            · cases hnone
            · refine .inr (.inr ?_)
              by_contra hcon
              rcases current_iff.mp (by simpa using hcon) with ⟨-, -, hrun, -⟩
              rw [hstop] at hrun
              cases hrun
            · cases hc
              exact .inr (.inl (List.mem_append_right _ List.mem_cons_self))
      · refine ⟨p, ?_, hsound, .inl⟩
        dsimp only
        rw [List.getElem?_set_ne hij]
        exact hp
  | _ => exact hrefill (.refl s.pipes)

/-- A letter stays in the inbox until it is handled. -/
theorem Moved.letter_cases (h : Moved s l s') {letter : Letter ℕ} (hmem : letter ∈ s.actor.inbox) :
    letter ∈ s'.actor.inbox ∨ ∃ io exact replaced,
      s'.actor.reg = (s.actor.reg.runCommand io exact replaced letter.cmd).reg := by
  cases h with
  | external hcmd => exact .inl (List.mem_append_left _ hmem)
  | @pop io exact replaced head rest t pipes hl hin ht hpipes =>
      rw [hin] at hmem
      rcases List.mem_cons.mp hmem with rfl | hmem
      · exact .inr ⟨io, exact, replaced, by rw [ht]⟩
      · exact .inl hmem
  | sent hl => exact .inl (List.mem_append_left _ hmem)
  | pipe hp hm hin =>
      rcases hin with ⟨-, rfl⟩ | ⟨c, -, -, rfl⟩
      · exact .inl hmem
      · exact .inl (List.mem_append_left _ hmem)
  | _ => exact .inl hmem

/-- Handling the report of a pipe ends the session of its device. -/
theorem Moved.reported_cases (h : Moved s l s') (hk : s.actor.reg.Keyed) {i : ℕ} {p : DataPipe}
    (hp : s.pipes[i]? = some p) (hmem : ⟨.stalled p.device .linkDead, some i⟩ ∈ s.actor.inbox) :
    ⟨.stalled p.device .linkDead, some i⟩ ∈ s'.actor.inbox ∨ s'.current i = false := by
  rcases h.letter_cases hmem with hmem | ⟨io, exact, replaced, hreg⟩
  · exact .inl hmem
  · right
    by_contra hcon
    rcases current_iff.mp (by simpa using hcon) with ⟨q, hq, -, -, -, e', he', hconn⟩
    rcases (h.advances hk).pipes i p hp with ⟨p', hp', hsame, -⟩
    obtain rfl : q = p' := Option.some.inj (hq.symm.trans hp')
    rw [hreg, hsame.device, runCommand_of_ne (by simp)] at he'
    rw [handle_stalled_peer he'] at hconn
    cases hconn

/-- A pipe whose workers are gone has reported, or is about to, unless it falls back on nothing.
-/
theorem reports_step (hR : Reports s) (hC : FallsBack s l) (hs : system.step l s = some s') :
    Reports s' := by
  have h := step_moved hs
  have hadv := h.advances hR.keyed
  -- a pipe that was not current does not become so again
  have hover : ∀ {i : ℕ}, i < s.pipes.length → s.current i = false → s'.current i = false := by
    intro i hi hout
    by_contra hcon
    rw [hadv.current hi (by simpa using hcon)] at hout
    cases hout
  refine ⟨h.inv hR.toInv, fun i p' hp' => ?_, fun i p' hp' hrep => ?_⟩
  · by_cases hi : i < s.pipes.length
    · have hp : s.pipes[i]? = some s.pipes[i] := List.getElem?_eq_getElem hi
      rcases h.sound hR.toInv hC hp (hR.sound i _ hp) with ⟨q, hq, hsound, -⟩
      obtain rfl : q = p' := Option.some.inj (hq.symm.trans hp')
      exact hsound.mono (hover hi)
    · rcases h.started hp' (by omega) with
        ⟨d, l, txGen, role, target, path, l2cap, todo, shutdown, hl, -, rfl, -, -⟩
      have hok := hR.todo (.startDataPipe d l txGen role target path l2cap)
        (by rw [hl]; exact List.mem_cons_self)
      exact DataPipe.sound_start d txGen hok.2
  · by_cases hi : i < s.pipes.length
    · have hp : s.pipes[i]? = some s.pipes[i] := List.getElem?_eq_getElem hi
      rcases h.sound hR.toInv hC hp (hR.sound i _ hp) with ⟨q, hq, -, hreported⟩
      obtain rfl : q = p' := Option.some.inj (hq.symm.trans hp')
      rcases hadv.pipes i _ hp with ⟨q', hq', hsame, -⟩
      obtain rfl : q' = q := Option.some.inj (hq'.symm.trans hp')
      rw [hsame.device]
      rcases hreported hrep with hold | hnew | hout
      · rcases hR.letter i _ hp hold with hmem | hout
        · exact h.reported_cases hR.keyed hp hmem
        · exact .inr (hover hi hout)
      · exact .inl hnew
      · exact .inr (hover hi hout)
    · rcases h.started hp' (by omega) with
        ⟨d, l, txGen, role, target, path, l2cap, todo, shutdown, -, -, rfl, -, -⟩
      rw [DataPipe.start_reported] at hrep
      cases hrep

/-- A node at its start has no pipe. -/
theorem reports_init (h : system.Init s) : Reports s := by
  refine ⟨inv_init h, ?_, ?_⟩ <;> rcases h with ⟨policy, endpoint, rfl⟩
  · intro i p h
    cases h
  · intro i p h
    cases h

theorem reports_of_run {h : List (Node × NodeLabel)} (hrun : system.Run h s)
    (hC : System.Meets FallsBack h) : Reports s :=
  hrun.invariant (fun _ => reports_init) (fun _ _ _ hR hl hs => reports_step hR hl hs) hC

/-- As long as L2CAP workers are evicted on time only from pipes with a GATT path, an entry
whose pipe is gone, with every command of the pipe handled, is not `Connected`. The entry's
pipe is the last one started for its device, unless another is about to be. -/
theorem no_zombie {h : List (Node × NodeLabel)} (hrun : system.Run h s)
    (hC : System.Meets FallsBack h) {i : ℕ} {p : DataPipe} {e : PeerEntry}
    (hp : s.pipes[i]? = some p) (he : s.actor.reg.peer p.device = some e)
    (hup : s.actor.loop.isStopped = false) (hstart : s.actor.loop.starting p.device = false)
    (hlast : ∀ (j : ℕ) (q : DataPipe), i < j → s.pipes[j]? = some q → q.device ≠ p.device)
    (hexit : p.supervisor = .exited) (hdone : ∀ letter ∈ s.actor.inbox, letter.pipe ≠ some i) :
    e.phase.isConnected = false := by
  have hR := reports_of_run hrun hC
  by_contra hcon
  have hcur : s.current i = true :=
    current_iff.mpr ⟨p, hp, hup, hlast, hstart, e, he, by simpa using hcon⟩
  have hnot : ¬ s.current i = false := by simp [hcur]
  rcases (hR.sound i p hp).returning (.inr hexit) with hrep | hout
  · rcases hR.letter i p hp hrep with hmem | hout
    · exact hdone _ hmem rfl
    · exact hnot hout
  · exact hnot hout

instance (s : Node) (l : NodeLabel) : Decidable (FallsBack s l) :=
  match l with
  | .pipe i (.offered .timeout) =>
    inferInstanceAs (Decidable ((∀ p ∈ s.pipes[i]?, p.path = .gatt) ∨ s.current i = false))
  | .pipe _ (.offered .ok) | .pipe _ (.offered .closed) | .pipe _ .gattFails
  | .pipe _ .gattReports | .pipe _ .l2capTakes | .pipe _ .l2capFails | .pipe _ .l2capReports
  | .pipe _ .recvOutbound | .pipe _ .evicted | .pipe _ .reportTimeout | .pipe _ .fallBack
  | .pipe _ .recvInbound | .pipe _ .recvL2cap | .pipe _ .recvClosed | .pipe _ .exit
  | .external _ | .pop .. | .execute | .sent | .reorder _ => isTrue trivial

theorem init_new (policy : L2capPolicy) (endpoint : EndpointId) :
    system.Init ⟨.new policy endpoint, []⟩ := ⟨policy, endpoint, rfl⟩

/-- A first fragment starts a pipe on GATT. Its worker finds the link dead, and the pipe is
gone once the registry has handled that. -/
def deathRun : List NodeLabel :=
  [.external (.inboundGattFragment "peer" .peripheralReceivedC2p [1]), .pop (ioAt 0) none none,
    .execute, .sent, .execute, .pop (ioAt 0) none none, .execute,
    .pipe 0 .gattFails, .pipe 0 .gattReports, .pop (ioAt 0) none none,
    .pipe 0 .recvInbound, .pipe 0 .recvClosed, .pipe 0 .exit]

/-- The only pipe is gone with nothing left to handle, and its entry is `Connected` or not. -/
def gone (connected : Bool) (s : Node) : Bool :=
  match s.pipes with
  | [p] =>
    decide (p.supervisor = .exited) && s.actor.inbox.isEmpty && !s.actor.loop.isStopped &&
      !s.actor.loop.starting p.device &&
      (s.actor.reg.peer p.device).any fun e =>
        e.phase.isConnected == connected && e.txGen == p.txGen
  | _ => false

/-- What the flag of a run says. -/
theorem gone_iff {connected : Bool} : s.gone connected = true ↔ ∃ p e, s.pipes = [p] ∧
    p.supervisor = .exited ∧ s.actor.inbox = [] ∧ s.actor.loop.isStopped = false ∧
    s.actor.loop.starting p.device = false ∧ s.actor.reg.peer p.device = some e ∧
    e.phase.isConnected = connected ∧ e.txGen = p.txGen := by
  unfold gone
  split
  · rename_i p hp
    simp [hp, Option.any_eq_true, and_assoc]
  · rename_i hp
    constructor
    · intro h
      cases h
    · rintro ⟨p, e, h, -⟩
      exact absurd h (hp p)

/-- A run in which the only worker dies, its pipe is gone and the entry is not Connected any more.
-/
theorem no_zombie_deathRun : ∃ h s p e, system.Run h s ∧ h.map Prod.snd = deathRun ∧
    s.pipes = [p] ∧ p.supervisor = .exited ∧ s.actor.reg.peer p.device = some e ∧
    e.txGen = p.txGen ∧ e.phase.isConnected = false := by
  rcases System.Run.of_execMeets (C := FallsBack) (P := fun s : Node => s.gone false = true)
    deathRun (init_new .disabled localEndpoint) (by decide +kernel) with ⟨h, s, hrun, hC, hl, hP⟩
  rcases gone_iff.mp hP with ⟨p, e, hp, hexit, hin, hup, hstart, he, -, hg⟩
  have hp₀ : s.pipes[0]? = some p := by
    rw [hp]
    rfl
  refine ⟨h, s, p, e, hrun, hl, hp, hexit, he, hg,
    no_zombie hrun hC hp₀ he hup hstart (fun j q hj hq => ?_) hexit fun letter hmem => ?_⟩
  · rw [hp, List.getElem?_eq_none hj] at hq
    cases hq
  · rw [hin] at hmem
    cases hmem

/-- A datagram goes through the registry to the pipe's supervisor. -/
def sendRun : List NodeLabel :=
  [.external (.sendDatagram "peer" none 1 [2] 0), .pop (ioAt 0) none none, .execute, .execute,
    .pipe 0 .recvOutbound]

/-- The peer opens an L2CAP channel and stops reading from it. The worker takes 66 datagrams:
one is stuck in the writer, 64 wait for it, and the worker waits with the last. The next 32
fill the worker's forwarding channel, and the one after is not taken in time. -/
def timeoutRun : List NodeLabel :=
  [.external (.inboundL2capChannel "peer" 0), .pop (ioAt 0) none none,
    .execute, .sent, .execute, .pop (ioAt 0) none none, .execute] ++
  (List.replicate 66 (sendRun ++ [.pipe 0 (.offered .ok), .pipe 0 .l2capTakes])).flatten ++
  (List.replicate 32 (sendRun ++ [.pipe 0 (.offered .ok)])).flatten ++
  sendRun ++ [.pipe 0 (.offered .timeout), .pipe 0 .evicted, .pipe 0 .reportTimeout,
    .pipe 0 .fallBack, .pipe 0 .exit, .pop (ioAt 0) none none, .execute]

/-- The pipe has exited, `L2capHandoverTimeout` is handled, and the entry is `Connected`. -/
theorem zombie_after_timeout : ∃ h s p e, system.Run h s ∧ h.map Prod.snd = timeoutRun ∧
    s.pipes = [p] ∧ p.supervisor = .exited ∧ s.actor.inbox = [] ∧
    s.actor.loop.isStopped = false ∧ s.actor.loop.starting p.device = false ∧
    s.actor.reg.peer p.device = some e ∧ e.txGen = p.txGen ∧ e.phase.isConnected = true := by
  rcases System.Run.of_exec (P := fun s : Node => s.gone true = true) timeoutRun
    (init_new .disabled localEndpoint) (by decide +kernel) with ⟨h, s, hrun, hl, hP⟩
  rcases gone_iff.mp hP with ⟨p, e, hp, hexit, hin, hup, hstart, he, hc, hg⟩
  exact ⟨h, s, p, e, hrun, hl, hp, hexit, hin, hup, hstart, he, hg, hc⟩

end IrohBle.Node
