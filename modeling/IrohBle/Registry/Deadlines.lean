import IrohBle.Registry.Answered
import IrohBle.Registry.FailedDial
import IrohBle.Registry.Phases

/-! # Registry.Deadlines: nothing outlives its deadline

The registry has no timers of its own: a backoff, a deferred dial, a drain, a restore, a tombstone
and a silent pipe are only looked at when the watchdog sends a `Tick`. A tick leaves nothing that
another tick at the same time would act on (`settled_by_tick`), and between two ticks no phase is
entered that was due at the first one, so that in every state of a run nothing is past its
deadline by the last tick.
-/

namespace IrohBle

open Lib Reliable Registry

/-- A phase that is entered is entered in time. -/
theorem Phases.timely {io : Io} {cmd : PeerCommand} {d : DeviceId} {p p' : PeerPhase}
    (h : Phases io cmd d p p') : p' = p ∨ p'.Timely (cmd.clock io) := by
  cases h with
  | same => exact .inl rfl
  | leaves _ _ due => exact .inr due
  | dials => exact .inr fun _ ht => nomatch ht
  | @fails attempt _ _ _ _ _ reports =>
      refine .inr fun t ht => ?_
      have hclock : cmd.clock io = io.now := by
        cases cmd <;> first | rfl | cases reports
      have hbackoff : reconnectBackoff (attempt + 1) ≤ millis 30000 := Nat.min_le_right _ _
      have hle : millis 30000 ≤ restoringTimeout := by decide
      rw [← Option.some.inj ht, hclock]
      omega
  | returns _ powered =>
      refine .inr fun t ht => ?_
      subst powered
      obtain rfl := Option.some.inj ht
      exact ⟨Nat.le_refl _, Nat.le_add_right _ _⟩

namespace Turn

section Tick

variable {io : Io} {tickNow : ℕ}

/-- What a tick does not act on is not past its deadline. -/
theorem due_of_undecided {e : PeerEntry} (hdecide : Edit.tickDecision io tickNow e = none)
    (hkept : e.phase.isExpired tickNow = false) : ∀ t ∈ e.phase.dueAt, tickNow ≤ t := by
  intro t ht
  unfold Edit.tickDecision at hdecide
  -- each deadline is one that the tick's decision has just compared with the clock
  cases hphase : e.phase with
  | reconnecting attempt nextAt reason =>
      rw [hphase] at hdecide ht
      dsimp only at hdecide
      obtain rfl := Option.some.inj ht
      split at hdecide
      · cases hdecide
      · omega
  | pendingDial since deadline p =>
      rw [hphase] at hdecide ht
      dsimp only at hdecide
      obtain rfl := Option.some.inj ht
      split at hdecide
      · cases hdecide
      · omega
  | draining since reason =>
      rw [hphase] at hdecide ht
      dsimp only at hdecide
      obtain rfl := Option.some.inj ht
      split at hdecide
      · cases hdecide
      · omega
  | restoring since =>
      rw [hphase] at hdecide ht
      dsimp only at hdecide
      obtain rfl := Option.some.inj ht
      split at hdecide
      · cases hdecide
      · omega
  | dead reason diedAt =>
      rw [hphase] at hkept ht
      obtain rfl := Option.some.inj ht
      have hyoung : ¬ tickNow - diedAt > deadGcTtl := of_decide_eq_false hkept
      omega
  | _ =>
      rw [hphase] at ht
      cases ht

/-- A dial that a tick leaves to a later one is due later. -/
theorem dialAt_of_undecided {e : PeerEntry} (hdecide : Edit.tickDecision io tickNow e = none) :
    ∀ t ∈ e.phase.dialAt, tickNow < t := by
  intro t ht
  unfold Edit.tickDecision at hdecide
  cases hphase : e.phase with
  | reconnecting attempt nextAt reason =>
      rw [hphase] at hdecide ht
      dsimp only at hdecide
      obtain rfl := Option.some.inj ht
      split at hdecide
      · cases hdecide
      · omega
  | pendingDial since deadline p =>
      rw [hphase] at hdecide ht
      dsimp only at hdecide
      obtain rfl := Option.some.inj ht
      split at hdecide
      · cases hdecide
      · omega
  | _ =>
      rw [hphase] at ht
      cases ht

/-- What a tick dials is not due again at the same time. -/
theorem undecided_of_armForDial (w : Edit) (deferPrefix : Option KeyPrefix) :
    Edit.tickDecision io tickNow (w.armForDial tickNow deferPrefix).entry = none := by
  obtain ⟨phase, _, _, hentry, hphase⟩ := Edit.armForDial_entry w tickNow deferPrefix
  rw [hentry]
  rcases hphase with rfl | ⟨p, rfl⟩ | rfl
  · rfl
  · unfold Edit.tickDecision
    dsimp only
    rw [if_neg (Nat.not_le_of_lt (pendingDialDeadline_bounds tickNow p).1)]
  · rfl

/-- What a tick acts on is not acted on again at the same time. -/
theorem undecided_of_tickApply (w : Edit) (systemNow : ℕ) (action : Edit.TickAction) :
    Edit.tickDecision io tickNow (w.tickApply tickNow systemNow action).entry = none := by
  unfold Edit.tickApply
  cases action with
  | startConnect attempt => rfl
  | pendingDialExpired => rfl
  | drainingToDead =>
      dsimp only
      split
      · exact undecided_of_armForDial _ _
      · rfl
  | restoringToDead => rfl
  | connectedWedged =>
      dsimp only
      rw [Edit.push_entry, Edit.closeChannel_entry, Edit.drainToDraining_entry]
      unfold Edit.tickDecision
      dsimp only
      rw [if_neg]
      omega

end Tick

end Turn

namespace Registry

open Turn

/-- What a tick makes of the entry of a device, which it may collect after that. -/
inductive Ticked (io : Io) (tickNow : ℕ) (e : PeerEntry) : PeerEntry → Prop
  where
  | idle (decides : Edit.tickDecision io tickNow e = none) : Ticked io tickNow e e
  | acts {w : Edit} {action : Edit.TickAction} (entry : w.entry = e)
      (decides : Edit.tickDecision io tickNow e = some action) :
      Ticked io tickNow e (w.tickApply tickNow io.systemNow action).entry

theorem Ticked.undecided {io : Io} {tickNow : ℕ} {e e' : PeerEntry} (h : Ticked io tickNow e e') :
    Edit.tickDecision io tickNow e' = none := by
  cases h with
  | idle hdecides => exact hdecides
  | @acts w action _ _ => exact undecided_of_tickApply w io.systemNow action

/-- The collection takes the expired and nothing else. -/
theorem peer_gcDead_ite {t : Turn} {tickNow : ℕ} {d : DeviceId} {e : PeerEntry}
    (he : t.reg.peer d = some e) :
    (t.gcDead tickNow).reg.peer d = if e.phase.isExpired tickNow then none else some e := by
  cases hp : (t.gcDead tickNow).reg.peer d with
  | some e' =>
      obtain ⟨he', hkept⟩ := (Map.lookup_retain _ _ _ _).mp hp
      obtain rfl := Option.some.inj (he.symm.trans he')
      cases hphase : e.phase with
      | dead reason diedAt =>
          rw [hphase] at hkept
          rw [if_neg]
          simpa [PeerPhase.isExpired] using hkept
      | _ => rfl
  | none =>
      split
      · rfl
      · rename_i hkept
        rw [← hp]
        refine (Map.lookup_retain _ _ _ _).mpr ⟨he, ?_⟩
        cases hphase : e.phase with
        | dead reason diedAt =>
            rw [hphase] at hkept
            simpa [PeerPhase.isExpired] using hkept
        | _ => rfl

/-- A tick, from the side of one device. -/
theorem peer_tick {r : Registry} (hset : r.Settled) (io : Io) (tickNow : ℕ) {d : DeviceId}
    {e : PeerEntry} (he : r.peer d = some e) :
    ∃ e', Ticked io tickNow e e' ∧ (r.handle io (.tick tickNow)).reg.peer d =
      if e'.phase.isExpired tickNow then none else some e' := by
  by_cases hmem : d ∈ (r.peers.entries.filterMap fun x =>
      (Edit.tickDecision io tickNow x.2).map fun a => (x.1, a)).map Prod.fst
  · -- decided for: the loop comes to it once
    obtain ⟨⟨d, action⟩, hx, rfl⟩ := List.mem_map.mp hmem
    obtain ⟨⟨d', e₀⟩, hentry, hdecide⟩ := List.mem_filterMap.mp hx
    obtain ⟨a, ha, heq⟩ := Option.map_eq_some_iff.mp hdecide
    rw [Prod.mk.injEq] at heq
    obtain ⟨rfl, rfl⟩ := heq
    have hpeer₀ : r.peer d' = some e₀ := peer_of_mem_entries (t := start r) hentry
    obtain rfl := Option.some.inj (he.symm.trans hpeer₀)
    obtain ⟨w, hw, hpeer, -⟩ := peer_foldl_mem (t := start r) Prod.fst
      (fun x => Edit.tickApply tickNow io.systemNow x.2) _ hset
      (tickDecisions_nodup io tickNow (start r)) (tickDecisions_touch io tickNow (start r)) hx he
    exact ⟨_, .acts hw ha, peer_gcDead_ite hpeer⟩
  · -- not decided for: the loop passes it by
    have hsame := peer_foldl_ne (t := start r) Prod.fst
      (fun x => Edit.tickApply tickNow io.systemNow x.2) _ hmem
    refine ⟨e, .idle ?_, peer_gcDead_ite (hsame.trans he)⟩
    cases hdecide : Edit.tickDecision io tickNow e with
    | none => rfl
    | some action =>
        refine absurd (List.mem_map.mpr ⟨(d, action), ?_, rfl⟩) hmem
        refine List.mem_filterMap.mpr ⟨⟨d, e⟩, (Map.mem_entries_iff _ _ _).mpr he, ?_⟩
        rw [hdecide]
        rfl

/-- A tick inserts no entry. -/
theorem peer_of_tick {r : Registry} (hset : r.Settled) {io : Io} {tickNow : ℕ} {d : DeviceId}
    {e' : PeerEntry} (he' : (r.handle io (.tick tickNow)).reg.peer d = some e') :
    ∃ e, r.peer d = some e ∧ Ticked io tickNow e e' ∧ e'.phase.isExpired tickNow = false := by
  obtain ⟨e, he⟩ : ∃ e, r.peer d = some e := by
    obtain ⟨hloop, -⟩ := (Map.lookup_retain _ _ _ _).mp he'
    cases he : r.peer d with
    | some e => exact ⟨e, rfl⟩
    | none =>
        refine absurd (hloop.symm.trans ?_) (Option.some_ne_none e')
        refine (peer_foldl_ne (t := start r) Prod.fst
          (fun x => Edit.tickApply tickNow io.systemNow x.2) _ ?_).trans he
        intro hmem
        obtain ⟨⟨d, action⟩, hx, rfl⟩ := List.mem_map.mp hmem
        obtain ⟨⟨d', e₀⟩, hentry, hdecide⟩ := List.mem_filterMap.mp hx
        obtain ⟨a, -, heq⟩ := Option.map_eq_some_iff.mp hdecide
        rw [Prod.mk.injEq] at heq
        obtain ⟨rfl, rfl⟩ := heq
        have hpeer₀ : r.peer d' = some e₀ := peer_of_mem_entries (t := start r) hentry
        exact Option.some_ne_none _ (hpeer₀.symm.trans he)
  obtain ⟨e₁, hticked, hpeer⟩ := peer_tick hset io tickNow he
  rw [he'] at hpeer
  split at hpeer
  · cases hpeer
  · rename_i hkept
    obtain rfl := Option.some.inj hpeer
    exact ⟨e, he, hticked, Bool.not_eq_true _ ▸ hkept⟩

/-- After a tick no entry is left that another tick at the same time would act on or collect. -/
theorem settled_by_tick {r : Registry} (hset : r.Settled) {io : Io} {tickNow : ℕ} {d : DeviceId}
    {e' : PeerEntry} (he' : (r.handle io (.tick tickNow)).reg.peer d = some e') :
    Edit.tickDecision io tickNow e' = none ∧ e'.phase.isExpired tickNow = false := by
  obtain ⟨e, -, hticked, hkept⟩ := peer_of_tick hset he'
  exact ⟨hticked.undecided, hkept⟩

/-! ## Along a run -/

/-- The tick that was handled last. -/
def lastTick (h : List (Registry × Label)) : Option ℕ :=
  (h.filterMap fun x => match x.2 with
    | .command _ (.tick tickNow) => some tickNow
    | _ => none).getLast?

/-- A command is handled no earlier than the tick before it. -/
def Clocked (k : List (Registry × Label)) (_ : Registry) : Label → Prop
  | .reorder _ => True
  | .command io cmd => ∀ t ∈ lastTick k, t ≤ cmd.clock io

instance (k : List (Registry × Label)) (r : Registry) : ∀ l, Decidable (Clocked k r l)
  | .reorder _ => inferInstanceAs (Decidable True)
  | .command io cmd => inferInstanceAs (Decidable (∀ t ∈ lastTick k, t ≤ cmd.clock io))

/-- A tick is the last one. -/
theorem lastTick_tick (h : List (Registry × Label)) (r : Registry) (io : Io) (tickNow : ℕ) :
    lastTick (h ++ [(r, .command io (.tick tickNow))]) = some tickNow := by
  unfold lastTick
  rw [List.filterMap_append]
  exact List.getLast?_concat

/-- The order of the map does not tick. -/
theorem lastTick_reorder (h : List (Registry × Label)) (r : Registry) (ks : List DeviceId) :
    lastTick (h ++ [(r, .reorder ks)]) = lastTick h := by
  unfold lastTick
  rw [List.filterMap_append]
  exact congrArg List.getLast? (List.append_nil _)

theorem lastTick_other (h : List (Registry × Label)) (r : Registry) (io : Io) {cmd : PeerCommand}
    (hcmd : cmd.isTick = false) : lastTick (h ++ [(r, .command io cmd)]) = lastTick h := by
  unfold lastTick
  rw [List.filterMap_append]
  cases cmd with
  | tick tickNow => cases hcmd
  | _ => exact congrArg List.getLast? (List.append_nil _)

/-- The deadlines that a command sets lie ahead of its clock, and not far. -/
theorem due_of_handle {r : Registry} {io : Io} {cmd : PeerCommand} {Q : ℕ → Prop}
    (hclock : ∀ due, cmd.clock io ≤ due → due ≤ cmd.clock io + restoringTimeout → Q due)
    {d : DeviceId} (hdue : ∀ e, r.peer d = some e → ∀ due ∈ e.phase.dueAt, Q due) :
    ∀ e, (r.handle io cmd).reg.peer d = some e → ∀ due ∈ e.phase.dueAt, Q due := by
  refine Steps.all (P := fun e => ∀ due ∈ e.phase.dueAt, Q due) (handle_steps io cmd r) ?_ ?_ ?_
    hdue
  · intro n due hmem
    cases hmem
  · intro f w hf hw due hmem
    rcases hf.phases.timely with hsame | hentered
    · rw [hsame] at hmem
      exact hw due hmem
    · exact hclock due (hentered due hmem).1 (hentered due hmem).2
  · intro f w n hf hw due hmem
    cases hf <;> cases hmem

/-- In every run with a forward clock nothing is due before the last tick. -/
theorem due_of_run {h : List (Registry × Label)} {r : Registry} (hrun : system.Run h r)
    (hclock : System.Along Clocked h) :
    ∀ t ∈ lastTick h, ∀ d e, r.peer d = some e → ∀ due ∈ e.phase.dueAt, t ≤ due := by
  induction hrun with
  | init hs =>
      intro t ht
      cases ht
  | @step h r r' l hr hs ih =>
      -- induction on the run; only a tick moves the bound
      rw [System.along_append] at hclock
      have ih := ih hclock.1
      intro t ht d e he
      cases l with
      | reorder ks =>
          rw [lastTick_reorder] at ht
          rw [peer_reorder hs] at he
          exact ih t ht d e he
      | command io cmd =>
          obtain rfl := Option.some.inj hs
          cases hcmd : cmd.isTick with
          | false =>
              rw [lastTick_other h r io hcmd] at ht
              -- any other command leaves a deadline, or sets one ahead of its own clock
              refine due_of_handle (Q := fun due => t ≤ due) ?_ (ih t ht d) e he
              intro due hdue _
              exact (hclock.2 t ht).trans hdue
          | true =>
              obtain ⟨tickNow, rfl⟩ : ∃ tickNow, cmd = .tick tickNow := by
                cases cmd with
                | tick tickNow => exact ⟨tickNow, rfl⟩
                | _ => cases hcmd
              rw [lastTick_tick] at ht
              obtain rfl := Option.some.inj ht
              obtain ⟨hdecide, hkept⟩ := settled_by_tick (settled_of_run hr) he
              exact due_of_undecided hdecide hkept

/-- In every state of a run nothing is past its deadline by the last tick, and whatever is handled
next, if it is a tick it leaves nothing that it should have acted on: no dial that is due by then,
no drain, restore or tombstone that has run out and no `Connected` entry whose pipe has been silent
for longer than `CONNECTED_IDLE_DEADLINE`. -/
theorem nothing_overdue {h : List (Registry × Label)} {r : Registry} (hrun : system.Run h r)
    (hclock : System.Along Clocked h) :
    (∀ t ∈ lastTick h, ∀ d e, r.peer d = some e → ∀ due ∈ e.phase.dueAt, t ≤ due) ∧
    ∀ io tickNow d e, (r.handle io (.tick tickNow)).reg.peer d = some e →
      (∀ due ∈ e.phase.dueAt, tickNow ≤ due) ∧ (∀ due ∈ e.phase.dialAt, tickNow < due) ∧
      ∀ pipe, e.phase.isConnected = true → e.pipe = some pipe →
        tickNow - io.last pipe.lastRxAt ≤ connectedIdleDeadline := by
  refine ⟨due_of_run hrun hclock, ?_⟩
  intro io tickNow d e he
  obtain ⟨hdecide, hkept⟩ := settled_by_tick (settled_of_run hrun) he
  refine ⟨due_of_undecided hdecide hkept, dialAt_of_undecided hdecide, ?_⟩
  intro pipe hconnected hpipe
  obtain ⟨since, channel, txGen, up, hphase⟩ : ∃ since channel txGen up,
      e.phase = .connected since channel txGen up := by
    cases hphase : e.phase with
    | connected since channel txGen up => exact ⟨since, channel, txGen, up, rfl⟩
    | _ =>
        rw [hphase] at hconnected
        cases hconnected
  unfold Edit.tickDecision at hdecide
  rw [hphase, hpipe] at hdecide
  dsimp only at hdecide
  split at hdecide
  · cases hdecide
  · omega

/-- A dial fails and is waited for while a tick goes by. -/
def waitingRun : List Label :=
  dialRun ++ [.command (ioAt 2) (.connectFailed "peer" 2 "timeout"), .command (ioAt 3) (.tick 3)]

/-- On a run: a dial waits for its backoff over a tick. -/
theorem nothing_overdue_waitingRun :
    ∃ h r, system.Run h r ∧ h.map Prod.snd = waitingRun ∧
      (r.peer "peer").bind (fun e => e.phase.dueAt) = some (2 + secs 1) ∧
      ∀ d e, r.peer d = some e → ∀ due ∈ e.phase.dueAt, 3 ≤ due := by
  obtain ⟨h, r, hrun, hl, htick, hclock, hdue⟩ := System.Run.of_trace
    (P := fun h r => lastTick h = some 3 ∧ System.Along Clocked h ∧
      (r.peer "peer").bind (fun e => e.phase.dueAt) = some (2 + secs 1))
    waitingRun (init_new .disabled localEndpoint) (by decide +kernel)
  exact ⟨h, r, hrun, hl, hdue, (nothing_overdue hrun hclock).1 3 htick⟩

end Registry

end IrohBle
