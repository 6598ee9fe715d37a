import IrohBle.Lanes.Orders

/-! # Lanes.Runs: the lanes along a run

The actions issued so far are those executed and those still to do, in this order; and each
lane is what the executed ones and its worker have made of it (`Tracks`): its queue is the
last part of what has been dispatched, and its owner the lifecycle activated last before
that part.
-/

namespace IrohBle

open Lib Reliable Registry

/-! ## Jobs dispatched -/

/-- The jobs an action sends to the lane of `d`. -/
def PeerAction.jobs (d : DeviceId) : PeerAction → List LaneJob
  | .startConnect d' _ l =>
    if d' = d then [.activate l, .work ⟨l, .whileQueued, .connect⟩] else []
  | .readVersion d' l => if d' = d then [.work ⟨l, .immediate, .readVersion⟩] else []
  | .closeChannel d' l _ _ => if d' = d then [.work ⟨l, .never, .closeChannel⟩] else []
  | .closeNativeConnection d' l =>
    if d' = d then [.work ⟨l, .never, .closeNativeConnection⟩] else []
  | .refresh d' l => if d' = d then [.work ⟨l, .never, .refresh⟩] else []
  | .startDataPipe d' l _ _ _ _ _ => if d' = d then [.activate l] else []
  | .upgradeToL2cap d' l u => if d' = d then [.work ⟨l, .immediate, .openL2cap u⟩] else []
  | _ => []

/-- The jobs for the lane of `d`, in dispatch order. -/
def dispatched (d : DeviceId) (as : List PeerAction) : List LaneJob := as.flatMap (·.jobs d)

/-- The owner after a job. -/
def LaneJob.owner (owner : Option ℕ) : LaneJob → Option ℕ
  | .activate l => some l
  | .work _ => owner

/-- The lifecycle activated last in a list of jobs. -/
def lastOwner (jobs : List LaneJob) : Option ℕ := jobs.foldl LaneJob.owner none

theorem foldl_owner_jobs (d : DeviceId) (a : PeerAction) (owner : Option ℕ) :
    (a.jobs d).foldl LaneJob.owner owner = (a.activates d).or owner := by
  cases a <;> simp only [PeerAction.jobs, PeerAction.activates] <;>
    first | rfl | (split <;> rfl)

/-- An activation among the actions is one among the jobs. -/
theorem lastOwner_dispatched (d : DeviceId) (as : List PeerAction) :
    lastOwner (dispatched d as) = lastActivated d as := by
  unfold lastOwner lastActivated dispatched
  rw [List.foldl_flatMap]
  congr 1
  funext owner a
  exact foldl_owner_jobs d a owner

/-- The jobs that follow any activation do not depend on the owner before it. -/
theorem foldl_owner_of_activate (o o' : Option ℕ) (l : ℕ) (jobs : List LaneJob) :
    (LaneJob.activate l :: jobs).foldl LaneJob.owner o =
      (LaneJob.activate l :: jobs).foldl LaneJob.owner o' := rfl

/-! ## One lane -/

namespace DeviceLane

/-- The queue is the last part of the jobs dispatched. -/
def Follows (lane : DeviceLane) (jobs : List LaneJob) : Prop :=
  ∃ past, jobs = past ++ lane.jobs ∧
    (lane.nativeOwner = lastOwner past ∨
      -- a lane that has just been made
      lane.nativeOwner = none ∧ ∃ l rest, lane.jobs = .activate l :: rest)

/-- The count is the number of jobs queued or running. -/
def Counted (lane : DeviceLane) : Prop :=
  lane.outstanding = lane.jobs.length + lane.running.toList.length

variable {lane lane' : DeviceLane} {jobs : List LaneJob} {task : LaneTask}

/-- A lane that follows a list of jobs follows it with one more behind. -/
theorem Follows.send (h : lane.Follows jobs) (job : LaneJob) :
    (lane.send job).Follows (jobs ++ [job]) := by
  rcases h with ⟨past, rfl, howner⟩
  refine ⟨past, by simp [DeviceLane.send], howner.imp_right ?_⟩
  rintro ⟨hnone, l, rest, hjobs⟩
  exact ⟨hnone, l, rest ++ [job], by simp [DeviceLane.send, hjobs]⟩

/-- Sending a job to a lane keeps its counters right. -/
theorem Counted.send (h : lane.Counted) (job : LaneJob) : (lane.send job).Counted := by
  unfold Counted at h ⊢
  simp only [DeviceLane.send, List.length_append, List.length_singleton, h]
  omega

/-- The owner when a queued job has its turn. -/
theorem Follows.owner_at {past queue rest : List LaneJob}
    (hjobs : lane.jobs = queue ++ .work task :: rest)
    (howner : lane.nativeOwner = lastOwner past ∨
      lane.nativeOwner = none ∧ ∃ l rest, lane.jobs = .activate l :: rest) :
    queue.foldl LaneJob.owner lane.nativeOwner = lastOwner (past ++ queue) := by
  unfold lastOwner
  rw [List.foldl_append]
  rcases howner with howner | ⟨hnone, l, rest', hactivate⟩
  · rw [howner, lastOwner]
  · rw [hjobs] at hactivate
    cases queue with
    | nil => simp at hactivate
    | cons job queue =>
        rw [List.cons_append, List.cons.injEq] at hactivate
        rw [hactivate.1]
        exact foldl_owner_of_activate _ _ l queue

/-- What the worker does with the job at the head of the queue. -/
theorem recv_cases (h : lane.recv = some lane') :
    lane.running = none ∧ lane'.lifecycle = lane.lifecycle ∧
      ((∃ l, lane.jobs = .activate l :: lane'.jobs ∧ lane'.nativeOwner = some l ∧
          lane'.running = none ∧ lane'.outstanding = lane.outstanding - 1) ∨
        ∃ task, lane.jobs = .work task :: lane'.jobs ∧ lane'.nativeOwner = lane.nativeOwner ∧
          ((lane.nativeOwner = some task.lifecycleId ∧
              (task.cancellation = .never ∨ lane.lifecycle = some task.lifecycleId) ∧
              lane'.running = some task ∧ lane'.outstanding = lane.outstanding) ∨
            ((lane.nativeOwner ≠ some task.lifecycleId ∨
                task.cancellation ≠ .never ∧ lane.lifecycle ≠ some task.lifecycleId) ∧
              lane'.running = none ∧ lane'.outstanding = lane.outstanding - 1))) := by
  unfold recv at h
  split at h
  · -- the worker learns of a new owner
    rename_i l jobs hrunning hjobs
    obtain rfl := Option.some.inj h
    exact ⟨hrunning, rfl, Or.inl ⟨l, hjobs, rfl, hrunning, rfl⟩⟩
  · rename_i task jobs hrunning hjobs
    refine ⟨hrunning, ?_⟩
    split at h
    · -- the native link is not the job's: dropped
      rename_i howner
      obtain rfl := Option.some.inj h
      exact ⟨rfl, Or.inr ⟨task, hjobs, rfl, Or.inr ⟨Or.inl howner, hrunning, rfl⟩⟩⟩
    · rename_i howner
      split at h
      · rename_i hretired
        obtain rfl := Option.some.inj h
        exact ⟨rfl, Or.inr ⟨task, hjobs, rfl, Or.inr ⟨Or.inr hretired, hrunning, rfl⟩⟩⟩
      · rename_i hretired
        obtain rfl := Option.some.inj h
        rw [not_and_or, not_not, not_not] at hretired
        exact ⟨rfl, Or.inr ⟨task, hjobs, rfl, Or.inl ⟨not_not.mp howner, hretired, rfl, rfl⟩⟩⟩
  · cases h

/-- Taking a job off the queue keeps what has been dispatched. -/
theorem Follows.recv (h : lane.Follows jobs) (hs : lane.recv = some lane') :
    lane'.Follows jobs := by
  rcases h with ⟨past, rfl, howner⟩
  rcases (recv_cases hs).2.2 with ⟨l, hjobs, howner', -⟩ | ⟨task, hjobs, howner', -⟩
  · refine ⟨past ++ [.activate l], by simp [hjobs], Or.inl ?_⟩
    rw [howner', lastOwner, List.foldl_append]
    rfl
  · refine ⟨past ++ [.work task], by simp [hjobs], Or.inl ?_⟩
    -- the head is no activation, so the lane is not a new one
    rcases howner with howner | ⟨-, l, rest, hactivate⟩
    · rw [howner', howner, lastOwner, lastOwner, List.foldl_append]
      rfl
    · rw [hjobs] at hactivate
      cases hactivate

/-- Taking a job off the queue keeps the counters right. -/
theorem Counted.recv (h : lane.Counted) (hs : lane.recv = some lane') : lane'.Counted := by
  unfold Counted at h ⊢
  rcases recv_cases hs with ⟨hrunning, -, ⟨l, hjobs, -, hr, ho⟩ | ⟨task, hjobs, -, hrun⟩⟩
  · rw [hr, ho, h, hrunning, hjobs]
    simp
  · rcases hrun with ⟨-, -, hr, ho⟩ | ⟨-, hr, ho⟩
    · rw [hr, ho, h, hrunning, hjobs]
      simp
    · rw [hr, ho, h, hrunning, hjobs]
      simp

/-- The work of a lane is over, by itself or because it is cancelled. -/
structure Ended (lane : DeviceLane) (task : LaneTask) (lane' : DeviceLane) : Prop where
  running : lane.running = some task
  after : lane' = { lane with running := none }.done

/-- A task that finishes has ended. -/
theorem ended_of_finish (h : lane.finish = some (task, lane')) : lane.Ended task lane' := by
  unfold finish at h
  rcases Option.map_eq_some_iff.mp h with ⟨task', hrunning, heq⟩
  obtain ⟨rfl, rfl⟩ := Prod.mk.inj heq
  exact ⟨hrunning, rfl⟩

/-- A task that is cancelled has ended too, and only one whose lifecycle is not the lane's any
more. -/
theorem ended_of_cancel (h : lane.cancel = some lane') :
    ∃ task, lane.Ended task lane' ∧ task.cancellation = .immediate ∧
      lane.lifecycle ≠ some task.lifecycleId := by
  unfold cancel at h
  split at h
  · rename_i task hrunning
    split at h
    · rename_i hretired
      obtain rfl := Option.some.inj h
      exact ⟨task, ⟨hrunning, rfl⟩, hretired⟩
    · cases h
  · cases h

/-- The end of a task keeps the counters right. -/
theorem Counted.ended (h : lane.Counted) (hs : lane.Ended task lane') : lane'.Counted := by
  unfold Counted at h ⊢
  rw [hs.after]
  simp only [done, h, hs.running, Option.toList_some, List.length_singleton, Option.toList_none,
    List.length_nil]
  omega

end DeviceLane

/-! ## The driver's table -/

namespace Lanes

variable {lanes : Lanes} {d d' : DeviceId}

/-- Dispatching a job reaches the lane of its device and no other. -/
theorem lookup_dispatch (d' : DeviceId) (l : ℕ) (c : Cancellation) (w : LaneWork) :
    (lanes.dispatch d' l c w).lookup d =
      if d = d' then (lanes.lookup d).map (DeviceLane.send (.work ⟨l, c, w⟩)) else lanes.lookup d := by
  unfold dispatch
  by_cases h : d = d'
  · subst h
    rw [if_pos rfl]
    split
    · rename_i hnone
      rw [hnone]
      rfl
    · rename_i lane hlane
      rw [Map.lookup_insert_ite, if_pos rfl, hlane]
      rfl
  · rw [if_neg h]
    split
    · rfl
    · rw [Map.lookup_insert_ite, if_neg h]

/-- Retiring a lifecycle clears it in the lane of its device, where it is still the one worked
for. -/
theorem lookup_retire (d' : DeviceId) (l : ℕ) :
    (lanes.retire d' l).lookup d =
      if d = d' then (lanes.lookup d).map fun lane =>
        if lane.lifecycle = some l then { lane with lifecycle := none } else lane
      else lanes.lookup d := by
  unfold retire
  by_cases h : d = d'
  · subst h
    rw [if_pos rfl]
    split
    · rename_i lane hlane
      rw [hlane, Option.map_some]
      split
      · rw [Map.lookup_insert_ite, if_pos rfl]
      · exact hlane
    · rename_i hnone
      rw [hnone]
      rfl
  · rw [if_neg h]
    split
    · split
      · rw [Map.lookup_insert_ite, if_neg h]
      · rfl
    · rfl

/-- Activating a lifecycle makes the lane, where there is none, and tells its worker. -/
theorem lookup_activate_self (d : DeviceId) (l : ℕ) :
    (lanes.activate d l).lookup d =
      some ({ (lanes.lookup d).getD .new with lifecycle := some l }.send (.activate l)) := by
  unfold activate
  dsimp only
  rw [Map.lookup_insert_ite, if_pos rfl, Map.lookup_retain_filter]
  cases lanes.lookup d with
  | none => rfl
  | some lane => simp [Option.filter]

/-- The other lanes are kept as they are, or dropped. -/
theorem lookup_activate_ne (h : d ≠ d') (l : ℕ) :
    (lanes.activate d' l).lookup d = (lanes.lookup d).filter fun lane =>
      lane.lifecycle.isSome || decide (lane.outstanding > 0) := by
  unfold activate
  dsimp only
  rw [Map.lookup_insert_ite, if_neg h, Map.lookup_retain_filter]
  simp [h]

end Lanes

/-! ## Lanes and actions -/

/-- A lane of which `v` is known and to which `jobs` have been dispatched. -/
structure Tracks (v : LaneView) (jobs : List LaneJob) (lane : Option DeviceLane) : Prop where
  watch : lane.bind DeviceLane.lifecycle = v.active?
  there : v ≠ .gone → lane.isSome = true
  follows : ∀ x ∈ lane, x.Follows jobs
  counted : ∀ x ∈ lane, x.Counted

namespace Tracks

variable {v : LaneView} {jobs : List LaneJob} {lane : Option DeviceLane}

/-- A job is sent to the lane, or dropped where there is none. -/
theorem send (h : Tracks v jobs lane) (task : LaneTask) :
    Tracks v (jobs ++ [.work task]) (lane.map (DeviceLane.send (.work task))) := by
  constructor
  · rw [← h.watch]
    cases lane <;> rfl
  · rw [Option.isSome_map]
    exact h.there
  · intro x hx
    rcases Option.mem_map.mp hx with ⟨y, hy, rfl⟩
    exact (h.follows y hy).send _
  · intro x hx
    rcases Option.mem_map.mp hx with ⟨y, hy, rfl⟩
    exact (h.counted y hy).send _

/-- A lane tracks what is known of it through a retirement. -/
theorem retire (h : Tracks v jobs lane) (l : ℕ) :
    Tracks (if v = .active l then .idle else v) jobs (lane.map fun x =>
      if x.lifecycle = some l then { x with lifecycle := none } else x) := by
  -- the lane works for what is known of it, so both retire it or neither does
  have hiff : ∀ x ∈ lane, x.lifecycle = some l ↔ v = .active l := by
    intro x hx
    obtain rfl := Option.mem_def.mp hx
    rw [← LaneView.active?_eq_some, ← h.watch]
    rfl
  constructor
  · cases lane with
    | none =>
        have hnone : v.active? = none := h.watch.symm
        have hne : v ≠ .active l := by
          rintro rfl
          cases hnone
        rw [if_neg hne, hnone]
        rfl
    | some x =>
        rw [Option.map_some, Option.bind_some]
        by_cases hv : v = .active l
        · rw [if_pos hv, if_pos ((hiff x rfl).mpr hv)]
          rfl
        · rw [if_neg hv, if_neg fun hl => hv ((hiff x rfl).mp hl)]
          exact h.watch
  · intro hthere
    rw [Option.isSome_map]
    refine h.there ?_
    rintro rfl
    simp at hthere
  · intro x hx
    rcases Option.mem_map.mp hx with ⟨y, hy, rfl⟩
    split <;> exact h.follows y hy
  · intro x hx
    rcases Option.mem_map.mp hx with ⟨y, hy, rfl⟩
    split <;> exact h.counted y hy

/-- The lane is activated, and made where there is none. -/
theorem activate (h : Tracks v jobs lane) (l : ℕ) :
    Tracks (.active l) (jobs ++ [.activate l])
      (some (({ lane.getD .new with lifecycle := some l } : DeviceLane).send (.activate l))) := by
  refine ⟨rfl, fun _ => rfl, ?_, ?_⟩
  · intro x hx
    obtain rfl := Option.some.inj hx
    cases lane with
    | none => exact ⟨jobs, rfl, Or.inr ⟨rfl, l, [], rfl⟩⟩
    | some y =>
        have hy : ({ y with lifecycle := some l } : DeviceLane).Follows jobs := h.follows y rfl
        exact hy.send _
  · intro x hx
    obtain rfl := Option.some.inj hx
    cases lane with
    | none => rfl
    | some y =>
        have hy : ({ y with lifecycle := some l } : DeviceLane).Counted := h.counted y rfl
        exact hy.send _

/-- Another lane is activated: this one is kept, or has nothing to do. -/
theorem collect (h : Tracks v jobs lane) :
    Tracks v.collected jobs (lane.filter fun x =>
      x.lifecycle.isSome || decide (x.outstanding > 0)) := by
  constructor
  · rw [LaneView.active?_collected, ← h.watch]
    cases lane with
    | none => rfl
    | some x =>
        cases hx : x.lifecycle with
        | none =>
            by_cases ho : x.outstanding > 0
            · simp [Option.filter, hx, ho]
            · simp [Option.filter, hx, ho]
        | some l => simp [Option.filter, hx]
  · intro hthere
    -- an idle lane may be gone, and an active one is kept
    cases hv : v with
    | gone =>
        rw [hv] at hthere
        exact absurd rfl hthere
    | idle =>
        rw [hv] at hthere
        exact absurd rfl hthere
    | active l =>
        have hwatch := h.watch
        rw [hv] at hwatch
        rcases Option.bind_eq_some_iff.mp hwatch with ⟨x, rfl, hx⟩
        simp [Option.filter, hx]
  · intro x hx
    exact h.follows x (Option.mem_filter_iff.mp hx).1
  · intro x hx
    exact h.counted x (Option.mem_filter_iff.mp hx).1

/-- Executing an action does to the lane of `d` what the view of it says. -/
theorem execute {d : DeviceId} {lanes : Lanes} (h : Tracks v jobs (lanes.lookup d))
    (a : PeerAction) :
    Tracks (v.see d a) (jobs ++ a.jobs d) ((lanes.execute a).lookup d) := by
  have hskip : ∀ {js : List LaneJob}, js = [] → Tracks v (jobs ++ js) (lanes.lookup d) := by
    rintro js rfl
    rw [List.append_nil]
    exact h
  have hdispatch : ∀ {lanes : Lanes} {v : LaneView} {jobs : List LaneJob},
      Tracks v jobs (lanes.lookup d) → ∀ (d' : DeviceId) (l : ℕ) (c : Cancellation) (w : LaneWork),
      Tracks v (jobs ++ if d' = d then [.work ⟨l, c, w⟩] else [])
        ((lanes.dispatch d' l c w).lookup d) := by
    intro lanes v jobs h d' l c w
    rw [Lanes.lookup_dispatch]
    by_cases hd : d = d'
    · rw [if_pos hd, if_pos hd.symm]
      exact h.send _
    · rw [if_neg hd, if_neg (Ne.symm hd), List.append_nil]
      exact h
  have hactivate : ∀ (d' : DeviceId) (l : ℕ),
      Tracks (if d' = d then .active l else v.collected)
        (jobs ++ if d' = d then [.activate l] else []) ((lanes.activate d' l).lookup d) := by
    intro d' l
    by_cases hd : d = d'
    · subst hd
      rw [if_pos rfl, if_pos rfl, Lanes.lookup_activate_self]
      exact h.activate l
    · rw [if_neg (Ne.symm hd), if_neg (Ne.symm hd), Lanes.lookup_activate_ne hd, List.append_nil]
      exact h.collect
  cases a with
  | startConnect d' attempt l =>
      have hboth := hdispatch (hactivate d' l) d' l .whileQueued .connect
      rw [List.append_assoc] at hboth
      by_cases hd : d' = d
      · simp only [if_pos hd] at hboth
        simp only [LaneView.see, PeerAction.jobs, if_pos hd]
        exact hboth
      · simp only [if_neg hd] at hboth
        simp only [LaneView.see, PeerAction.jobs, if_neg hd]
        exact hboth
  | readVersion d' l => exact hdispatch h d' l .immediate .readVersion
  | retireLifecycle d' l =>
      change Tracks _ (jobs ++ []) ((lanes.retire d' l).lookup d)
      rw [Lanes.lookup_retire, List.append_nil]
      by_cases hd : d = d'
      · subst hd
        simpa [LaneView.see] using h.retire l
      · rw [if_neg hd]
        simpa [LaneView.see, Ne.symm hd] using h
  | closeChannel d' l channel reason => exact hdispatch h d' l .never .closeChannel
  | closeNativeConnection d' l => exact hdispatch h d' l .never .closeNativeConnection
  | refresh d' l => exact hdispatch h d' l .never .refresh
  | startDataPipe d' l g role target path ch => exact hactivate d' l
  | upgradeToL2cap d' l u => exact hdispatch h d' l .immediate (.openL2cap u)
  | ackSend g waker result => exact hskip rfl
  | restorePeripheral b => exact hskip rfl
  | restartScan => exact hskip rfl
  | swapPipeToL2cap d' channel tx => exact hskip rfl
  | putPeerStore p snapshot => exact hskip rfl
  | forgetPeerStore p => exact hskip rfl
  | emitMetric name => exact hskip rfl

/-- The worker takes a job, or its work ends: what is known of the lane stays so. -/
theorem replace {x x' : DeviceLane} (h : Tracks v jobs (some x))
    (hlife : x'.lifecycle = x.lifecycle) (hfollows : x'.Follows jobs) (hcounted : x'.Counted) :
    Tracks v jobs (some x') := by
  refine ⟨?_, fun _ => rfl, ?_, ?_⟩
  · rw [← h.watch]
    exact hlife
  · intro y hy
    obtain rfl := Option.some.inj hy
    exact hfollows
  · intro y hy
    obtain rfl := Option.some.inj hy
    exact hcounted

end Tracks

/-! ## The actor -/

namespace Actor

variable {a a' : Actor}

theorem pop_eq {io : Io} {exact replaced : Option DeviceId}
    (hs : step (.pop io exact replaced) a = some a') :
    ∃ letter, a.inbox = letter :: a'.inbox ∧ a.loop.todo = [] ∧
      a'.reg = (a.reg.runCommand io exact replaced letter.cmd).reg ∧
      a'.loop.todo = (a.reg.runCommand io exact replaced letter.cmd).actions := by
  rcases pop_cases hs with ⟨letter, rest, hl, hi, rfl⟩
  exact ⟨letter, hi, by rw [hl]; rfl, rfl, rfl⟩

/-- Executing an action touches neither the registry nor the inbox. -/
theorem execute_eq (hs : step .execute a = some a') :
    a'.reg = a.reg ∧ a'.inbox = a.inbox ∧ a'.loop.todo = a.loop.todo.tail := by
  rcases execute_cases hs with ⟨shutdown, hl, rfl⟩ | ⟨_, _, _, _, _, _, _, todo, _, hl, rfl⟩ |
    ⟨_, todo, _, hl, -, rfl⟩
  · refine ⟨rfl, rfl, ?_⟩
    rw [hl]
    cases shutdown <;> rfl
  · exact ⟨rfl, rfl, by rw [hl]; rfl⟩
  · exact ⟨rfl, rfl, by rw [hl]; rfl⟩

theorem sent_eq (hs : step .sent a = some a') :
    ∃ ready, a'.reg = a.reg ∧ a'.inbox = a.inbox ++ [{ cmd := ready }] ∧
      a'.loop.todo = a.loop.todo := by
  rcases sent_cases hs with ⟨ready, todo, shutdown, hl, -, rfl⟩
  exact ⟨ready, rfl, rfl, by rw [hl]; rfl⟩

end Actor

/-! ## What one step does -/

namespace Driven

/-- What one step of the composed system does to the actor, the list of actions and the lanes. -/
inductive Change (s : Driven) : DrivenLabel → Driven → Prop where
  /-- A letter arrives, or the peers are iterated in another order. -/
  | quiet {l : DrivenLabel} {s' : Driven} (emits : emits (s, l) = [])
      (executes : executes (s, l) = [])
      (peer : ∀ d, s'.actor.reg.peer d = s.actor.reg.peer d)
      (next : s'.actor.reg.nextLifecycle = s.actor.reg.nextLifecycle)
      (inbox : ∃ more, s'.actor.inbox = s.actor.inbox ++ more) (todo : s'.todo = s.todo)
      (lanes : s'.lanes = s.lanes) : Change s l s'
  | handle {io : Io} {exact replaced : Option DeviceId} {letter : Letter ℕ} {s' : Driven}
      (inbox : s.actor.inbox = letter :: s'.actor.inbox) (before : s.todo = [])
      (reg : s'.actor.reg = (s.actor.reg.runCommand io exact replaced letter.cmd).reg)
      (todo : s'.todo = (s.actor.reg.runCommand io exact replaced letter.cmd).actions)
      (lanes : s'.lanes = s.lanes) : Change s (.actor (.pop io exact replaced)) s'
  | execute {s' : Driven} (reg : s'.actor.reg = s.actor.reg)
      (inbox : s'.actor.inbox = s.actor.inbox) (todo : s'.todo = s.todo.tail)
      (lanes : s'.lanes = s.afterActor .execute) : Change s (.actor .execute) s'
  | recv {d : DeviceId} {lane lane' : DeviceLane} {s' : Driven}
      (hlane : s.lanes.lookup d = some lane) (hrecv : lane.recv = some lane')
      (after : s' = { s with lanes := s.lanes.insert d lane' }) : Change s (.recv d) s'
  /-- The work has ended, with a report to the inbox or without. -/
  | finish {d : DeviceId} {outcome : Outcome} {lane lane' : DeviceLane} {task : LaneTask}
      {report : Option PeerCommand} {s' : Driven} (hlane : s.lanes.lookup d = some lane)
      (ended : lane.Ended task lane') (hreport : task.report d outcome = some report)
      (reg : s'.actor.reg = s.actor.reg)
      (inbox : s'.actor.inbox = s.actor.inbox ++ report.toList.map fun cmd => ⟨cmd, none⟩)
      (todo : s'.todo = s.todo) (lanes : s'.lanes = s.lanes.insert d lane') :
      Change s (.finish d outcome) s'
  | cancel {d : DeviceId} {lane lane' : DeviceLane} {task : LaneTask} {s' : Driven}
      (hlane : s.lanes.lookup d = some lane) (ended : lane.Ended task lane')
      (immediate : task.cancellation = .immediate)
      (retired : lane.lifecycle ≠ some task.lifecycleId)
      (after : s' = { s with lanes := s.lanes.insert d lane' }) : Change s (.cancel d) s'

variable {s s' : Driven} {l : DrivenLabel}

/-- The steps of the actor, one by one. -/
theorem change_of_actor {l : ActorLabel} (hs : step (.actor l) s = some s') :
    Change s (.actor l) s' := by
  rcases Option.map_eq_some_iff.mp hs with ⟨actor, hactor, rfl⟩
  cases l with
  | produce letter =>
      obtain rfl := Actor.produce_eq hactor
      exact .quiet (by simp [Driven.emits]) rfl (fun _ => rfl) rfl
        ⟨[letter], rfl⟩ rfl rfl
  | pop io exact replaced =>
      rcases Actor.pop_eq hactor with ⟨letter, hinbox, hbefore, hreg, htodo⟩
      exact .handle hinbox hbefore hreg htodo rfl
  | execute =>
      rcases Actor.execute_eq hactor with ⟨hreg, hinbox, htodo⟩
      exact .execute hreg hinbox htodo rfl
  | sent =>
      rcases Actor.sent_eq hactor with ⟨ready, hreg, hinbox, htodo⟩
      exact .quiet (by simp [Driven.emits]) rfl
        (fun d => by rw [hreg]) (by rw [hreg]) ⟨[{ cmd := ready }], hinbox⟩ htodo rfl
  | reorder ks =>
      rcases Option.map_eq_some_iff.mp hactor with ⟨reg, hreg, rfl⟩
      refine .quiet (by simp [Driven.emits]) rfl
        (fun d => peer_reorder hreg d) ?_ ⟨[], (List.append_nil _).symm⟩ rfl rfl
      change (if _ then some _ else none) = _ at hreg
      split at hreg
      · obtain rfl := Option.some.inj hreg
        rfl
      · cases hreg

/-- Every step is one of those changes. -/
theorem change_of_step (hs : step l s = some s') : Change s l s' := by
  cases l with
  | actor l => exact change_of_actor hs
  | recv d =>
      rcases Option.map_eq_some_iff.mp hs with ⟨lane', hrecv, rfl⟩
      rcases Option.bind_eq_some_iff.mp hrecv with ⟨lane, hlane, hrecv⟩
      exact .recv hlane hrecv rfl
  | finish d outcome =>
      change s.finish d outcome = _ at hs
      unfold Driven.finish at hs
      split at hs
      · cases hs
      · rename_i task lane' hfinish
        rcases Option.bind_eq_some_iff.mp hfinish with ⟨lane, hlane, hfinish⟩
        have hended := DeviceLane.ended_of_finish hfinish
        split at hs
        · cases hs
        · rename_i hreport
          obtain rfl := Option.some.inj hs
          exact .finish hlane hended hreport rfl (List.append_nil _).symm rfl rfl
        · rename_i cmd hreport
          rcases Option.map_eq_some_iff.mp hs with ⟨actor, hactor, rfl⟩
          obtain rfl := Actor.produce_eq hactor
          exact .finish hlane hended hreport rfl rfl rfl rfl
  | cancel d =>
      rcases Option.map_eq_some_iff.mp hs with ⟨lane', hcancel, rfl⟩
      rcases Option.bind_eq_some_iff.mp hcancel with ⟨lane, hlane, hcancel⟩
      rcases DeviceLane.ended_of_cancel hcancel with ⟨task, hended, himm, hretired⟩
      exact .cancel hlane hended himm hretired rfl

/-! ## Along a run -/

theorem issued_snoc (h : List (Driven × DrivenLabel)) (x : Driven × DrivenLabel) :
    issued (h ++ [x]) = issued h ++ emits x := by
  simp [issued]

theorem executed_snoc (h : List (Driven × DrivenLabel)) (x : Driven × DrivenLabel) :
    executed (h ++ [x]) = executed h ++ executes x := by
  simp [executed]

/-- Registry, driver and lanes, against what has been issued and executed. -/
structure Inv (h : List (Driven × DrivenLabel)) (s : Driven) : Prop where
  keyed : s.actor.reg.Keyed
  settled : s.actor.reg.Settled
  order : issued h = executed h ++ s.todo
  fits : ∀ d, Fits d none (s.actor.reg.peer d) (issued h)
  ledger : Ledger (retiredIds (issued h)) (upgradeIds (issued h)) s.actor.reg
  tracks : ∀ d, Tracks (viewOf d (executed h)) (dispatched d (executed h)) (s.lanes.lookup d)

variable {h : List (Driven × DrivenLabel)}

/-- The lane of one device has changed, and the actions are the same. -/
theorem Inv.replaceLane (hinv : Inv h s) {d : DeviceId} {lane lane' : DeviceLane}
    (hlane : s.lanes.lookup d = some lane) (hlife : lane'.lifecycle = lane.lifecycle)
    (hfollows : ∀ jobs, lane.Follows jobs → lane'.Follows jobs)
    (hcounted : lane.Counted → lane'.Counted) (d' : DeviceId) :
    Tracks (viewOf d' (executed h)) (dispatched d' (executed h))
      ((s.lanes.insert d lane').lookup d') := by
  rw [Map.lookup_insert_ite]
  split
  · rename_i heq
    subst heq
    have htracks := hinv.tracks d'
    rw [hlane] at htracks
    exact htracks.replace hlife (hfollows _ (htracks.follows lane rfl))
      (hcounted (htracks.counted lane rfl))
  · exact hinv.tracks d'

/-- A turn keeps the account of the retired lifecycles and the upgrades asked for. -/
theorem ledger_runCommand {r : Registry} {io : Io} {exact replaced : Option DeviceId}
    {cmd : PeerCommand} {R : List ℕ} {U : List (ℕ × ℕ)} (hcmd : cmd ≠ .shutdown)
    (hset : r.Settled) (h : Ledger R U r) :
    Ledger (R ++ retiredIds (r.runCommand io exact replaced cmd).actions)
      (U ++ upgradeIds (r.runCommand io exact replaced cmd).actions)
      (r.runCommand io exact replaced cmd).reg := by
  have hboth : (r.runCommand io exact replaced cmd).reg.Settled ∧
      Ledger (R ++ retiredIds (r.runCommand io exact replaced cmd).actions)
        (U ++ upgradeIds (r.runCommand io exact replaced cmd).actions)
        (r.runCommand io exact replaced cmd).reg := by
    refine runCommand_rule (P := fun t => t.reg.Settled ∧
      Ledger (R ++ retiredIds t.actions) (U ++ upgradeIds t.actions) t.reg) hcmd ⟨hset, ?_⟩ ?_
    · rw [show retiredIds (Turn.start r).actions = [] from rfl,
        show upgradeIds (Turn.start r).actions = [] from rfl, List.append_nil, List.append_nil]
      exact h
    · rintro cmd' t t' - hs ⟨ht, hledger⟩
      exact ⟨ht.step hs, hledger.step ht hs⟩
  exact hboth.2

theorem Inv.step (hinv : Inv h s) (hC : NoShutdown s l) (hs : system.step l s = some s') :
    Inv (h ++ [(s, l)]) s' := by
  have hchange := change_of_step hs
  -- a step that neither emits nor executes anything, and leaves the entries alone
  have hframe : emits (s, l) = [] → executes (s, l) = [] →
      (∀ d, s'.actor.reg.peer d = s.actor.reg.peer d) →
      s'.actor.reg.nextLifecycle = s.actor.reg.nextLifecycle → s'.todo = s.todo →
      (∀ d, Tracks (viewOf d (executed h)) (dispatched d (executed h)) (s'.lanes.lookup d)) →
      Inv (h ++ [(s, l)]) s' := by
    intro hemits hexecutes hpeer hnext htodo htracks
    have hissued : issued (h ++ [(s, l)]) = issued h := by
      rw [issued_snoc, hemits, List.append_nil]
    have hexecuted : executed (h ++ [(s, l)]) = executed h := by
      rw [executed_snoc, hexecutes, List.append_nil]
    constructor
    · intro d e he
      exact hinv.keyed d e ((hpeer d).symm.trans he)
    · intro d e he
      exact hinv.settled d e ((hpeer d).symm.trans he)
    · rw [hissued, hexecuted, htodo]
      exact hinv.order
    · intro d
      rw [hissued, hpeer d]
      exact hinv.fits d
    · rw [hissued]
      exact hinv.ledger.of_peers hnext fun d e he => (hpeer d).symm.trans he
    · rw [hexecuted]
      exact htracks
  cases hchange with
  | quiet hemits hexecutes hpeer hnext hinbox htodo hlanes =>
      refine hframe hemits hexecutes hpeer hnext htodo ?_
      rw [hlanes]
      exact hinv.tracks
  | @handle io exact replaced letter _ hinbox hbefore hreg htodo hlanes =>
      have hcmd : letter.cmd ≠ .shutdown := by
        have hhead : letter ∈ s.actor.inbox.head? := by
          rw [hinbox]
          rfl
        exact hC letter hhead
      have hissued : issued (h ++ [(s, .actor (.pop io exact replaced))]) =
          issued h ++ (s.actor.reg.runCommand io exact replaced letter.cmd).actions := by
        rw [issued_snoc, emits, hinbox]
      have hexecuted : executed (h ++ [(s, .actor (.pop io exact replaced))]) = executed h := by
        rw [executed_snoc]
        exact List.append_nil _
      constructor
      · rw [hreg]
        exact runCommand_keyed hinv.keyed io exact replaced letter.cmd
      · rw [hreg]
        exact runCommand_settled hcmd hinv.settled
      · rw [hissued, hexecuted, htodo, hinv.order, hbefore, List.append_nil]
      · intro d
        rw [hissued, hreg]
        exact (hinv.fits d).trans (runCommand_fits hcmd hinv.settled hinv.keyed d)
      · rw [hissued, hreg, retiredIds_append, upgradeIds_append]
        exact ledger_runCommand hcmd hinv.settled hinv.ledger
      · rw [hexecuted, hlanes]
        exact hinv.tracks
  | execute hreg hinbox htodo hlanes =>
      have hemits : emits (s, .actor .execute) = [] := by
        simp [emits]
      have hissued : issued (h ++ [(s, .actor .execute)]) = issued h := by
        rw [issued_snoc, hemits, List.append_nil]
      have hexecuted : executed (h ++ [(s, .actor .execute)]) = executed h ++ s.todo.take 1 := by
        rw [executed_snoc]
        rfl
      constructor
      · rw [hreg]
        exact hinv.keyed
      · rw [hreg]
        exact hinv.settled
      · rw [hissued, hexecuted, htodo, hinv.order, List.append_assoc, ← List.drop_one,
          List.take_append_drop]
      · intro d
        rw [hissued, hreg]
        exact hinv.fits d
      · rw [hissued, hreg]
        exact hinv.ledger
      · intro d
        rw [hexecuted, hlanes]
        unfold afterActor
        cases htodo' : s.todo with
        | nil => simpa [htodo'] using hinv.tracks d
        | cons a rest =>
            have hnext := (hinv.tracks d).execute a
            simpa [htodo', viewOf, dispatched] using hnext
  | @recv d lane lane' _ hlane hrecv hs' =>
      subst hs'
      exact hframe rfl rfl (fun _ => rfl) rfl rfl
        (hinv.replaceLane hlane (DeviceLane.recv_cases hrecv).2.1 (fun _ hf => hf.recv hrecv)
          fun hc => hc.recv hrecv)
  | @finish d outcome lane lane' task report _ hlane hended hreport hreg hinbox htodo hlanes =>
      refine hframe rfl rfl (fun d => by rw [hreg]) (by rw [hreg]) htodo ?_
      rw [hlanes]
      refine hinv.replaceLane hlane ?_ ?_ fun hc => hc.ended hended
      · rw [hended.after]
        rfl
      · intro jobs hf
        rw [hended.after]
        exact hf
  | @cancel d lane lane' task _ hlane hended himm hretired hs' =>
      subst hs'
      refine hframe rfl rfl (fun _ => rfl) rfl rfl ?_
      refine hinv.replaceLane hlane ?_ ?_ fun hc => hc.ended hended
      · rw [hended.after]
        rfl
      · intro jobs hf
        rw [hended.after]
        exact hf

/-- The invariant holds along every run without Shutdown. -/
theorem inv_of_run (hrun : system.Run h s) (hC : System.Meets NoShutdown h) : Inv h s := by
  induction hrun with
  | init hinit =>
      rcases hinit with ⟨policy, endpoint, rfl⟩
      refine ⟨keyed_new policy endpoint, (fun d e he => nomatch he), rfl, fun d => ?_, ?_, fun d => ?_⟩
      · exact .foreign fun a ha => nomatch ha
      · exact ledger_new policy endpoint
      · exact ⟨rfl, (fun hv => absurd rfl hv), (fun x hx => nomatch hx), fun x hx => nomatch hx⟩
  | step _ hs ih =>
      rw [System.meets_append, System.meets_singleton] at hC
      exact (ih hC.1).step hC.2 hs

end Driven

/-! ## Where a queued job comes from -/

/-- An element of a flattened list belongs to one of its parts. -/
theorem flatMap_split {α β : Type} {f : α → List β} {as : List α} {x y : List β} {b : β}
    (h : as.flatMap f = x ++ b :: y) :
    ∃ p a q u v, as = p ++ a :: q ∧ f a = u ++ b :: v ∧ x = p.flatMap f ++ u ∧
      y = v ++ q.flatMap f := by
  induction as generalizing x with
  | nil => simp at h
  | cons a as ih =>
      rw [List.flatMap_cons, List.append_eq_append_iff] at h
      rcases h with ⟨x', rfl, h⟩ | ⟨u, hfa, h⟩
      · rcases ih h with ⟨p, a', q, u, v, rfl, hf, rfl, hy⟩
        exact ⟨a :: p, a', q, u, v, rfl, hf, by simp, hy⟩
      · cases u with
        | nil =>
            rcases ih (x := []) h.symm with ⟨p, a', q, u', v, rfl, hf, hx, hy⟩
            rw [List.append_nil] at hfa
            refine ⟨a :: p, a', q, u', v, rfl, hf, ?_, hy⟩
            rw [List.flatMap_cons, List.append_assoc, ← hx, List.append_nil, hfa]
        | cons b' u =>
            rw [List.cons_append, List.cons.injEq] at h
            obtain ⟨rfl, hy⟩ := h
            exact ⟨[], a, as, x, u, rfl, hfa, rfl, hy⟩

/-- The jobs of an action: an activation may go first, and the work is for the lifecycle
that the action names. A cleanup comes alone and cannot be cancelled. -/
theorem jobs_split {d : DeviceId} {a : PeerAction} {task : LaneTask} {u v : List LaneJob}
    (h : a.jobs d = u ++ .work task :: v) :
    (u = [.activate task.lifecycleId] ∨
      u = [] ∧ (task.work = .refresh ∨ a.owned = some (d, task.lifecycleId))) ∧
      (task.work.isCleanup = true → u = [] ∧ v = [] ∧ task.cancellation = .never) := by
  -- an action that is one job for one lane
  have hone : ∀ {d' : DeviceId} {task' : LaneTask},
      (if d' = d then [LaneJob.work task'] else []) = u ++ .work task :: v →
      d' = d ∧ u = [] ∧ v = [] ∧ task' = task := by
    intro d' task' h
    split at h
    · rename_i hd
      cases u with
      | nil =>
          obtain ⟨htask, hv⟩ := List.cons.inj h
          exact ⟨hd, rfl, hv.symm, LaneJob.work.inj htask⟩
      | cons b u => simp at h
    · simp at h
  cases a with
  -- a dial: the activation and then the job
  | startConnect d' attempt l =>
      change (if d' = d then _ else _) = _ at h
      split at h
      · cases u with
        | nil => simp at h
        | cons b u =>
            cases u with
            | nil =>
                simp only [List.cons_append, List.nil_append, List.cons.injEq,
                  LaneJob.work.injEq] at h
                obtain ⟨rfl, rfl, -⟩ := h
                exact ⟨Or.inl rfl, fun hc => nomatch hc⟩
            | cons b' u => simp at h
      · simp at h
  | startDataPipe d' l g role target path ch =>
      change (if d' = d then _ else _) = _ at h
      split at h
      · cases u with
        | nil => simp at h
        | cons b u => simp at h
      · simp at h
  | readVersion d' l =>
      obtain ⟨rfl, rfl, rfl, rfl⟩ := hone h
      exact ⟨Or.inr ⟨rfl, Or.inr rfl⟩, fun hc => nomatch hc⟩
  | closeChannel d' l channel reason =>
      obtain ⟨rfl, rfl, rfl, rfl⟩ := hone h
      exact ⟨Or.inr ⟨rfl, Or.inr rfl⟩, fun _ => ⟨rfl, rfl, rfl⟩⟩
  | closeNativeConnection d' l =>
      obtain ⟨rfl, rfl, rfl, rfl⟩ := hone h
      exact ⟨Or.inr ⟨rfl, Or.inr rfl⟩, fun _ => ⟨rfl, rfl, rfl⟩⟩
  | refresh d' l =>
      obtain ⟨rfl, rfl, rfl, rfl⟩ := hone h
      exact ⟨Or.inr ⟨rfl, Or.inl rfl⟩, fun _ => ⟨rfl, rfl, rfl⟩⟩
  | upgradeToL2cap d' l u' =>
      obtain ⟨rfl, rfl, rfl, rfl⟩ := hone h
      exact ⟨Or.inr ⟨rfl, Or.inr rfl⟩, fun hc => nomatch hc⟩
  | _ => simp [PeerAction.jobs] at h

namespace Driven

variable {h : List (Driven × DrivenLabel)} {s s' : Driven} {d : DeviceId} {lane : DeviceLane}

/-- An order meant for a lifecycle in place finds it activated last, and the lane there. -/
theorem Inv.lands (hinv : Inv h s) {p q : List PeerAction} {a : PeerAction} {l : ℕ}
    (hsplit : issued h = p ++ a :: q) (ha : a.owned = some (d, l)) :
    viewOf d p ≠ .gone ∧ lastActivated d p = some l := by
  have hlands : Lands d .gone none (issued h) :=
    (hinv.fits d).lands .gone none rfl fun l hl => nomatch hl
  rw [hsplit] at hlands
  exact hlands.split ha

/-- A queued job has its turn under its own lifecycle, a refresh apart; and no cleanup can be
cancelled. -/
theorem Inv.queued (hinv : Inv h s) (hlane : s.lanes.lookup d = some lane)
    {queue rest : List LaneJob} {task : LaneTask}
    (hjobs : lane.jobs = queue ++ .work task :: rest) :
    (task.work ≠ .refresh → queue.foldl LaneJob.owner lane.nativeOwner = some task.lifecycleId) ∧
      (task.work.isCleanup = true → task.cancellation = .never) := by
  have htracks := hinv.tracks d
  rw [hlane] at htracks
  rcases htracks.follows lane rfl with ⟨past, hpast, howner⟩
  rw [hjobs, ← List.append_assoc] at hpast
  rcases flatMap_split hpast with ⟨p, a, q, u, v, hexecuted, hja, hpq, -⟩
  rcases jobs_split hja with ⟨hu, hcancel⟩
  refine ⟨?_, fun hc => (hcancel hc).2.2⟩
  intro hwork
  rw [DeviceLane.Follows.owner_at hjobs howner, hpq, lastOwner, List.foldl_append]
  rcases hu with rfl | ⟨rfl, hrefresh | howned⟩
  · rfl
  · exact absurd hrefresh hwork
  · have hissued : issued h = p ++ a :: (q ++ s.todo) := by
      rw [hinv.order, hexecuted]
      simp
    have hlast := (hinv.lands hissued howned).2
    rw [← lastOwner_dispatched] at hlast
    exact hlast

end Driven

end IrohBle
