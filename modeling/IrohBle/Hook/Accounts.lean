import IrohBle.Hook.Tasks
import IrohBle.Routing.Ids

/-! # Hook.Accounts: which pipe a `Stalled` is raised for

The hook raises `Stalled` for the pipes that a promotion evicted and for a pipe whose last
connection is gone. What it sends names the device only; an account is the pipe together with
the device it was resolved to, from the lookup on until the command is sent.

* `raising?`: the pipe whose device a step looks up.
* `Passes`: a step passes accounts on, opens at most the one it looks up, and sends a
  `Stalled` only on an account.
-/

namespace IrohBle

open Lib

/-- The accounts that a task of the hook carries along. -/
def Task.accounts : Task → List (StableConnId × DeviceId)
  | .resolving a _ _ | .evicting a _ | .inserting a => a.evicted
  | .notifying _ _ _ evicted _ => evicted
  | .closing _ _ next => next.accounts
  | _ => []

/-- Those on their way to the forwarder. -/
def HookEvent.accounts : HookEvent → List (StableConnId × DeviceId)
  | .verifiedEndpoint _ _ evicted => evicted
  | .connectionClosed .. => []

/-- And those the forwarder has in hand. -/
def Forwarder.accounts : Forwarder → List (StableConnId × DeviceId)
  | .stalling todo _ _ => todo
  | .resolved _ pipe device => device.toList.map fun d => (pipe, d)
  | .raising _ pipe device => [(pipe, device)]
  | .idle | .hangingUp .. | .evicted .. => []

/-- The commands that come from the forwarder. -/
def PeerCommand.fromHook : PeerCommand → Bool
  | .stalled .. | .verifiedEndpoint .. => true
  | _ => false

namespace Hook

/-- Every account that is open. -/
def accounts (s : Hook) : List (StableConnId × DeviceId) :=
  s.tasks.flatMap Task.accounts ++ s.queue.flatMap HookEvent.accounts ++ s.forwarder.accounts

/-- The pipe whose device a step looks up: the next evicted pipe of a handshake, or the pipe the
forwarder hangs up. -/
def raising? (s : Hook) : HookLabel → Option StableConnId
  | .run i _ _ =>
    match s.tasks[i]? with
    | some (.resolving _ (pipe :: _) _) => some pipe
    | _ => none
  | .forward =>
    match s.forwarder with
    | .evicted _ pipe => some pipe
    | _ => none
  | _ => none

theorem mem_accounts {s : Hook} {x : StableConnId × DeviceId} : x ∈ s.accounts ↔
    (∃ t ∈ s.tasks, x ∈ t.accounts) ∨ (∃ event ∈ s.queue, x ∈ event.accounts) ∨
      x ∈ s.forwarder.accounts := by
  simp only [accounts, List.mem_append, List.mem_flatMap, or_assoc]

/-- What a letter says about a pipe was on account. -/
def OnAccount (s : Hook) (letter : Letter StableConnId) : Prop :=
  letter.cmd.fromHook = true ∧
    ∀ id ∈ letter.pipe, ∃ d cause, letter.cmd = .stalled d cause ∧ (id, d) ∈ s.accounts

/-- What a step does with the accounts, the inbox and the table. -/
structure Passes (s : Hook) (l : HookLabel) (s' : Hook) : Prop where
  accounts : ∀ x ∈ s'.accounts, x ∈ s.accounts ∨
    s.raising? l = some x.1 ∧ s.routing.deviceForPipe x.1 = some x.2
  inbox : s'.inbox = s.inbox ∨ ∃ letter, s'.inbox = s.inbox ++ [letter] ∧ s.OnAccount letter
  routing : s.routing.Frame s'.routing ∨
    ∃ now e, s'.routing = (s.routing.reserveOutbound now e).1

/-! ## Tasks -/

/-- What a step of the task `t` does with its accounts; `raised` is the pipe it looks up. -/
structure TaskPasses (raised : Option StableConnId) (t : Task) (s s' : Hook) (t' : Task) : Prop where
  tasks : s'.tasks = s.tasks
  forwarder : s'.forwarder = s.forwarder
  inbox : s'.inbox = s.inbox
  routing : s.routing.Frame s'.routing
  queue : ∀ event ∈ s'.queue, event ∈ s.queue ∨ ∀ x ∈ event.accounts, x ∈ t.accounts
  accounts : ∀ x ∈ t'.accounts, x ∈ t.accounts ∨
    raised = some x.1 ∧ s.routing.deviceForPipe x.1 = some x.2

variable {raised : Option StableConnId} {t t' : Task} {s : Hook}

/-- The task works on the table and on no account. -/
theorem TaskPasses.of_routing {routing : Routing} (hr : s.routing.Frame routing)
    (ha : ∀ x ∈ t'.accounts, x ∈ t.accounts) :
    TaskPasses raised t s { s with routing := routing } t' where
  tasks := rfl
  forwarder := rfl
  inbox := rfl
  routing := hr
  queue _ h := .inl h
  accounts x hx := .inl (ha x hx)

theorem TaskPasses.same (ha : ∀ x ∈ t'.accounts, x ∈ t.accounts) : TaskPasses raised t s s t' :=
  .of_routing (.refl _) ha

/-- The accounts that an event takes along were the task's own. -/
theorem TaskPasses.of_send {event : HookEvent} (he : ∀ x ∈ event.accounts, x ∈ t.accounts)
    (ha : ∀ x ∈ t'.accounts, x ∈ t.accounts) : TaskPasses raised t s (s.send event) t' where
  tasks := rfl
  forwarder := rfl
  inbox := rfl
  routing := .refl _
  queue event' h := by
    rcases List.mem_append.mp h with h | h
    · exact .inl h
    · rw [List.mem_singleton.mp h]
      exact .inr he
  accounts x hx := .inl (ha x hx)

/-- Closing a connection is not about accounts. -/
theorem TaskPasses.of_updateLink {conn : ConnId} {f : Link → Link}
    (ha : ∀ x ∈ t'.accounts, x ∈ t.accounts) : TaskPasses raised t s (s.updateLink conn f) t' where
  tasks := rfl
  forwarder := rfl
  inbox := rfl
  routing := .refl _
  queue _ h := .inl h
  accounts x hx := .inl (ha x hx)

theorem TaskPasses.of_conns {conns : ConnectionRegistry} (ha : ∀ x ∈ t'.accounts, x ∈ t.accounts) :
    TaskPasses raised t s { s with conns := conns } t' where
  tasks := rfl
  forwarder := rfl
  inbox := rfl
  routing := .refl _
  queue _ h := .inl h
  accounts x hx := .inl (ha x hx)

/-- `close_pipe` hands the accounts to the task that closes the connections. -/
theorem taskPasses_closePipe {now : ℕ} {order : List ConnId} {pipe : StableConnId} {reason : String}
    {next : Task} {x : Hook × Task} (h : s.closePipe now order pipe reason next = some x)
    (ha : ∀ y ∈ next.accounts, y ∈ t.accounts) : TaskPasses raised t s x.1 x.2 := by
  unfold closePipe at h
  split at h
  · obtain rfl := Option.some.inj h
    exact .of_conns ha
  · cases h

/-- The pipe whose device the task looks up. -/
def lookedUp : Task → Option StableConnId
  | .resolving _ (pipe :: _) _ => some pipe
  | _ => none

theorem taskPasses {now : ℕ} {order : List ConnId} {x : Hook × Task}
    (h : s.runTask now order t = some x) : TaskPasses (lookedUp t) t s x.1 x.2 := by
  cases t with
  | handshake conn =>
      rcases Option.map_eq_some_iff.mp h with ⟨l, -, hx⟩
      cases ht : l.token <;> rw [ht] at hx <;> subst hx <;> exact .same fun _ h => h
  | promoting conn remote pipe =>
      have hf := Routing.Frame.promote s.routing now pipe s.self remote
      simp only [runTask] at h
      split at h <;> rename_i hp <;> obtain rfl := Option.some.inj h <;> rw [hp] at hf <;>
        exact .of_routing hf fun _ h => h
  | rejecting conn remote pipe =>
      obtain rfl := Option.some.inj h
      exact .of_send (fun _ h => nomatch h) fun _ h => h
  | refusing conn =>
      obtain rfl := Option.some.inj h
      exact .of_updateLink fun _ h => h
  | resolving a todo evicted =>
      cases todo with
      | nil =>
          obtain rfl := Option.some.inj h
          exact .same fun _ h => h
      | cons pipe todo =>
          -- the lookup opens an account, for the device that the table gives for the pipe
          obtain rfl := Option.some.inj h
          refine ⟨rfl, rfl, rfl, .refl _, fun _ h => .inl h, fun x hx => ?_⟩
          rcases List.mem_append.mp hx with hx | hx
          · exact .inl hx
          · right
            simp only [List.mem_map, Option.mem_toList] at hx
            rcases hx with ⟨device, hd, rfl⟩
            exact ⟨rfl, hd⟩
  | evicting a todo =>
      cases todo with
      | nil =>
          obtain rfl := Option.some.inj h
          exact .same fun _ h => h
      | cons pipe todo => exact taskPasses_closePipe h fun _ h => h
  | inserting a =>
      obtain rfl := Option.some.inj h
      -- the accounts go on to the notification, late or not
      refine .of_conns fun x hx => ?_
      unfold insert at hx
      dsimp only at hx
      split at hx <;> exact hx
  | notifying conn remote token evicted watch =>
      obtain rfl := Option.some.inj h
      -- the watcher is spawned without accounts
      refine .of_send (fun _ h => h) fun x hx => ?_
      cases watch <;> cases hx
  | watching conn e p w =>
      simp only [runTask] at h
      split at h
      · cases h
      · obtain rfl := Option.some.inj h
        refine .of_conns fun x hx => ?_
        dsimp only at hx
        split at hx <;> cases hx
  | reporting e p =>
      obtain rfl := Option.some.inj h
      exact .of_send (fun _ h => nomatch h) fun _ h => h
  | closing handles pipe next =>
      cases handles with
      | nil =>
          obtain rfl := Option.some.inj h
          exact .same fun _ h => h
      | cons conn handles =>
          obtain rfl := Option.some.inj h
          exact .of_updateLink fun _ h => h
  | exiting pipe =>
      obtain rfl := Option.some.inj h
      exact .of_routing (.evictPipeState _ _) fun _ h => h
  | leaving pipe => exact taskPasses_closePipe h fun _ h => h
  | gone pipe =>
      obtain rfl := Option.some.inj h
      exact .of_routing (.evictPipe _ _ _) fun _ h => h
  | done => cases h

/-- What holds for the task's step holds for the hook: the other tasks keep their accounts. -/
theorem passes_runAt {i now : ℕ} {order : List ConnId} {s' : Hook}
    (h : s.runAt i now order = some s') : Passes s (.run i now order) s' := by
  unfold runAt at h
  split at h
  · cases h
  · rename_i t ht
    rcases Option.map_eq_some_iff.mp h with ⟨x, hx, rfl⟩
    have hpass := taskPasses hx
    have hraise : s.raising? (.run i now order) = lookedUp t := by
      simp only [raising?, ht]
      unfold lookedUp
      split <;> rename_i heq
      · cases heq
        rfl
      · split
        · rename_i a pipe todo evicted
          exact absurd rfl (heq a pipe todo evicted)
        · rfl
    refine ⟨fun y hy => ?_, .inl hpass.inbox, .inl hpass.routing⟩
    rw [hraise]
    rcases mem_accounts.mp hy with ⟨u, hu, hy⟩ | ⟨event, hev, hy⟩ | hy
    · -- the task that moved, or another one
      dsimp only at hu
      rw [hpass.tasks] at hu
      rcases List.mem_or_eq_of_mem_set hu with hmem | rfl
      · exact .inl (mem_accounts.mpr (.inl ⟨u, hmem, hy⟩))
      · rcases hpass.accounts y hy with hy | hr
        · exact .inl (mem_accounts.mpr (.inl ⟨t, List.mem_of_getElem? ht, hy⟩))
        · exact .inr hr
    · rcases hpass.queue event hev with hev | hof
      · exact .inl (mem_accounts.mpr (.inr (.inl ⟨event, hev, hy⟩)))
      · exact .inl (mem_accounts.mpr (.inl ⟨t, List.mem_of_getElem? ht, hof y hy⟩))
    · dsimp only at hy
      rw [hpass.forwarder] at hy
      exact .inl (mem_accounts.mpr (.inr (.inr hy)))

/-! ## The forwarder -/

/-- An account that is open afterwards was open before, if the step only moved the queue along. -/
theorem accounts_of {s s' : Hook} {x : StableConnId × DeviceId} (hx : x ∈ s'.accounts)
    (htasks : s'.tasks = s.tasks) (hqueue : ∀ event ∈ s'.queue, event ∈ s.queue)
    (hforwarder : x ∈ s'.forwarder.accounts → x ∈ s.accounts) : x ∈ s.accounts := by
  rcases mem_accounts.mp hx with ⟨t, ht, hx⟩ | ⟨event, hev, hx⟩ | hx
  · rw [htasks] at ht
    exact mem_accounts.mpr (.inl ⟨t, ht, hx⟩)
  · exact mem_accounts.mpr (.inr (.inl ⟨event, hqueue event hev, hx⟩))
  · exact hforwarder hx

theorem passes_forward {s' : Hook} (h : s.forward = some s') : Passes s .forward s' := by
  have hin : ∀ {x}, x ∈ s.forwarder.accounts → x ∈ s.accounts := fun hx =>
    mem_accounts.mpr (.inr (.inr hx))
  cases hf : s.forwarder with
  | idle =>
      simp only [forward, hf] at h
      split at h
      · cases h
      · rename_i e token evicted queue hq
        obtain rfl := Option.some.inj h
        -- the forwarder takes the evicted devices out of the queue
        refine ⟨fun x hx => .inl (accounts_of hx rfl (fun event hev => ?_) fun hx => ?_), .inl rfl,
          .inl (.refl _)⟩
        · rw [hq]
          exact List.mem_cons_of_mem _ hev
        · refine mem_accounts.mpr (.inr (.inl ⟨.verifiedEndpoint e token evicted, ?_, hx⟩))
          rw [hq]
          exact List.mem_cons_self
      · rename_i e p queue hq
        obtain rfl := Option.some.inj h
        refine ⟨fun x hx => .inl (accounts_of hx rfl (fun event hev => ?_) fun hx => nomatch hx),
          .inl rfl, .inl (.refl _)⟩
        rw [hq]
        exact List.mem_cons_of_mem _ hev
  | stalling evicted e token =>
      cases evicted with
      | nil =>
          simp only [forward, hf] at h
          obtain rfl := Option.some.inj h
          -- nothing left to stall: `VerifiedEndpoint` itself is on no account
          refine ⟨fun x hx => .inl (accounts_of hx rfl (fun _ h => h) fun hx => nomatch hx),
            .inr ⟨_, rfl, rfl, fun id hid => nomatch hid⟩, .inl (.refl _)⟩
      | cons x evicted =>
          rcases x with ⟨pipe, device⟩
          simp only [forward, hf] at h
          obtain rfl := Option.some.inj h
          -- a `Stalled` is sent on the account at hand
          refine ⟨fun x hx => .inl (accounts_of hx rfl (fun _ h => h) fun hx => hin ?_),
            .inr ⟨_, rfl, rfl, fun id hid => ?_⟩, .inl (.refl _)⟩
          · rw [hf]
            exact List.mem_cons_of_mem _ hx
          · obtain rfl := Option.some.inj hid
            refine ⟨device, .linkDead, rfl, hin ?_⟩
            rw [hf]
            exact List.mem_cons_self
  | hangingUp e p =>
      have hframe := Routing.Frame.evictRoutableIfPipe s.routing e p
      simp only [forward, hf] at h
      split at h <;> rename_i hr <;> obtain rfl := Option.some.inj h <;> rw [hr] at hframe <;>
        exact ⟨fun x hx => .inl (accounts_of hx rfl (fun _ h => h) fun hx => nomatch hx), .inl rfl,
          .inl hframe⟩
  | evicted e p =>
      simp only [forward, hf] at h
      -- the device is looked up: the account is opened here
      obtain rfl := Option.some.inj h
      refine ⟨fun x hx => ?_, .inl rfl, .inl (.refl _)⟩
      rcases mem_accounts.mp hx with ht | hq | hx
      · exact .inl (mem_accounts.mpr (.inl ht))
      · exact .inl (mem_accounts.mpr (.inr (.inl hq)))
      · right
        simp only [Forwarder.accounts, List.mem_map, Option.mem_toList] at hx
        rcases hx with ⟨device, hd, rfl⟩
        exact ⟨by simp [raising?, hf], hd⟩
  | resolved e p device =>
      have hframe := Routing.Frame.evictPipeState s.routing p
      simp only [forward, hf] at h
      cases device with
      | none =>
          obtain rfl := Option.some.inj h
          exact ⟨fun x hx => .inl (accounts_of hx rfl (fun _ h => h) fun hx => nomatch hx), .inl rfl,
            .inl hframe⟩
      | some device =>
          obtain rfl := Option.some.inj h
          refine ⟨fun x hx => .inl (accounts_of hx rfl (fun _ h => h) fun hx => hin ?_), .inl rfl,
            .inl hframe⟩
          rw [hf]
          exact hx
  | raising e p device =>
      simp only [forward, hf] at h
      obtain rfl := Option.some.inj h
      -- the hang-up is sent on the account opened before
      refine ⟨fun x hx => .inl (accounts_of hx rfl (fun _ h => h) fun hx => nomatch hx),
        .inr ⟨_, rfl, rfl, fun id hid => ?_⟩, .inl (.refl _)⟩
      obtain rfl := Option.some.inj hid
      refine ⟨device, .localClose, rfl, hin ?_⟩
      rw [hf]
      exact List.mem_cons_self

/-- Every step of the hook other than the opening of a pipe. -/
theorem step_passes {s s' : Hook} {l : HookLabel} (h : step l s = some s')
    (hl : ∀ now d role target, l ≠ .openPipe now d role target) : Passes s l s' := by
  -- a step that touches neither tasks nor queue nor forwarder
  have hsame : ∀ {s' : Hook}, s'.tasks = s.tasks → s'.queue = s.queue →
      s'.forwarder = s.forwarder → ∀ x ∈ s'.accounts, x ∈ s.accounts ∨
        s.raising? l = some x.1 ∧ s.routing.deviceForPipe x.1 = some x.2 := by
    intro s' ht hq hf x hx
    unfold accounts at hx
    rw [ht, hq, hf] at hx
    exact .inl hx
  cases l with
  | run i now order => exact passes_runAt h
  | forward => exact passes_forward h
  -- a new connection, and the exit of a pipe, account for nothing yet
  | connect link =>
      obtain rfl := Option.some.inj h
      refine ⟨fun x hx => .inl ?_, .inl rfl, .inl (.refl _)⟩
      simpa [accounts, Task.accounts] using hx
  | exitPipe pipe =>
      simp only [step] at h
      split at h
      · obtain rfl := Option.some.inj h
        refine ⟨fun x hx => .inl ?_, .inl rfl, .inl (.refl _)⟩
        simpa [accounts, Task.accounts] using hx
      · cases h
  | setPaths conn paths =>
      obtain rfl := Option.some.inj h
      exact ⟨hsame rfl rfl rfl, .inl rfl, .inl (.refl _)⟩
  | closeLink conn =>
      obtain rfl := Option.some.inj h
      exact ⟨hsame rfl rfl rfl, .inl rfl, .inl (.refl _)⟩
  | dropLink conn =>
      obtain rfl := Option.some.inj h
      exact ⟨hsame rfl rfl rfl, .inl rfl, .inl (.refl _)⟩
  | rehash orders =>
      rcases Option.map_eq_some_iff.mp h with ⟨r, hr, rfl⟩
      exact ⟨hsame rfl rfl rfl, .inl rfl, .inl (.rehash hr)⟩
  | openPipe now device role target => exact absurd rfl (hl now device role target)
  | noteScanHint keyPrefix device =>
      obtain rfl := Option.some.inj h
      exact ⟨hsame rfl rfl rfl, .inl rfl, .inl (.noteScanHint _ _ _)⟩
  | reserveOutbound now e =>
      obtain rfl := Option.some.inj h
      exact ⟨hsame rfl rfl rfl, .inl rfl, .inr ⟨now, e, rfl⟩⟩

end Hook

end IrohBle
