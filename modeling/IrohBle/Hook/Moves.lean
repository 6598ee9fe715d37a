import IrohBle.Hook.HangUp
import IrohBle.Routing.Ids
import IrohBle.Routing.Spec

/-! # Hook.Moves: the steps of the hook's tasks, one by one

Which connection a task is about, and for which endpoint and pipe, and what one step of a task
does to the connections, their index and the routable pool.

* `rides`, `accepted`, `watch`: the connection of a task from the promotion, from its acceptance
  and from the registration on, up to the end of its watcher.
* `Moves`: the steps that touch a connection, its bucket or the routable entry of its pipe, and
  `passes` for all the others.
-/

namespace IrohBle

open Lib

/-! ## The routable pool -/

namespace Routing

/-- No routable entry is added. -/
def Sheds (r r' : Routing) : Prop :=
  ∀ e x, r'.routable.lookup e = some x → r.routable.lookup e = some x

variable {r r' : Routing}

theorem Sheds.refl (r : Routing) : Sheds r r := fun _ _ h => h

theorem Sheds.of_eq (h : r'.routable = r.routable) : Sheds r r' := by
  intro e x hx
  rwa [h] at hx

/-- `evict_pipe_state` promotes nothing. -/
theorem sheds_evictPipeState (p : StableConnId) : Sheds r (r.evictPipeState p).1 := by
  intro e x hx
  rw [routable_of_tables (evictPipeState_tables p r)] at hx
  exact (Evicts.evictContender p r).of_routable hx

theorem sheds_evictPipe (now : ℕ) (p : StableConnId) : Sheds r (r.evictPipe now p) := by
  refine .of_eq ?_
  unfold evictPipe
  split <;> rfl

/-- Hanging up a pipe promotes nothing. -/
theorem sheds_evictRoutableIfPipe (e : EndpointId) (p : StableConnId) :
    Sheds r (r.evictRoutableIfPipe e p).1 := by
  rcases evictRoutableIfPipe_cases e p r with ⟨h, -⟩ | ⟨y, -, -, h⟩
  · rw [h]
    exact .refl r
  · rw [h]
    intro e' x hx
    change (r.routable.erase e).lookup e' = some x at hx
    rw [Map.lookup_erase_ite] at hx
    split at hx
    · cases hx
    · exact hx

/-- The entry is gone, if it was for this pipe. -/
theorem evictRoutableIfPipe_gone (e : EndpointId) (p : StableConnId) {x : Routable}
    (hx : (r.evictRoutableIfPipe e p).1.routable.lookup e = some x) : x.pipe ≠ p := by
  rcases evictRoutableIfPipe_cases e p r with ⟨h, hne⟩ | ⟨y, -, -, h⟩
  · rw [h] at hx
    exact hne x hx
  · rw [h] at hx
    change (r.routable.erase e).lookup e = some x at hx
    rw [AList.lookup_erase] at hx
    cases hx

theorem sheds_noteScanHint (k : KeyPrefix) (d : DeviceId) : Sheds r (r.noteScanHint k d).1 := by
  rcases noteScanHint_tables k d r with h | h
  · rw [h]
    exact .refl r
  · have hr := routable_of_tables h
    exact .of_eq hr

theorem sheds_rehash {o : Orders} (h : r.rehash o = some r') : Sheds r r' := by
  unfold rehash at h
  split at h
  · rename_i hperm
    obtain rfl := Option.some.inj h
    intro e x hx
    rwa [← Map.lookup_reorder hperm.2.2.2 e]
  · cases h

theorem sheds_reserveOutbound (now : ℕ) (e : EndpointId) : Sheds r (r.reserveOutbound now e).1 := by
  refine .of_eq ?_
  unfold reserveOutbound
  dsimp only
  split <;> rfl

/-- Opening a pipe promotes nothing. -/
theorem sheds_openPipe (now : ℕ) (device : DeviceId) (role : ConnectRole)
    (target : Option EndpointId) : Sheds r (r.openPipe now device role target).1 := by
  have hdevice : ∀ r : Routing, (r.openPipe now device role none).1.routable = r.routable := by
    intro r
    unfold openPipe
    rcases consumed_forDevice device r with hd | ⟨k, x, -, hd⟩ <;> simp only [hd] <;> rfl
  refine .of_eq ?_
  cases target with
  | none => exact hdevice r
  | some endpoint =>
      rcases consumed_forPrefix (prefixFromEndpoint endpoint) r with he | ⟨k, x, -, he⟩
      · -- nothing is reserved for the endpoint: as if there were no target
        have hopen : r.openPipe now device role (some endpoint) =
            r.openPipe now device role none := by
          simp only [openPipe, consumeReservationForEndpoint, he]
        rw [hopen]
        exact hdevice r
      · simp only [openPipe, consumeReservationForEndpoint, he]
        rfl

end Routing

/-! ## What a task is about -/

namespace Task

/-- The connection that `promote` has accepted, its endpoint and its pipe. -/
def accepted : Task → Option (ConnId × EndpointId × StableConnId)
  | .resolving a _ _ | .evicting a _ | .inserting a => some (a.conn, a.remote, a.pipe)
  | .notifying conn remote _ _ (some (pipe, _)) => some (conn, remote, pipe)
  | .watching conn remote pipe _ => some (conn, remote, pipe)
  | .closing _ _ next => next.accepted
  | _ => none

/-- The same from the call of `promote` on. -/
def rides : Task → Option (ConnId × EndpointId × StableConnId)
  | .promoting conn remote pipe => some (conn, remote, pipe)
  | .closing _ _ next => next.rides
  | t => t.accepted

/-- The same from the registration on, with the watch id. -/
def watch : Task → Option ((ConnId × EndpointId × StableConnId) × ℕ)
  | .notifying conn remote _ _ (some (pipe, watch)) => some ((conn, remote, pipe), watch)
  | .watching conn remote pipe watch => some ((conn, remote, pipe), watch)
  | .closing _ _ next => next.watch
  | _ => none

/-- The task is about to close `conn`, which it found on `p`. -/
def closes (conn : ConnId) (p : StableConnId) : Task → Bool
  | .closing handles pipe _ => pipe == p && decide (conn ∈ handles)
  | _ => false

/-- The task will remember `p` as closed. -/
def exits (p : StableConnId) : Task → Bool
  | .exiting pipe | .leaving pipe => pipe == p
  | _ => false

/-- A watched connection has been accepted. -/
theorem accepted_of_watch {t : Task} {x : ConnId × EndpointId × StableConnId} {w : ℕ}
    (h : t.watch = some (x, w)) : t.accepted = some x := by
  induction t with
  | notifying conn remote token evicted watch =>
      cases watch with
      | none => cases h
      | some y =>
          cases h
          rfl
  | watching conn remote pipe watch =>
      cases h
      rfl
  | closing handles pipe next ih => exact ih h
  | _ => cases h

/-- An accepted connection rides its pipe. -/
theorem rides_of_accepted {t : Task} {x : ConnId × EndpointId × StableConnId}
    (h : t.accepted = some x) : t.rides = some x := by
  induction t with
  | promoting conn remote pipe => cases h
  | closing handles pipe next ih => exact ih h
  | _ => exact h

/-- A step from `t` to `t'` hands on what is left to do. -/
structure Precedes (t t' : Task) : Prop where
  rides : ∀ x, t'.rides = some x → t.rides = some x
  accepted : t'.accepted = t.accepted
  watch : t'.watch = t.watch
  closes : ∀ c p, t.closes c p = true → t'.closes c p = true
  exits : ∀ p, t.exits p = true → t'.exits p = true

/-- A task that closes no connection and does not leave a pipe has only its own connection to
hand on. -/
theorem Precedes.of_eq {t t' : Task} (hrides : t'.rides = t.rides ∨ t'.rides = none)
    (haccepted : t'.accepted = t.accepted := by rfl) (hwatch : t'.watch = t.watch := by rfl)
    (hcloses : ∀ c p, t.closes c p = false := by intros; rfl)
    (hexits : ∀ p, t.exits p = false := by intros; rfl) : Precedes t t' where
  rides x hx := by
    rcases hrides with heq | hnone
    · exact heq ▸ hx
    · rw [hnone] at hx
      cases hx
  accepted := haccepted
  watch := hwatch
  closes c p h := by
    rw [hcloses] at h
    cases h
  exits p h := by
    rw [hexits] at h
    cases h

end Task

/-- The token of a link is on one of its paths. -/
theorem Link.mem_of_token {l : Link} {token : ℕ} (h : l.token = some token) :
    .ble token ∈ l.paths := by
  rcases List.exists_of_findSome?_eq_some h with ⟨path, hmem, hpath⟩
  cases path with
  | ble token' =>
      cases hpath
      exact hmem
  | other => cases hpath

/-- A task takes the step. -/
def HookLabel.isRun : HookLabel → Bool
  | .run .. => true
  | _ => false

/-- A pipe starts to exit. -/
def HookLabel.isExit : HookLabel → Bool
  | .exitPipe _ => true
  | _ => false

namespace Hook

/-! ## The steps -/

/-- A step of the task `t`: the state it leads to, but for the list of tasks, and what the task
is at next. -/
inductive Moves (now : ℕ) (order : List ConnId) (s : Hook) : Task → Hook → Task → Prop
  /-- Any step that touches no connection, no bucket, and no routable entry but to remove it. -/
  | passes {t t' : Task} {r : Routing} {queue : List HookEvent}
      (routing : s.routing.Sheds r) (sent : ∀ event ∈ s.queue, event ∈ queue)
      (reports : ∀ e p, t.reports e p = true →
        t'.reports e p = true ∨ .connectionClosed e p ∈ queue) (precedes : t.Precedes t') :
      Moves now order s t { s with routing := r, queue := queue } t'
  | reads {conn : ConnId} {l : Link} {token : ℕ} (link : s.links[conn]? = some l)
      (path : .ble token ∈ l.paths) :
      Moves now order s (.handshake conn) s (.promoting conn l.remote ⟨token⟩)
  | accepts {conn : ConnId} {remote : EndpointId} {pipe : StableConnId}
      {evicted : List StableConnId} {r : Routing}
      (promote : s.routing.promote now pipe s.self remote = (r, .accepted evicted))
      (promotes : s.routing.Promotes now pipe s.self remote evicted r) :
      Moves now order s (.promoting conn remote pipe) { s with routing := r }
        (.resolving ⟨conn, remote, pipe, []⟩ evicted evicted)
  | refuses {conn : ConnId} :
      Moves now order s (.refusing conn)
        (s.updateLink conn fun l => { l with isOpen := false }) .done
  | collects {t next : Task} {pipe : StableConnId} {reason : String}
      (handles : order.Perm (s.conns.handlesOn pipe))
      (cases : t = .leaving pipe ∧ next = .gone pipe ∧ reason = bleCloseReasonPipeClosed ∨
        ∃ a todo, t = .evicting a (pipe :: todo) ∧ next = .evicting a todo ∧
          reason = bleCloseReasonEvicted) :
      Moves now order s t
        { s with conns := s.conns.closePipe now pipe bleCloseCodeRetry reason }
        (.closing order pipe next)
  | closes {conn : ConnId} {handles : List ConnId} {pipe : StableConnId} {next : Task} :
      Moves now order s (.closing (conn :: handles) pipe next)
        (s.updateLink conn (Link.closeIfOnlyPath pipe)) (.closing handles pipe next)
  /-- The connection is registered, or found to be late. -/
  | inserts {a : Accepted} : Moves now order s (.inserting a) (s.insert now a).1 (s.insert now a).2
  | removes {conn : ConnId} {remote : EndpointId} {pipe : StableConnId} {w : ℕ}
      (closed : s.isOpen conn = false) :
      Moves now order s (.watching conn remote pipe w)
        { s with conns := (s.conns.removeAndIsEmpty remote pipe w).1 }
        (if (s.conns.removeAndIsEmpty remote pipe w).2 then .reporting remote pipe else .done)

/-- A step that changes routing and sends an event at most, by a task that has nothing to
report. -/
theorem Moves.silent {now : ℕ} {order : List ConnId} {s : Hook} {t t' : Task} {r : Routing}
    {queue : List HookEvent} (hr : s.routing.Sheds r) (hsent : ∀ event ∈ s.queue, event ∈ queue)
    (hreports : ∀ e p, t.reports e p = false) (hprecedes : t.Precedes t') :
    Moves now order s t { s with routing := r, queue := queue } t' := by
  refine .passes hr hsent ?_ hprecedes
  intro e p h
  rw [hreports] at h
  cases h

/-- Closing a pipe, by its own task or for a duplicate. -/
theorem moves_closePipe {now : ℕ} {order : List ConnId} {s : Hook} {t next : Task}
    {pipe : StableConnId} {reason : String} {y : Hook × Task}
    (h : s.closePipe now order pipe reason next = some y)
    (hcases : t = .leaving pipe ∧ next = .gone pipe ∧ reason = bleCloseReasonPipeClosed ∨
      ∃ a todo, t = .evicting a (pipe :: todo) ∧ next = .evicting a todo ∧
        reason = bleCloseReasonEvicted) : Moves now order s t y.1 y.2 := by
  unfold closePipe at h
  split at h
  · rename_i hperm
    obtain rfl := Option.some.inj h
    exact .collects hperm hcases
  · cases h

/-- Every step of a task is one of the moves. -/
theorem moves_of_runTask {now : ℕ} {order : List ConnId} {s : Hook} {t : Task} {y : Hook × Task}
    (h : s.runTask now order t = some y) : Moves now order s t y.1 y.2 := by
  have hkept : ∀ event ∈ s.queue, event ∈ s.queue := fun _ hmem => hmem
  have hsent : ∀ event, ∀ event' ∈ s.queue, event' ∈ s.queue ++ [event] :=
    fun _ _ hmem => List.mem_append_left _ hmem
  cases t with
  | handshake conn =>
      rcases Option.map_eq_some_iff.mp h with ⟨l, hl, hy⟩
      cases ht : l.token with
      | none =>
          rw [ht] at hy
          subst hy
          exact .silent (.refl _) hkept (fun _ _ => rfl) (.of_eq (.inl rfl))
      | some token =>
          rw [ht] at hy
          subst hy
          exact .reads hl (Link.mem_of_token ht)
  | promoting conn remote pipe =>
      rcases Routing.promote_cases now pipe s.self remote s.routing with
        ⟨hp, -⟩ | ⟨r, evicted, hp, hpromotes⟩
      · simp only [runTask, hp] at h
        obtain rfl := Option.some.inj h
        exact .silent (.refl _) hkept (fun _ _ => rfl) (.of_eq (.inr rfl))
      · simp only [runTask, hp] at h
        obtain rfl := Option.some.inj h
        exact .accepts hp hpromotes
  | rejecting conn remote pipe =>
      obtain rfl := Option.some.inj h
      exact .silent (.refl _) (hsent _) (fun _ _ => rfl) (.of_eq (.inl rfl))
  | refusing conn =>
      obtain rfl := Option.some.inj h
      exact .refuses
  | resolving a todo evicted =>
      cases todo with
      | nil =>
          obtain rfl := Option.some.inj h
          exact .silent (.refl _) hkept (fun _ _ => rfl) (.of_eq (.inl rfl))
      | cons pipe todo =>
          obtain rfl := Option.some.inj h
          exact .silent (.refl _) hkept (fun _ _ => rfl) (.of_eq (.inl rfl))
  | evicting a todo =>
      -- `close_evicted_pipes` takes the lock of the index once for each pipe
      cases todo with
      | nil =>
          obtain rfl := Option.some.inj h
          exact .silent (.refl _) hkept (fun _ _ => rfl) (.of_eq (.inl rfl))
      | cons pipe todo => exact moves_closePipe h (.inr ⟨a, todo, rfl, rfl, rfl⟩)
  | inserting a =>
      obtain rfl := Option.some.inj h
      exact .inserts
  | notifying conn remote token evicted watch =>
      obtain rfl := Option.some.inj h
      cases watch with
      | none =>
          exact .silent (.refl _) (hsent _) (fun _ _ => rfl) (.of_eq (.inl rfl))
      | some x =>
          exact .silent (.refl _) (hsent _) (fun _ _ => rfl) (.of_eq (.inl rfl))
  | watching conn remote pipe w =>
      simp only [runTask] at h
      split at h
      · cases h
      · rename_i hopen
        obtain rfl := Option.some.inj h
        exact .removes (Bool.eq_false_iff.mpr hopen)
  | reporting remote pipe =>
      obtain rfl := Option.some.inj h
      refine .passes (.refl _) (hsent _) (fun e p hr => .inr ?_) (.of_eq (.inl rfl))
      -- the report goes from the task to the queue
      simp only [Task.reports, Bool.and_eq_true, beq_iff_eq] at hr
      rcases hr with ⟨rfl, rfl⟩
      exact List.mem_append_right _ List.mem_cons_self
  | closing handles pipe next =>
      cases handles with
      | nil =>
          obtain rfl := Option.some.inj h
          refine .passes (.refl _) hkept (fun _ _ hr => .inl hr) ?_
          refine .of_eq (.inl rfl) rfl rfl (fun c p => ?_) fun _ => rfl
          simp [Task.closes]
      | cons conn handles =>
          obtain rfl := Option.some.inj h
          exact .closes
  | exiting pipe =>
      obtain rfl := Option.some.inj h
      refine .silent (Routing.sheds_evictPipeState pipe) hkept (fun _ _ => rfl) ?_
      -- the pipe is still to be closed
      exact ⟨fun _ hx => hx, rfl, rfl, fun _ _ hc => hc, fun _ he => he⟩
  | leaving pipe => exact moves_closePipe h (.inl ⟨rfl, rfl, rfl⟩)
  | gone pipe =>
      obtain rfl := Option.some.inj h
      exact .silent (Routing.sheds_evictPipe now pipe) hkept (fun _ _ => rfl) (.of_eq (.inl rfl))
  | done => cases h

/-- A report waits for the forwarder, or is in its hands and its pipe is still routable. -/
def Heard (s : Hook) (e : EndpointId) (p : StableConnId) : Prop :=
  .connectionClosed e p ∈ s.queue ∨ s.forwarder = .hangingUp e p

/-- A step of the hook as a whole. -/
inductive Turns (s : Hook) : HookLabel → Hook → Prop
  | runs {i now : ℕ} {order : List ConnId} {t t' : Task} {s₁ : Hook} (task : s.tasks[i]? = some t)
      (run : s.runTask now order t = some (s₁, t')) (moves : Moves now order s t s₁ t') :
      Turns s (.run i now order) { s₁ with tasks := s.tasks.set i t' }
  | connects {link : Link} : Turns s (.connect link)
      { s with links := s.links ++ [link], tasks := s.tasks ++ [.handshake s.links.length] }
  | exits {pipe : StableConnId} :
      Turns s (.exitPipe pipe) { s with tasks := s.tasks ++ [.exiting pipe] }
  | moves {conn : ConnId} {paths : List Path} :
      Turns s (.setPaths conn paths) (s.updateLink conn fun l => { l with paths := paths })
  | ends {l : HookLabel} {conn : ConnId} {f : Link → Link}
      (label : l = .closeLink conn ∨ l = .dropLink conn) (paths : ∀ l, (f l).paths = l.paths)
      (closed : ∀ l, (f l).isOpen = false) : Turns s l (s.updateLink conn f)
  | forwards {l : HookLabel} {r : Routing} {queue : List HookEvent} {forwarder : Forwarder}
      {inbox : List (Letter StableConnId)} (label : l.isRun = false) (exit : l.isExit = false)
      (routing : s.routing.Sheds r)
      (heard : ∀ e p, s.Heard e p →
        ({ s with queue := queue, forwarder := forwarder } : Hook).Heard e p ∨
          ∀ x, r.routable.lookup e = some x → x.pipe ≠ p) :
      Turns s l { s with routing := r, queue := queue, forwarder := forwarder, inbox := inbox }

theorem Moves.tasks {now : ℕ} {order : List ConnId} {s s' : Hook} {t t' : Task}
    (h : Moves now order s t s' t') : s'.tasks = s.tasks := by
  cases h <;> rfl

theorem turns_forward {s s' : Hook} (h : s.forward = some s') : Turns s .forward s' := by
  -- a step of the forwarder that sheds entries, and had no report in hand
  have hkeep : ∀ {r : Routing} {forwarder : Forwarder} {inbox : List (Letter StableConnId)},
      s.routing.Sheds r → (∀ e p, s.forwarder ≠ .hangingUp e p) →
      Turns s .forward { s with routing := r, forwarder := forwarder, inbox := inbox } := by
    intro r forwarder inbox hr hne
    refine .forwards rfl rfl hr fun e p hheard => .inl ?_
    rcases hheard with hq | hf
    · exact .inl hq
    · exact absurd hf (hne e p)
  cases hf : s.forwarder with
  | idle =>
      cases hq : s.queue with
      -- `recv` on an empty queue waits
      | nil => simp [forward, hf, hq] at h
      | cons event queue =>
          cases event with
          | verifiedEndpoint e token evicted =>
              simp only [forward, hf, hq] at h
              obtain rfl := Option.some.inj h
              refine .forwards rfl rfl (.refl _) fun e' p' hheard => .inl (.inl ?_)
              simpa [Heard, hf, hq] using hheard
          | connectionClosed e p =>
              simp only [forward, hf, hq] at h
              obtain rfl := Option.some.inj h
              refine .forwards rfl rfl (.refl _) fun e' p' hheard => .inl ?_
              simp only [Heard, hf, hq, List.mem_cons, HookEvent.connectionClosed.injEq,
                reduceCtorEq, or_false] at hheard
              rcases hheard with ⟨rfl, rfl⟩ | hmem
              · exact .inr rfl
              · exact .inl hmem
  | stalling evicted e token =>
      have hne : ∀ e p, s.forwarder ≠ .hangingUp e p := by simp [hf]
      cases evicted with
      | nil =>
          simp only [forward, hf] at h
          obtain rfl := Option.some.inj h
          exact hkeep (.refl _) hne
      | cons x evicted =>
          simp only [forward, hf] at h
          obtain rfl := Option.some.inj h
          exact hkeep (.refl _) hne
  | hangingUp e p =>
      -- the report in hand is the only one that is used up here, and its entry goes with it
      have hheard : ∀ {forwarder : Forwarder} e' p', s.Heard e' p' →
          ({ s with forwarder := forwarder } : Hook).Heard e' p' ∨
            ∀ x, (s.routing.evictRoutableIfPipe e p).1.routable.lookup e' = some x →
              x.pipe ≠ p' := by
        intro forwarder e' p' hheard
        rcases hheard with hq | hh
        · exact .inl (.inl hq)
        · rw [hf] at hh
          obtain ⟨rfl, rfl⟩ := Forwarder.hangingUp.inj hh
          exact .inr fun x hx => Routing.evictRoutableIfPipe_gone e p hx
      simp only [forward, hf] at h
      split at h
      · rename_i r x hr
        obtain rfl := Option.some.inj h
        have hr' : r = (s.routing.evictRoutableIfPipe e p).1 := by rw [hr]
        subst hr'
        exact .forwards rfl rfl (Routing.sheds_evictRoutableIfPipe e p) hheard
      · rename_i r hr
        obtain rfl := Option.some.inj h
        have hr' : r = (s.routing.evictRoutableIfPipe e p).1 := by rw [hr]
        subst hr'
        exact .forwards rfl rfl (Routing.sheds_evictRoutableIfPipe e p) hheard
  | evicted e p =>
      simp only [forward, hf] at h
      obtain rfl := Option.some.inj h
      exact hkeep (.refl _) (by simp [hf])
  | resolved e p device =>
      have hne : ∀ e p, s.forwarder ≠ .hangingUp e p := by simp [hf]
      simp only [forward, hf] at h
      split at h
      · obtain rfl := Option.some.inj h
        exact hkeep (Routing.sheds_evictPipeState p) hne
      · obtain rfl := Option.some.inj h
        exact hkeep (Routing.sheds_evictPipeState p) hne
  | raising e p device =>
      simp only [forward, hf] at h
      obtain rfl := Option.some.inj h
      exact hkeep (.refl _) (by simp [hf])

/-- Every step of the hook is one of the turns. -/
theorem turns_of_step {s s' : Hook} {l : HookLabel} (h : system.step l s = some s') :
    Turns s l s' := by
  -- operations on the routing table by the other tasks
  have hroute : ∀ {l : HookLabel} {r : Routing}, l.isRun = false → l.isExit = false →
      s.routing.Sheds r → Turns s l { s with routing := r } :=
    fun hrun hexit hr => .forwards hrun hexit hr fun _ _ hheard => .inl hheard
  cases l with
  | connect link =>
      obtain rfl := Option.some.inj h
      exact .connects
  | setPaths conn paths =>
      obtain rfl := Option.some.inj h
      exact .moves
  | closeLink conn =>
      obtain rfl := Option.some.inj h
      exact .ends (.inl rfl) (fun _ => rfl) fun _ => rfl
  | dropLink conn =>
      obtain rfl := Option.some.inj h
      exact .ends (.inr rfl) (fun _ => rfl) fun _ => rfl
  | rehash orders =>
      rcases Option.map_eq_some_iff.mp h with ⟨r, hr, rfl⟩
      exact hroute rfl rfl (Routing.sheds_rehash hr)
  | openPipe now device role target =>
      obtain rfl := Option.some.inj h
      exact hroute rfl rfl (Routing.sheds_openPipe now device role target)
  | exitPipe pipe =>
      simp only [system, step] at h
      split at h
      · obtain rfl := Option.some.inj h
        exact .exits
      · cases h
  | noteScanHint keyPrefix device =>
      obtain rfl := Option.some.inj h
      exact hroute rfl rfl (Routing.sheds_noteScanHint keyPrefix device)
  | reserveOutbound now e =>
      obtain rfl := Option.some.inj h
      exact hroute rfl rfl (Routing.sheds_reserveOutbound now e)
  | run i now order =>
      simp only [system, step, runAt] at h
      split at h
      · cases h
      · rename_i t ht
        rcases Option.map_eq_some_iff.mp h with ⟨⟨s₁, t'⟩, hrun, rfl⟩
        have hmoves := moves_of_runTask hrun
        dsimp only at hmoves ⊢
        rw [hmoves.tasks]
        exact .runs ht hrun hmoves
  | forward => exact turns_forward h

end Hook

end IrohBle
