import IrohBle.Hook.Moves

/-! # Hook.Watches: the index and the routable pool against the tasks

Two tables are locked apart from each other: the index of the connections and the routable pool.
What ties them together is in the tasks and in the reports under way.

* `Idles`: what any step but a task's does.
* `Indexed`: every watched connection has a task to its watch, and a watch id is given out once.
* `Routed`: a routable entry has a connection on its pipe, or a report under way that removes it.
  A watcher that finds another connection in its bucket leaves the entry to that one.
-/

namespace IrohBle

open Lib

namespace Hook

/-! ## Tasks and links -/

variable {s s' s₁ : Hook} {t t' : Task} {i now : ℕ} {order : List ConnId} {p : StableConnId}

/-- A task other than the one that moved stays. -/
theorem mem_set_or {u : Task} {tasks : List Task} (ht : tasks[i]? = some t) (hu : u ∈ tasks) :
    u ∈ tasks.set i t' ∨ u = t := by
  rcases List.mem_iff_getElem?.mp hu with ⟨j, hj⟩
  by_cases hij : i = j
  · subst hij
    rw [ht] at hj
    exact .inr (Option.some.inj hj).symm
  · have hset : (tasks.set i t')[j]? = some u := by rwa [List.getElem?_set_ne hij]
    exact .inl (List.mem_of_getElem? hset)

theorem mem_set_self {tasks : List Task} (ht : tasks[i]? = some t) : t' ∈ tasks.set i t' := by
  have hi : i < tasks.length := (List.getElem?_eq_some_iff.mp ht).1
  exact List.mem_of_getElem? (List.getElem?_set_self hi)

/-- A link that is not open is closed. -/
theorem isClosed_of_link {c : ConnId} {l : Link} (hl : s.links[c]? = some l)
    (hopen : s.isOpen c = false) : s.isClosed c = true := by
  unfold isOpen at hopen
  unfold isClosed
  rw [hl] at hopen ⊢
  simpa using hopen

/-- New links change nothing of those that are closed. -/
theorem isClosed_append {c : ConnId} {links : List Link} (h : s.isClosed c = true) :
    ({ s with links := s.links ++ links } : Hook).isClosed c = true := by
  unfold isClosed at h ⊢
  cases hl : s.links[c]? with
  | none => simp [hl] at h
  | some l =>
      dsimp only
      rw [List.getElem?_append_left (List.getElem?_eq_some_iff.mp hl).1]
      exact h

/-- What any step but a task's does: it adds a task that is on no pipe yet, and closes
connections at most. -/
structure Idles (s s' : Hook) : Prop where
  conns : s'.conns = s.conns
  kept : ∀ t ∈ s.tasks, t ∈ s'.tasks
  new : ∀ t ∈ s'.tasks, ∀ x, t.rides = some x → t ∈ s.tasks
  closed : ∀ c, s.isClosed c = true → s'.isClosed c = true

/-- Starting a task that rides nothing is idle. -/
theorem idles_spawn {links : List Link} (ht : t.rides = none) :
    Idles s { s with links := s.links ++ links, tasks := s.tasks ++ [t] } where
  conns := rfl
  kept _ hu := List.mem_append_left _ hu
  new u hu x hx := by
    rcases List.mem_append.mp hu with hu | hu
    · exact hu
    · rw [List.mem_singleton.mp hu, ht] at hx
      cases hx
  closed _ hc := isClosed_append hc

/-- A step is idle or the step of one task. -/
theorem Turns.idles_or_runs {l : HookLabel} (h : Turns s l s') :
    (Idles s s' ∧ l.isRun = false) ∨
      ∃ i now order t t' s₁, l = .run i now order ∧ s.tasks[i]? = some t ∧
        s.runTask now order t = some (s₁, t') ∧ Moves now order s t s₁ t' ∧
        s' = { s₁ with tasks := s.tasks.set i t' } := by
  cases h with
  | runs ht hrun hm => exact .inr ⟨_, _, _, _, _, _, rfl, ht, hrun, hm, rfl⟩
  | connects => exact .inl ⟨idles_spawn rfl, rfl⟩
  | @exits pipe =>
      have hspawn : Idles s { s with links := s.links ++ [], tasks := s.tasks ++ [.exiting pipe] } :=
        idles_spawn rfl
      rw [List.append_nil] at hspawn
      exact .inl ⟨hspawn, rfl⟩
  | moves =>
      refine .inl ⟨⟨rfl, fun _ ht => ht, fun _ ht _ _ => ht, fun _ hc => ?_⟩, rfl⟩
      exact isClosed_updateLink (fun _ hl => hl) hc
  | ends hlabel _ hclosed =>
      refine .inl ⟨⟨rfl, fun _ ht => ht, fun _ ht _ _ => ht, fun _ hc => ?_⟩, ?_⟩
      · exact isClosed_updateLink (fun l _ => hclosed l) hc
      · rcases hlabel with rfl | rfl <;> rfl
  | forwards hlabel _ _ _ =>
      exact .inl ⟨⟨rfl, fun _ ht => ht, fun _ ht _ _ => ht, fun _ hc => hc⟩, hlabel⟩

/-! ## The index -/

/-- Every watched connection has a task to its watch, and a watch id is given out once. -/
structure Indexed (s : Hook) : Prop where
  bound : ∀ t ∈ s.tasks, ∀ x w, t.watch = some (x, w) → w ≤ s.conns.nextId
  same : ∀ t ∈ s.tasks, ∀ u ∈ s.tasks, ∀ x y w, t.watch = some (x, w) → u.watch = some (y, w) →
    x = y
  owned : ∀ e q w c, s.conns.watched e q w = some c →
    ∃ t ∈ s.tasks, t.watch = some ((c, e, q), w)

/-- What registering a connection does: it is in its bucket and its pipe is not closed, or it
is about to be closed. -/
theorem insert_registers (now : ℕ) (a : Accepted) (s : Hook) :
    (s.insert now a).2.watch = some ((a.conn, a.remote, a.pipe), s.conns.nextId + 1) ∧
      (s.insert now a).1.conns.nextId = s.conns.nextId + 1 ∧
      (s.insert now a).1.conns.closed = (s.conns.pruneClosed now).closed ∧
      ((s.insert now a).2.closes a.conn a.pipe = true ∨
        (s.insert now a).1.conns.watched a.remote a.pipe (s.conns.nextId + 1) = some a.conn ∧
          (s.conns.pruneClosed now).closed.lookup a.pipe = none) := by
  have hwatched := ConnectionRegistry.watched_insert now a.remote a.remote a.pipe a.pipe a.conn
    (s.conns.nextId + 1) s.conns
  unfold insert
  rcases ConnectionRegistry.insert_cases now a.remote a.pipe a.conn s.conns with
    ⟨h, -⟩ | ⟨h, hnone⟩
  · rw [h]
    exact ⟨rfl, rfl, rfl, .inl (by simp [Task.closes])⟩
  · rw [h] at hwatched ⊢
    rw [if_pos ⟨rfl, rfl, rfl, rfl⟩] at hwatched
    exact ⟨rfl, rfl, rfl, .inr ⟨hwatched, hnone⟩⟩

/-- A step keeps the watch of its task, or it registers the connection under a new id. -/
theorem Moves.watch {x : ConnId × EndpointId × StableConnId} {w : ℕ}
    (h : Moves now order s t s₁ t') (hw : t'.watch = some (x, w)) :
    t.watch = some (x, w) ∨ ∃ a, t = .inserting a ∧ x = (a.conn, a.remote, a.pipe) ∧
      w = s.conns.nextId + 1 ∧ s₁ = (s.insert now a).1 ∧ t' = (s.insert now a).2 := by
  cases h with
  | passes _ _ _ hprecedes => exact .inl (hprecedes.watch ▸ hw)
  | collects _ hcases =>
      rcases hcases with ⟨rfl, rfl, -⟩ | ⟨a, todo, rfl, rfl, -⟩ <;> cases hw
  | closes => exact .inl hw
  | @inserts a =>
      rw [(insert_registers now a s).1] at hw
      cases hw
      exact .inr ⟨a, rfl, rfl, rfl, rfl, rfl⟩
  | removes _ => split at hw <;> cases hw
  | reads _ _ | accepts _ _ | refuses => cases hw

/-- Watch ids only grow. -/
theorem Moves.nextId (h : Moves now order s t s₁ t') : s.conns.nextId ≤ s₁.conns.nextId := by
  cases h with
  | @inserts a =>
      rw [(insert_registers now a s).2.1]
      exact Nat.le_succ _
  | @removes conn remote pipe w _ =>
      change _ ≤ (s.conns.removeAndIsEmpty remote pipe w).1.nextId
      unfold ConnectionRegistry.removeAndIsEmpty
      split
      · rfl
      · dsimp only
        split <;> rfl
  | _ => exact Nat.le_refl _

/-- A watch stays, but for the watcher that takes it out of its bucket. -/
theorem Moves.keeps_watch {x : ConnId × EndpointId × StableConnId} {w : ℕ}
    (h : Moves now order s t s₁ t') (hw : t.watch = some (x, w)) :
    t'.watch = some (x, w) ∨ s₁.conns.watched x.2.1 x.2.2 w = none := by
  cases h with
  | passes _ _ _ hprecedes => exact .inl (hprecedes.watch.trans hw)
  | collects _ hcases =>
      rcases hcases with ⟨rfl, rfl, -⟩ | ⟨a, todo, rfl, rfl, -⟩ <;> cases hw
  | closes => exact .inl hw
  | @removes conn remote pipe w' _ =>
      cases hw
      refine .inr ?_
      change (s.conns.removeAndIsEmpty remote pipe w).1.watched remote pipe w = none
      rw [ConnectionRegistry.watched_removeAndIsEmpty, if_pos ⟨rfl, rfl, rfl⟩]
  | reads _ _ | accepts _ _ | refuses | inserts => cases hw

/-- What is watched after a step was watched before, or is registered by it. -/
theorem Moves.watched {e : EndpointId} {q : StableConnId} {w : ℕ} {c : ConnId}
    (h : Moves now order s t s₁ t') (hw : s₁.conns.watched e q w = some c) :
    s.conns.watched e q w = some c ∨ t'.watch = some ((c, e, q), w) := by
  cases h with
  | @inserts a =>
      change (s.conns.insert now a.remote a.pipe a.conn).1.watched e q w = some c at hw
      rw [ConnectionRegistry.watched_insert] at hw
      split at hw
      · rename_i hnew
        rcases hnew with ⟨-, rfl, rfl, rfl⟩
        obtain rfl := Option.some.inj hw
        exact .inr (insert_registers now a s).1
      · exact .inl hw
  | @removes conn remote pipe w' _ =>
      change (s.conns.removeAndIsEmpty remote pipe w').1.watched e q w = some c at hw
      rw [ConnectionRegistry.watched_removeAndIsEmpty] at hw
      split at hw
      · cases hw
      · exact .inl hw
  | _ => exact .inl hw

/-- A step of a task keeps the index tied to the watchers. -/
theorem indexed_runs (hi : s.Indexed) (ht : s.tasks[i]? = some t)
    (h : Moves now order s t s₁ t') : Indexed { s₁ with tasks := s.tasks.set i t' } := by
  -- a watch is an old one, or the new one of the task that moved
  have hold : ∀ u ∈ s.tasks.set i t', ∀ x w, u.watch = some (x, w) →
      (∃ v ∈ s.tasks, v.watch = some (x, w)) ∨ u = t' ∧ w = s.conns.nextId + 1 ∧
        s₁.conns.nextId = s.conns.nextId + 1 := by
    intro u hu x w hw
    rcases List.mem_or_eq_of_mem_set hu with hu | rfl
    · exact .inl ⟨u, hu, hw⟩
    · rcases h.watch hw with hw | ⟨a, -, -, rfl, rfl, -⟩
      · exact .inl ⟨t, List.mem_of_getElem? ht, hw⟩
      · exact .inr ⟨rfl, rfl, (insert_registers now a s).2.1⟩
  refine ⟨?_, ?_, ?_⟩
  · intro u hu x w hw
    rcases hold u hu x w hw with ⟨v, hv, hw⟩ | ⟨-, rfl, hnext⟩
    · exact (hi.bound v hv x w hw).trans h.nextId
    · exact hnext.ge
  · -- the new id is larger than every old one
    intro u hu v hv x y w hx hy
    rcases hold u hu x w hx with ⟨u', hu', hx'⟩ | ⟨rfl, rfl, -⟩
    · rcases hold v hv y w hy with ⟨v', hv', hy'⟩ | ⟨-, rfl, -⟩
      · exact hi.same u' hu' v' hv' x y w hx' hy'
      · exact absurd (hi.bound u' hu' x _ hx') (Nat.not_succ_le_self _)
    · rcases hold v hv y _ hy with ⟨v', hv', hy'⟩ | ⟨rfl, -, -⟩
      · exact absurd (hi.bound v' hv' y _ hy') (Nat.not_succ_le_self _)
      · rw [hx] at hy
        cases hy
        rfl
  · intro e q w c hw
    rcases h.watched hw with hw' | hnew
    · rcases hi.owned e q w c hw' with ⟨u, hu, huw⟩
      rcases mem_set_or ht hu with hset | rfl
      · exact ⟨u, hset, huw⟩
      · -- the task that moved keeps the watch: it is not the one taken out
        rcases h.keeps_watch huw with hkeep | hnone
        · exact ⟨t', mem_set_self ht, hkeep⟩
        · change s₁.conns.watched e q w = some c at hw
          rw [hnone] at hw
          cases hw
    · exact ⟨t', mem_set_self ht, hnew⟩

/-- A step that is not a task's keeps the index tied to the watchers. -/
theorem Indexed.idles (hi : s.Indexed) (h : Idles s s') : s'.Indexed := by
  have hold : ∀ t ∈ s'.tasks, ∀ x w, t.watch = some (x, w) → t ∈ s.tasks := by
    intro t ht x w hw
    exact h.new t ht x (Task.rides_of_accepted (Task.accepted_of_watch hw))
  refine ⟨?_, ?_, ?_⟩
  · intro t ht x w hw
    rw [h.conns]
    exact hi.bound t (hold t ht x w hw) x w hw
  · intro t ht u hu x y w hx hy
    exact hi.same t (hold t ht x w hx) u (hold u hu y w hy) x y w hx hy
  · intro e q w c hc
    rw [h.conns] at hc
    rcases hi.owned e q w c hc with ⟨t, ht, htw⟩
    exact ⟨t, h.kept t ht, htw⟩

theorem indexed_step {l : HookLabel} (hi : s.Indexed) (h : Turns s l s') : s'.Indexed := by
  rcases h.idles_or_runs with ⟨hidle, -⟩ | ⟨i, now, order, t, t', s₁, -, ht, -, hm, rfl⟩
  · exact hi.idles hidle
  · exact indexed_runs hi ht hm

/-! ## The routable entries -/

/-- The report that the last connection of `e` on `p` is gone is under way, and its routable
entry is not removed yet. -/
def Reported (s : Hook) (e : EndpointId) (p : StableConnId) : Prop :=
  (∃ t ∈ s.tasks, t.reports e p = true) ∨ s.Heard e p

/-- A routable entry has a connection on its pipe, or it is about to be removed. -/
def Routed (s : Hook) : Prop :=
  ∀ e x, s.routing.routable.lookup e = some x →
    s.Reported e x.pipe ∨ ∃ t ∈ s.tasks, ∃ c, t.accepted = some (c, e, x.pipe)

/-- A step adds a routable entry for the connection of its task at most. -/
theorem Moves.routable {e : EndpointId} {x : Routable} (h : Moves now order s t s₁ t')
    (hx : s₁.routing.routable.lookup e = some x) :
    s.routing.routable.lookup e = some x ∨ ∃ c, t'.accepted = some (c, e, x.pipe) := by
  cases h with
  | passes hsheds _ _ _ => exact .inl (hsheds e x hx)
  | @accepts conn remote pipe evicted r _ hpromotes =>
      -- the entry of the remote is new, and the other entries are those of before or less
      by_cases he : e = remote
      · subst he
        rcases hpromotes.bound with ⟨y, -, hbound, -⟩
        change r.routable.lookup e = some x at hx
        rw [hbound] at hx
        obtain rfl := Option.some.inj hx
        exact .inr ⟨conn, rfl⟩
      · rcases hpromotes.routable e he with heq | ⟨hnone, -⟩
        · exact .inl (heq ▸ hx)
        · change r.routable.lookup e = some x at hx
          rw [hnone] at hx
          cases hx
  | _ => exact .inl hx

theorem Moves.forwarder (h : Moves now order s t s₁ t') : s₁.forwarder = s.forwarder := by
  cases h <;> rfl

/-- What is queued stays queued while tasks move. -/
theorem Moves.queue {event : HookEvent} (h : Moves now order s t s₁ t') (hmem : event ∈ s.queue) :
    event ∈ s₁.queue := by
  cases h with
  | passes _ hsent _ _ => exact hsent event hmem
  | _ => exact hmem

/-- A report is handed on. -/
theorem Moves.keeps_reports {e : EndpointId} (h : Moves now order s t s₁ t')
    (hr : t.reports e p = true) : t'.reports e p = true ∨ .connectionClosed e p ∈ s₁.queue := by
  cases h with
  | passes _ _ hreports _ => exact hreports e p hr
  | closes => exact .inl hr
  | collects _ hcases => rcases hcases with ⟨rfl, -⟩ | ⟨a, todo, rfl, -⟩ <;> cases hr
  | reads _ _ | accepts _ _ | refuses | inserts | removes _ => cases hr

/-- A task stays with its connection until the watcher finds it closed. -/
theorem Moves.keeps_accepted {c : ConnId} {e : EndpointId} (h : Moves now order s t s₁ t')
    (ha : t.accepted = some (c, e, p)) : t'.accepted = some (c, e, p) ∨
      ∃ w, s.isOpen c = false ∧ s₁ = { s with conns := (s.conns.removeAndIsEmpty e p w).1 } ∧
        t' = if (s.conns.removeAndIsEmpty e p w).2 then .reporting e p else .done := by
  cases h with
  | passes _ _ _ hprecedes => exact .inl (hprecedes.accepted.trans ha)
  | collects _ hcases =>
      rcases hcases with ⟨rfl, rfl, -⟩ | ⟨a, todo, rfl, rfl, -⟩
      · cases ha
      · exact .inl ha
  | closes => exact .inl ha
  | @inserts a =>
      rw [Task.accepted_of_watch (insert_registers now a s).1]
      exact .inl ha
  | @removes conn remote pipe w hopen =>
      cases ha
      exact .inr ⟨w, hopen, rfl, rfl⟩
  | reads _ _ | accepts _ _ | refuses => cases ha

/-- A step of a task keeps a connection or a report behind every routable entry. -/
theorem routed_runs (hr : s.Routed) (hi : Indexed { s₁ with tasks := s.tasks.set i t' })
    (ht : s.tasks[i]? = some t) (h : Moves now order s t s₁ t') :
    Routed { s₁ with tasks := s.tasks.set i t' } := by
  intro e x hx
  rcases h.routable hx with hold | ⟨c, hc⟩
  · -- an old entry: whoever answers for it is still there, or hands it on
    rcases hr e x hold with (⟨u, hu, hreports⟩ | hheard) | ⟨u, hu, c, hc⟩
    · rcases mem_set_or ht hu with hset | rfl
      · exact .inl (.inl ⟨u, hset, hreports⟩)
      · rcases h.keeps_reports hreports with hreports | hsent
        · exact .inl (.inl ⟨t', mem_set_self ht, hreports⟩)
        · exact .inl (.inr (.inl hsent))
    · rcases hheard with hq | hf
      · exact .inl (.inr (.inl (h.queue hq)))
      · exact .inl (.inr (.inr (h.forwarder.trans hf)))
    · rcases mem_set_or ht hu with hset | rfl
      · exact .inr ⟨u, hset, c, hc⟩
      · rcases h.keeps_accepted hc with hc | ⟨w, -, hs₁, ht'⟩
        · exact .inr ⟨t', mem_set_self ht, c, hc⟩
        · -- the watcher is done: it reports, or another connection is in the bucket
          cases hempty : (s.conns.removeAndIsEmpty e x.pipe w).2 with
          | true =>
              rw [hempty, if_pos rfl] at ht'
              refine .inl (.inl ⟨t', mem_set_self ht, ?_⟩)
              simp [ht', Task.reports]
          | false =>
              have hne := mt ConnectionRegistry.isEmpty_iff.mpr (Bool.eq_false_iff.mp hempty)
              rw [not_forall] at hne
              rcases hne with ⟨w', hw'⟩
              rcases Option.ne_none_iff_exists'.mp hw' with ⟨c', hc'⟩
              rcases hi.owned e x.pipe w' c' (by rw [hs₁]; exact hc') with ⟨v, hv, hvw⟩
              exact .inr ⟨v, hv, c', Task.accepted_of_watch hvw⟩
  · exact .inr ⟨t', mem_set_self ht, c, hc⟩

/-- Routing, queue and forwarder stay as they are, and a task is added at most. -/
theorem Routed.kept (hr : s.Routed) (hrouting : s'.routing = s.routing) (hqueue : s'.queue = s.queue)
    (hforwarder : s'.forwarder = s.forwarder) (hkept : ∀ t ∈ s.tasks, t ∈ s'.tasks) :
    s'.Routed := by
  intro e x hx
  rw [hrouting] at hx
  rcases hr e x hx with (⟨t, ht, hreports⟩ | hheard) | ⟨t, ht, hc⟩
  · exact .inl (.inl ⟨t, hkept t ht, hreports⟩)
  · refine .inl (.inr ?_)
    unfold Heard
    rwa [hqueue, hforwarder]
  · exact .inr ⟨t, hkept t ht, hc⟩

/-- Every step keeps a connection or a report behind every routable entry. -/
theorem routed_step {l : HookLabel} (hr : s.Routed) (hi : s'.Indexed) (h : Turns s l s') :
    s'.Routed := by
  cases h with
  | runs ht _ hm => exact routed_runs hr hi ht hm
  | connects => exact hr.kept rfl rfl rfl fun _ ht => List.mem_append_left _ ht
  | exits => exact hr.kept rfl rfl rfl fun _ ht => List.mem_append_left _ ht
  | moves => exact hr.kept rfl rfl rfl fun _ ht => ht
  | ends _ _ _ => exact hr.kept rfl rfl rfl fun _ ht => ht
  | forwards _ _ hsheds hheard =>
      -- the forwarder removes the entry when it is done with its report
      intro e x hx
      rcases hr e x (hsheds e x hx) with (hreports | hh) | hc
      · exact .inl (.inl hreports)
      · rcases hheard e x.pipe hh with hh | hgone
        · exact .inl (.inr hh)
        · exact absurd rfl (hgone x hx)
      · exact .inr hc

end Hook

end IrohBle
