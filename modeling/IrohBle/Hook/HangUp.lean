import IrohBle.Hook.Tasks

/-! # Hook.HangUp: hanging up the last connection of a pipe

A watcher that finds its bucket empty reports `ConnectionClosed`, and the forwarder later
hangs up the pipe if it is still the routable one. Three tasks are involved, and nothing
ties the report to the bucket it was about.

* `Outstanding`: a report about an endpoint and a pipe is under way.
* `hang_up_spares_open`: while it is, no open connection is in its bucket, as long as no
  handshake registers one in the meantime (`InsertsAlone`).
* `redial_is_hung_up`: one that does is hung up although it is open.
-/

namespace IrohBle

open Lib

/-- The task is going to report that the last connection is gone. -/
def Task.reports (e : EndpointId) (p : StableConnId) : Task → Bool
  | .reporting e' p' => e' == e && p' == p
  | .closing _ _ next => next.reports e p
  | _ => false

/-- The forwarder is at work on such a report. -/
def Forwarder.handles (e : EndpointId) (p : StableConnId) : Forwarder → Bool
  | .hangingUp e' p' | .evicted e' p' | .resolved e' p' _ | .raising e' p' _ => e' == e && p' == p
  | .idle | .stalling .. => false

namespace ConnectionRegistry

/-- The pipe was closed lately. -/
def remembers (now : ℕ) (p : StableConnId) (r : ConnectionRegistry) : Bool :=
  ((r.pruneClosed now).closed.lookup p).isSome

/-- A registration comes late exactly where the pipe is remembered as closed. -/
theorem insert_late {now : ℕ} {e : EndpointId} {p : StableConnId} {conn : ConnId}
    {r : ConnectionRegistry} : (r.insert now e p conn).2.2 = r.remembers now p := by
  unfold remembers
  rcases insert_cases now e p conn r with ⟨h, hl⟩ | ⟨h, hl⟩ <;> rw [h, hl]
  rfl

end ConnectionRegistry

namespace Hook

/-- A report that the last connection of `e` on `p` is gone is under way. -/
def outstanding (s : Hook) (e : EndpointId) (p : StableConnId) : Bool :=
  s.tasks.any (Task.reports e p) || decide (HookEvent.connectionClosed e p ∈ s.queue) ||
    s.forwarder.handles e p

/-- Every connection in the bucket is closed. -/
def Calm (s : Hook) (e : EndpointId) (p : StableConnId) : Prop :=
  ∀ w c, s.conns.watched e p w = some c → s.isClosed c = true

/-- Nothing is reported about a bucket with an open connection. -/
def Quiet (s : Hook) : Prop := ∀ e p, s.outstanding e p = true → s.Calm e p

/-- A handshake registers an open connection only while no report about its endpoint and
pipe is under way. -/
def InsertsAlone (s : Hook) (l : HookLabel) : Prop :=
  match l with
  | .run i now _ =>
    match s.tasks[i]? with
    | some (.inserting a) =>
      s.conns.remembers now a.pipe = true ∨ s.isClosed a.conn = true ∨
        s.outstanding a.remote a.pipe = false
    | _ => True
  | _ => True

/-- A closed connection is not open. -/
theorem not_isOpen_of_isClosed {s : Hook} {c : ConnId} (h : s.isClosed c = true) :
    s.isOpen c = false := by
  unfold isClosed at h
  unfold isOpen
  cases hl : s.links[c]? with
  | none => simp
  | some l => simpa [hl] using h

theorem outstanding_iff {s : Hook} {e : EndpointId} {p : StableConnId} :
    s.outstanding e p = true ↔ (∃ t ∈ s.tasks, t.reports e p = true) ∨
      HookEvent.connectionClosed e p ∈ s.queue ∨ s.forwarder.handles e p = true := by
  simp [outstanding, or_assoc]

/-! ## What a step changes -/

/-- A step closes connections and never opens one, registers at most `new` in its bucket, and
starts a report only about an empty bucket. -/
structure Tame (s s' : Hook) (new : ConnId → EndpointId → StableConnId → Prop) : Prop where
  closed : ∀ c, s.isClosed c = true → s'.isClosed c = true
  watched : ∀ e p w c, s'.conns.watched e p w = some c →
    s.conns.watched e p w = some c ∨ new c e p
  outstanding : ∀ e p, s'.outstanding e p = true →
    s.outstanding e p = true ∨ ∀ w, s'.conns.watched e p w = none

/-- A tame step keeps quiet, if what it registers is closed or nobody reports its bucket. -/
theorem Tame.quiet {s s' : Hook} {new : ConnId → EndpointId → StableConnId → Prop}
    (h : Tame s s' new) (hq : s.Quiet)
    (hnew : ∀ c e p, new c e p → s.isClosed c = true ∨ s.outstanding e p = false) : s'.Quiet := by
  intro e p ho w c hw
  rcases h.outstanding e p ho with ho | hnone
  · rcases h.watched e p w c hw with hw | hn
    · exact h.closed c (hq e p ho w c hw)
    · rcases hnew c e p hn with hc | hf
      · exact h.closed c hc
      · rw [ho] at hf
        cases hf
  · rw [hnone w] at hw
    cases hw

/-- A change of a link that reopens nothing keeps what is closed closed. -/
theorem isClosed_updateLink {s : Hook} {c conn : ConnId} {f : Link → Link}
    (hf : ∀ l : Link, l.isOpen = false → (f l).isOpen = false) (h : s.isClosed c = true) :
    (s.updateLink conn f).isClosed c = true := by
  unfold isClosed at h ⊢
  unfold updateLink
  dsimp only
  rw [List.getElem?_modify]
  cases hl : s.links[c]? with
  | none => simp [hl] at h
  | some l =>
      simp only [hl, Option.any_some, Bool.not_eq_true'] at h
      by_cases hc : conn = c
      · simp [hc, hf l h]
      · simp [hc, h]

/-- Taking a path away never reopens a connection. -/
theorem closeIfOnlyPath_isOpen (pipe : StableConnId) (l : Link) (h : l.isOpen = false) :
    (l.closeIfOnlyPath pipe).isOpen = false := by
  unfold Link.closeIfOnlyPath
  split
  · exact h
  · rfl

/-- `new` for a step of the task `t`: the connection it registers. -/
def Registers (now : ℕ) (s : Hook) (t : Task) (c : ConnId) (e : EndpointId) (p : StableConnId) :
    Prop :=
  (∃ evicted, t = .inserting ⟨c, e, p, evicted⟩) ∧ s.conns.remembers now p = false

/-- What a step of the task `t` changes. -/
structure TaskTame (now : ℕ) (t : Task) (s s' : Hook) (t' : Task) : Prop where
  tasks : s'.tasks = s.tasks
  forwarder : s'.forwarder = s.forwarder
  closed : ∀ c, s.isClosed c = true → s'.isClosed c = true
  watched : ∀ e p w c, s'.conns.watched e p w = some c →
    s.conns.watched e p w = some c ∨ Registers now s t c e p
  queue : ∀ e p, HookEvent.connectionClosed e p ∈ s'.queue →
    HookEvent.connectionClosed e p ∈ s.queue ∨ t.reports e p = true
  reports : ∀ e p, t'.reports e p = true →
    t.reports e p = true ∨ ∀ w, s'.conns.watched e p w = none

/-- A step that changes routing only, or nothing. -/
theorem TaskTame.of_routing {now : ℕ} {t t' : Task} {s : Hook} {routing : Routing}
    (hr : ∀ e p, t'.reports e p = true → t.reports e p = true) :
    TaskTame now t s { s with routing := routing } t' where
  tasks := rfl
  forwarder := rfl
  closed _ h := h
  watched _ _ _ _ h := .inl h
  queue _ _ h := .inl h
  reports e p h := .inl (hr e p h)

/-- Closing paths of a link, and reporting nothing new, is tame. -/
theorem TaskTame.of_updateLink {now : ℕ} {t t' : Task} {s : Hook} {conn : ConnId} {f : Link → Link}
    (hf : ∀ l : Link, l.isOpen = false → (f l).isOpen = false)
    (hr : ∀ e p, t'.reports e p = true → t.reports e p = true) :
    TaskTame now t s (s.updateLink conn f) t' where
  tasks := rfl
  forwarder := rfl
  closed _ h := isClosed_updateLink hf h
  watched _ _ _ _ h := .inl h
  queue _ _ h := .inl h
  reports e p h := .inl (hr e p h)

/-- An event sent is tame where the task was about to report it. -/
theorem TaskTame.of_send {now : ℕ} {t t' : Task} {s : Hook} {event : HookEvent}
    (hev : ∀ e p, event = .connectionClosed e p → t.reports e p = true)
    (hr : ∀ e p, t'.reports e p = true → t.reports e p = true) :
    TaskTame now t s (s.send event) t' where
  tasks := rfl
  forwarder := rfl
  closed _ h := h
  watched _ _ _ _ h := .inl h
  queue e p h := by
    rcases List.mem_append.mp h with h | h
    · exact .inl h
    · exact .inr (hev e p (List.mem_singleton.mp h).symm)
  reports e p h := .inl (hr e p h)

/-- Closing a pipe is tame. -/
theorem taskTame_closePipe {now : ℕ} {order : List ConnId} {pipe : StableConnId} {reason : String}
    {t next : Task} {s : Hook} {x : Hook × Task} (hnext : ∀ e p, next.reports e p = false)
    (h : s.closePipe now order pipe reason next = some x) : TaskTame now t s x.1 x.2 := by
  unfold closePipe at h
  split at h
  · obtain rfl := Option.some.inj h
    exact {
      tasks := rfl
      forwarder := rfl
      closed := fun _ h => h
      watched := fun _ _ _ _ h => .inl h
      queue := fun _ _ h => .inl h
      reports := fun e p h => by
        change next.reports e p = true at h
        rw [hnext e p] at h
        cases h }
  · cases h

/-- A registration is tame: it puts its own connection into a bucket. -/
theorem taskTame_insert (now : ℕ) (a : Accepted) (s : Hook) :
    TaskTame now (.inserting a) s (s.insert now a).1 (s.insert now a).2 where
  tasks := rfl
  forwarder := rfl
  closed _ h := h
  watched e p w c h := by
    change (s.conns.insert now a.remote a.pipe a.conn).1.watched e p w = some c at h
    rw [ConnectionRegistry.watched_insert] at h
    split at h
    · rename_i hnew
      rcases hnew with ⟨hl, rfl, rfl, -⟩
      obtain rfl := Option.some.inj h
      rw [ConnectionRegistry.insert_late] at hl
      exact .inr ⟨⟨a.evicted, rfl⟩, hl⟩
    · exact .inl h
  queue _ _ h := .inl h
  reports e p h := by
    unfold insert at h
    dsimp only at h
    split at h <;> cases h

/-- A watcher is tame: it reports its bucket only when that is empty. -/
theorem taskTame_watching {now : ℕ} {conn : ConnId} {e : EndpointId} {p : StableConnId} {w : ℕ}
    (s : Hook) :
    TaskTame now (.watching conn e p w) s
      { s with conns := (s.conns.removeAndIsEmpty e p w).1 }
      (if (s.conns.removeAndIsEmpty e p w).2 then .reporting e p else .done) where
  tasks := rfl
  forwarder := rfl
  closed _ h := h
  watched _ _ _ _ h := by
    rw [ConnectionRegistry.watched_removeAndIsEmpty] at h
    split at h
    · cases h
    · exact .inl h
  queue _ _ h := .inl h
  reports e' p' h := by
    split at h
    · rename_i hempty
      simp only [Task.reports, Bool.and_eq_true, beq_iff_eq] at h
      rcases h with ⟨rfl, rfl⟩
      exact .inr (ConnectionRegistry.isEmpty_iff.mp hempty)
    · cases h

/-- Every step of a task is tame. -/
theorem taskTame {now : ℕ} {order : List ConnId} {s : Hook} {t : Task} {x : Hook × Task}
    (h : s.runTask now order t = some x) : TaskTame now t s x.1 x.2 := by
  cases t with
  | handshake conn =>
      rcases Option.map_eq_some_iff.mp h with ⟨l, -, hx⟩
      cases ht : l.token <;> rw [ht] at hx <;> subst hx <;> exact .of_routing fun _ _ h => h
  | promoting conn remote pipe =>
      simp only [runTask] at h
      split at h <;> obtain rfl := Option.some.inj h <;> exact .of_routing fun _ _ h => h
  | rejecting conn remote pipe =>
      obtain rfl := Option.some.inj h
      exact .of_send (fun _ _ h => nomatch h) fun _ _ h => h
  | refusing conn =>
      obtain rfl := Option.some.inj h
      exact .of_updateLink (fun _ _ => rfl) fun _ _ h => h
  | resolving a todo evicted =>
      cases todo <;> obtain rfl := Option.some.inj h <;> exact .of_routing fun _ _ h => h
  | evicting a todo =>
      cases todo with
      | nil =>
          obtain rfl := Option.some.inj h
          exact .of_routing fun _ _ h => h
      | cons pipe todo => exact taskTame_closePipe (fun _ _ => rfl) h
  | inserting a =>
      obtain rfl := Option.some.inj h
      exact taskTame_insert now a s
  | notifying conn remote token evicted watch =>
      obtain rfl := Option.some.inj h
      -- it has put its connection into the bucket before, so it reports nothing now
      refine .of_send (fun _ _ h => nomatch h) fun e p h => ?_
      cases watch <;> cases h
  -- only the last of its bucket goes on to report
  | watching conn e p w =>
      simp only [runTask] at h
      split at h
      · cases h
      · obtain rfl := Option.some.inj h
        exact taskTame_watching s
  | reporting e p =>
      -- the report leaves the task for the queue
      obtain rfl := Option.some.inj h
      refine .of_send (fun e' p' h => ?_) fun _ _ h => nomatch h
      cases h
      simp [Task.reports]
  | closing handles pipe next =>
      cases handles with
      | nil =>
          obtain rfl := Option.some.inj h
          exact .of_routing fun _ _ h => h
      | cons conn handles =>
          obtain rfl := Option.some.inj h
          exact .of_updateLink (closeIfOnlyPath_isOpen pipe) fun _ _ h => h
  | exiting pipe =>
      obtain rfl := Option.some.inj h
      exact .of_routing fun _ _ h => h
  | leaving pipe => exact taskTame_closePipe (fun _ _ => rfl) h
  | gone pipe =>
      obtain rfl := Option.some.inj h
      exact .of_routing fun _ _ h => h
  | done => cases h

/-- A step of the `i`th task is tame for the whole hook. -/
theorem tame_runAt {i now : ℕ} {order : List ConnId} {s s' : Hook}
    (h : s.runAt i now order = some s') :
    Tame s s' fun c e p => ∃ t, s.tasks[i]? = some t ∧ Registers now s t c e p := by
  unfold runAt at h
  split at h
  · cases h
  · rename_i t ht
    rcases Option.map_eq_some_iff.mp h with ⟨x, hx, rfl⟩
    have htame := taskTame hx
    refine ⟨htame.closed, fun e p w c hw => ?_, fun e p ho => ?_⟩
    · rcases htame.watched e p w c hw with hw | hn
      · exact .inl hw
      · exact .inr ⟨t, ht, hn⟩
    · rcases outstanding_iff.mp ho with ⟨u, hu, hr⟩ | hq | hf
      · -- the report is in the hand of some task: of the one that moved, or of another
        dsimp only at hu
        rw [htame.tasks] at hu
        rcases List.mem_or_eq_of_mem_set hu with hmem | rfl
        · exact .inl (outstanding_iff.mpr (.inl ⟨u, hmem, hr⟩))
        · rcases htame.reports e p hr with hr | hnone
          · exact .inl (outstanding_iff.mpr (.inl ⟨t, List.mem_of_getElem? ht, hr⟩))
          · exact .inr hnone
      · rcases htame.queue e p hq with hq | hr
        · exact .inl (outstanding_iff.mpr (.inr (.inl hq)))
        · exact .inl (outstanding_iff.mpr (.inl ⟨t, List.mem_of_getElem? ht, hr⟩))
      · dsimp only at hf
        rw [htame.forwarder] at hf
        exact .inl (outstanding_iff.mpr (.inr (.inr hf)))

/-- A report that is under way after a step without a task was so before it. -/
theorem outstanding_of {s s' : Hook} {e : EndpointId} {p : StableConnId}
    (ho : s'.outstanding e p = true) (htasks : s'.tasks = s.tasks)
    (hqueue : HookEvent.connectionClosed e p ∈ s'.queue → HookEvent.connectionClosed e p ∈ s.queue)
    (hforwarder : s'.forwarder.handles e p = true →
      HookEvent.connectionClosed e p ∈ s.queue ∨ s.forwarder.handles e p = true) :
    s.outstanding e p = true := by
  rw [outstanding_iff] at ho ⊢
  rcases ho with ht | hq | hf
  · rw [htasks] at ht
    exact .inl ht
  · exact .inr (.inl (hqueue hq))
  · exact .inr (hforwarder hf)

/-- A step of the forwarder passes a report on and starts none. -/
theorem outstanding_forward {s s' : Hook} {e : EndpointId} {p : StableConnId}
    (h : s.forward = some s') (ho : s'.outstanding e p = true) : s.outstanding e p = true := by
  cases hf : s.forwarder with
  | idle =>
      simp only [forward, hf] at h
      split at h
      · cases h
      · -- a verified endpoint: what is behind it in the queue was outstanding
        rename_i e' token evicted queue hq
        obtain rfl := Option.some.inj h
        refine outstanding_of ho rfl (fun hmem => ?_) fun h => nomatch h
        rw [hq]
        exact List.mem_cons_of_mem _ hmem
      · -- the report itself: the forwarder has it in hand
        rename_i e' p' queue hq
        obtain rfl := Option.some.inj h
        refine outstanding_of ho rfl (fun hmem => ?_) fun hh => ?_
        · rw [hq]
          exact List.mem_cons_of_mem _ hmem
        · simp only [Forwarder.handles, Bool.and_eq_true, beq_iff_eq] at hh
          rcases hh with ⟨rfl, rfl⟩
          rw [hq]
          exact .inl List.mem_cons_self
  | stalling evicted e' token =>
      cases evicted <;> simp only [forward, hf] at h <;> obtain rfl := Option.some.inj h <;>
        exact outstanding_of ho rfl id fun h => nomatch h
  | hangingUp e' p' =>
      simp only [forward, hf] at h
      split at h <;> obtain rfl := Option.some.inj h
      · -- the pipe is still the routable one
        exact outstanding_of ho rfl id fun hh => .inr (by rw [hf]; exact hh)
      · exact outstanding_of ho rfl id fun hh => nomatch hh
  | evicted e' p' =>
      simp only [forward, hf] at h
      obtain rfl := Option.some.inj h
      exact outstanding_of ho rfl id fun hh => .inr (by rw [hf]; exact hh)
  | resolved e' p' device =>
      simp only [forward, hf] at h
      split at h <;> obtain rfl := Option.some.inj h
      · exact outstanding_of ho rfl id fun hh => .inr (by rw [hf]; exact hh)
      · exact outstanding_of ho rfl id fun hh => nomatch hh
  | raising e' p' device =>
      simp only [forward, hf] at h
      obtain rfl := Option.some.inj h
      exact outstanding_of ho rfl id fun hh => nomatch hh

/-- The forwarder touches neither the connections nor their index. -/
theorem forward_frame {s s' : Hook} (h : s.forward = some s') :
    s'.links = s.links ∧ s'.conns = s.conns := by
  unfold forward at h
  split at h
  · split at h
    · cases h
    all_goals
      obtain rfl := Option.some.inj h
      exact ⟨rfl, rfl⟩
  case h_4 | h_6 =>
    split at h <;> obtain rfl := Option.some.inj h <;> exact ⟨rfl, rfl⟩
  all_goals
    obtain rfl := Option.some.inj h
    exact ⟨rfl, rfl⟩

/-- The forwarder takes reports on, and makes none. -/
theorem tame_forward {s s' : Hook} (h : s.forward = some s') : Tame s s' fun _ _ _ => False := by
  rcases forward_frame h with ⟨hl, hc⟩
  refine ⟨fun c hcl => ?_, fun e p w c hw => ?_, fun e p ho => .inl (outstanding_forward h ho)⟩
  · unfold isClosed
    rw [hl]
    exact hcl
  · rw [hc] at hw
    exact .inl hw

/-! ## Runs -/

/-- Every step keeps quiet, registrations being alone (`InsertsAlone`). -/
theorem quiet_step {s s' : Hook} {l : HookLabel} (hq : s.Quiet) (hC : InsertsAlone s l)
    (hs : system.step l s = some s') : s'.Quiet := by
  -- closing paths makes no connection open that was closed
  have hlink : ∀ (conn : ConnId) (f : Link → Link),
      (∀ l : Link, l.isOpen = false → (f l).isOpen = false) → (s.updateLink conn f).Quiet := by
    intro conn f hf e p ho w c hw
    exact isClosed_updateLink hf (hq e p ho w c hw)
  cases l with
  | run i now order =>
      -- the one step that registers a connection, which is alone by assumption
      refine (tame_runAt hs).quiet hq ?_
      rintro c e p ⟨t, ht, ⟨evicted, rfl⟩, hr⟩
      simp only [InsertsAlone, ht] at hC
      rcases hC with hm | hC
      · rw [hr] at hm
        cases hm
      · exact hC
  | forward => exact (tame_forward hs).quiet hq fun _ _ _ h => h.elim
  | connect link =>
      obtain rfl := Option.some.inj hs
      -- a connection that is new is in no bucket
      intro e p ho w c hw
      have ho' : s.outstanding e p = true := by
        simpa [outstanding, Task.reports] using ho
      have hcl := hq e p ho' w c hw
      unfold isClosed at hcl ⊢
      rw [Option.any_eq_true] at hcl
      rcases hcl with ⟨l, hl, hlc⟩
      dsimp only
      rw [List.getElem?_append_left (List.getElem?_eq_some_iff.mp hl).1, hl]
      exact hlc
  | exitPipe pipe =>
      simp only [system, step] at hs
      split at hs
      · obtain rfl := Option.some.inj hs
        intro e p ho
        exact hq e p (by simpa [outstanding, Task.reports] using ho)
      · cases hs
  | setPaths conn paths =>
      obtain rfl := Option.some.inj hs
      exact hlink conn _ fun _ h => h
  | closeLink conn =>
      obtain rfl := Option.some.inj hs
      exact hlink conn _ fun _ _ => rfl
  | dropLink conn =>
      obtain rfl := Option.some.inj hs
      exact hlink conn _ fun _ _ => rfl
  | rehash orders =>
      rcases Option.map_eq_some_iff.mp hs with ⟨r, -, rfl⟩
      exact hq
  | openPipe now device role target =>
      obtain rfl := Option.some.inj hs
      exact hq
  | noteScanHint keyPrefix device =>
      obtain rfl := Option.some.inj hs
      exact hq
  | reserveOutbound now e =>
      obtain rfl := Option.some.inj hs
      exact hq

/-- When the forwarder hangs up a pipe because the last connection of an endpoint on it is
gone, no open connection is registered for that endpoint and pipe, as long as every handshake
registers its connection while no such report is under way. -/
theorem hang_up_spares_open {h : List (Hook × HookLabel)} {s : Hook} (hrun : system.Run h s)
    (hC : System.Meets InsertsAlone h) {e : EndpointId} {p : StableConnId} {device : DeviceId}
    (hf : s.forwarder = .raising e p device) {w : ℕ} {c : ConnId}
    (hw : s.conns.watched e p w = some c) : s.isOpen c = false := by
  have hq : s.Quiet := by
    refine hrun.invariant ?_ (fun _ _ _ hq hl hs => quiet_step hq hl hs) hC
    rintro s ⟨self, rfl⟩ e p ho
    cases ho
  have ho : s.outstanding e p = true :=
    outstanding_iff.mpr (.inr (.inr (by simp [hf, Forwarder.handles])))
  exact not_isOpen_of_isClosed (hq e p ho w c hw)

/-- The condition, computed. -/
def insertsAlone (s : Hook) : HookLabel → Bool
  | .run i now _ =>
    match s.tasks[i]? with
    | some (.inserting a) =>
      s.conns.remembers now a.pipe || s.isClosed a.conn || !s.outstanding a.remote a.pipe
    | _ => true
  | _ => true

instance (s : Hook) (l : HookLabel) : Decidable (InsertsAlone s l) :=
  decidable_of_iff (s.insertsAlone l = true) (by
    unfold insertsAlone InsertsAlone
    split
    · split <;> simp [or_assoc]
    · simp)

theorem init_start (self : EndpointId) : system.Init { self := self } := ⟨self, rfl⟩

/-- So many steps of the `i`th task. -/
def runs (i n : ℕ) : List HookLabel := List.replicate n (.run i 0 [])

/-- So many steps of the forwarder. -/
def forwards (n : ℕ) : List HookLabel := List.replicate n .forward

/-- A pipe to `peer`, a connection on it, its handshake up to the watcher, its end and the
report that it was the last. -/
def lastCloses : List HookLabel :=
  [.openPipe 0 "peer" .central none, .connect { remote := peerEndpoint, paths := [.ble 1] }] ++
    runs 0 6 ++ [.closeLink 0] ++ runs 0 2

/-- The forwarder up to the moment it hangs up. -/
def hangUp : List HookLabel := forwards 6

/-- A second handshake whose connection is closed before the hook registers it. -/
def lateRun : List HookLabel :=
  lastCloses ++
    [.connect { remote := peerEndpoint, paths := [.ble 1] }, .closeLink 1] ++ runs 1 5 ++ hangUp

/-- A run in which the pipe is hung up under a connection that is closed already. -/
theorem hang_up_spares_open_lateRun :
    ∃ h s, system.Run h s ∧ h.map Prod.snd = lateRun ∧
      s.forwarder = .raising peerEndpoint ⟨1⟩ "peer" ∧
      s.conns.watched peerEndpoint ⟨1⟩ 2 = some 1 ∧ s.isOpen 1 = false := by
  obtain ⟨h, s, hrun, hC, hl, hf, hw⟩ := System.Run.of_execMeets (C := InsertsAlone)
    (P := fun s : Hook => s.forwarder = .raising peerEndpoint ⟨1⟩ "peer" ∧
      s.conns.watched peerEndpoint ⟨1⟩ 2 = some 1)
    lateRun (init_start localEndpoint) (by decide +kernel)
  exact ⟨h, s, hrun, hl, hf, hw, hang_up_spares_open hrun hC hf hw⟩

/-- The peer dials again on the same pipe while the report is under way. -/
def redialRun : List HookLabel :=
  lastCloses ++ [.connect { remote := peerEndpoint, paths := [.ble 1] }] ++ runs 1 6 ++ hangUp

/-- A run in which a second handshake registers while the report about the first is under way: its
open connection is hung up. -/
theorem redial_is_hung_up :
    ∃ h s, system.Run h s ∧ h.map Prod.snd = redialRun ∧
      s.forwarder = .raising peerEndpoint ⟨1⟩ "peer" ∧
      s.conns.watched peerEndpoint ⟨1⟩ 2 = some 1 ∧ s.isOpen 1 = true := by
  obtain ⟨h, s, hrun, hl, hP⟩ := System.Run.of_exec
    (P := fun s : Hook => s.forwarder = .raising peerEndpoint ⟨1⟩ "peer" ∧
      s.conns.watched peerEndpoint ⟨1⟩ 2 = some 1 ∧ s.isOpen 1 = true)
    redialRun (init_start localEndpoint) (by decide +kernel)
  exact ⟨h, s, hrun, hl, hP⟩

end Hook

end IrohBle
