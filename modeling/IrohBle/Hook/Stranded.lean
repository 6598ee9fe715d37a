import IrohBle.Hook.Watches

/-! # Hook.Stranded: no connection is left on a dead pipe

A pipe that exits closes what its buckets hold and remembers that it is closed; a handshake that
was accepted on it before or meanwhile registers its connection sooner or later, and finds
either the bucket or the record. The routable entry that a late promotion makes goes with the
report of a watcher.

* `SolePath`, `Holds`, `Remembers`: what is assumed of the connections on the pipe and of the
  memory of closed pipes.
* `Safe`: a registered connection is in the bucket of a pipe that is not closed yet, or is
  closed, or is about to be.
* `no_connection_stranded`: when no task can move, nothing is left on a pipe that exited.
-/

namespace IrohBle

open Lib

/-! ## The memory of closed pipes -/

namespace ConnectionRegistry

/-- The record of `p`, if there is one, has not expired, and the records that have not expired are
not too many. -/
def Fits (now : ℕ) (p : StableConnId) (closed : Map StableConnId ClosedPipe) : Prop :=
  (∀ c ∈ closed.lookup p, now - c.closedAt ≤ closedPipeTtl) ∧
    (closed.retain fun _ c => decide (now - c.closedAt ≤ closedPipeTtl)).entries.length ≤
      maxClosedPipes

instance (now : ℕ) (p : StableConnId) (closed : Map StableConnId ClosedPipe) :
    Decidable (Fits now p closed) :=
  inferInstanceAs (Decidable (_ ∧ _))

variable {now : ℕ} {p : StableConnId} {r : ConnectionRegistry}

/-- Pruning then keeps what is known about `p`. -/
theorem lookup_pruneClosed (h : Fits now p r.closed) :
    (r.pruneClosed now).closed.lookup p = r.closed.lookup p := by
  rcases h with ⟨hfresh, hfew⟩
  have hkeep : (r.pruneClosed now).closed =
      r.closed.retain fun _ c => decide (now - c.closedAt ≤ closedPipeTtl) := if_pos hfew
  rw [hkeep, Map.lookup_retain_filter]
  cases hc : r.closed.lookup p with
  | none => rfl
  | some c => simp [Option.filter, hfresh c hc]

end ConnectionRegistry

namespace Hook

/-! ## Assumptions -/

/-- A connection with a path over `p` has no other path, and keeps it. -/
def SolePath (p : StableConnId) (s : Hook) : HookLabel → Prop
  | .connect link => .ble p.raw ∈ link.paths → link.paths = [.ble p.raw]
  | .setPaths conn paths =>
    (.ble p.raw ∈ paths ∨ ∃ l ∈ s.links[conn]?, .ble p.raw ∈ l.paths) → paths = [.ble p.raw]
  | _ => True

/-- An open connection is held, so that its weak handle can close it. -/
def Holds : HookLabel → Prop
  | .connect link => link.isOpen = true → link.held = true
  | _ => True

/-- The memory of closed pipes that the task prunes. -/
def pruned (now : ℕ) (s : Hook) : Task → Option (Map StableConnId ClosedPipe)
  | .inserting _ => some s.conns.closed
  | .evicting _ (pipe :: _) => some (s.conns.closed.insert pipe
      ⟨bleCloseCodeRetry, bleCloseReasonEvicted, now, s.conns.nextCloseSeq⟩)
  | .leaving pipe => some (s.conns.closed.insert pipe
      ⟨bleCloseCodeRetry, bleCloseReasonPipeClosed, now, s.conns.nextCloseSeq⟩)
  | _ => none

/-- Pruning neither expires the record of `p` nor overflows. -/
def Remembers (p : StableConnId) (s : Hook) : HookLabel → Prop
  | .run i now _ =>
    ∀ t ∈ s.tasks[i]?, ∀ closed ∈ s.pruned now t, ConnectionRegistry.Fits now p closed
  | _ => True

/-- What is assumed of a step. -/
def Allowed (p : StableConnId) (s : Hook) (l : HookLabel) : Prop :=
  SolePath p s l ∧ Holds l ∧ Remembers p s l

/-- Neither a task nor the forwarder can move. -/
def Finished (s : Hook) : Prop :=
  (∀ i now order, s.runAt i now order = none) ∧ s.forward = none

/-- The connection and the pipe whose promotion the step accepts. -/
def accepts? (s : Hook) : HookLabel → Option (ConnId × StableConnId)
  | .run i now _ =>
    match s.tasks[i]? with
    | some (.promoting conn remote pipe) =>
      match (s.routing.promote now pipe s.self remote).2 with
      | .accepted _ => some (conn, pipe)
      | .rejected => none
    | _ => none
  | _ => none

/-- A step that accepts a connection is a promotion the routing table accepts. -/
theorem accepts?_eq_some {s : Hook} {l : HookLabel} {c : ConnId} {p : StableConnId}
    (h : s.accepts? l = some (c, p)) : ∃ i now order remote evicted, l = .run i now order ∧
      s.tasks[i]? = some (.promoting c remote p) ∧
      (s.routing.promote now p s.self remote).2 = .accepted evicted := by
  unfold accepts? at h
  split at h
  · rename_i i now order
    split at h
    · rename_i conn remote pipe ht
      split at h
      · rename_i evicted hout
        cases h
        exact ⟨i, now, order, remote, evicted, rfl, ht, hout⟩
      · cases h
    · cases h
  · cases h

variable {s s' s₁ : Hook} {t t' : Task} {i now : ℕ} {order : List ConnId} {p : StableConnId}

/-! ## Links -/

/-- What the assumptions say about the links: the connections over `p` have no other path, the
open ones are held, and a task on `p` has a connection over it. -/
structure Linked (p : StableConnId) (s : Hook) : Prop where
  paths : ∀ l ∈ s.links, .ble p.raw ∈ l.paths → l.paths = [.ble p.raw]
  held : ∀ l ∈ s.links, l.isOpen = true → l.held = true
  rides : ∀ t ∈ s.tasks, ∀ c e, t.rides = some (c, e, p) →
    ∃ l, s.links[c]? = some l ∧ .ble p.raw ∈ l.paths

/-- A link that a change leaves over `p` has no other path, and one that it leaves open is held. -/
theorem Linked.updateLink (hl : Linked p s) {conn : ConnId} {f : Link → Link}
    (hkeep : ∀ l, s.links[conn]? = some l → .ble p.raw ∈ l.paths → .ble p.raw ∈ (f l).paths)
    (hpaths : ∀ l, s.links[conn]? = some l → .ble p.raw ∈ (f l).paths →
      (f l).paths = [.ble p.raw])
    (hheld : ∀ l, s.links[conn]? = some l → (f l).isOpen = true → (f l).held = true) :
    Linked p (s.updateLink conn f) := by
  -- a link is one of the others, or the one that was changed
  have hcases : ∀ l ∈ s.links.modify conn f, l ∈ s.links ∨
      ∃ l₀, s.links[conn]? = some l₀ ∧ l = f l₀ := by
    intro l hmem
    rcases List.mem_iff_getElem?.mp hmem with ⟨j, hj⟩
    rw [List.getElem?_modify] at hj
    rcases Option.map_eq_some_iff.mp hj with ⟨l₀, hl₀, rfl⟩
    by_cases hc : conn = j
    · subst hc
      exact .inr ⟨l₀, hl₀, if_pos rfl⟩
    · rw [if_neg hc]
      exact .inl (List.mem_of_getElem? hl₀)
  refine ⟨?_, ?_, ?_⟩
  · intro l hmem hp
    rcases hcases l hmem with hmem | ⟨l₀, hl₀, rfl⟩
    · exact hl.paths l hmem hp
    · exact hpaths l₀ hl₀ hp
  · intro l hmem hopen
    rcases hcases l hmem with hmem | ⟨l₀, hl₀, rfl⟩
    · exact hl.held l hmem hopen
    · exact hheld l₀ hl₀ hopen
  · intro t ht c e hr
    rcases hl.rides t ht c e hr with ⟨l, hlc, hp⟩
    -- the link that a task rides is still there, changed or not
    by_cases hc : conn = c
    · subst hc
      refine ⟨f l, ?_, hkeep l hlc hp⟩
      simp [Hook.updateLink, hlc]
    · refine ⟨l, ?_, hp⟩
      simp [Hook.updateLink, hc, hlc]

theorem closeIfOnlyPath_paths (pipe : StableConnId) (l : Link) :
    (l.closeIfOnlyPath pipe).paths = l.paths := by
  unfold Link.closeIfOnlyPath
  split <;> rfl

/-- A move of a task keeps what is assumed of the connections on a pipe. -/
theorem Moves.linked (hl : Linked p s) (h : Moves now order s t s₁ t') : Linked p s₁ := by
  have hclose : ∀ {conn : ConnId} {f : Link → Link}, (∀ l, (f l).paths = l.paths) →
      (∀ l, (f l).isOpen = true → f l = l) → Linked p (s.updateLink conn f) := by
    intro conn f hpaths hopen
    refine hl.updateLink ?_ ?_ ?_
    · intro l _ hp
      rwa [hpaths]
    · intro l hlc hp
      rw [hpaths] at hp ⊢
      exact hl.paths l (List.mem_of_getElem? hlc) hp
    · intro l hlc ho
      have hsame := hopen l ho
      rw [hsame] at ho ⊢
      exact hl.held l (List.mem_of_getElem? hlc) ho
  cases h with
  | refuses => exact hclose (fun _ => rfl) fun _ ho => absurd ho Bool.false_ne_true
  | @closes conn handles pipe next =>
      refine hclose (closeIfOnlyPath_paths pipe) fun l ho => ?_
      unfold Link.closeIfOnlyPath at ho ⊢
      split at ho
      · rename_i hkept
        exact if_pos hkept
      · cases ho
  | _ => exact ⟨hl.paths, hl.held, hl.rides⟩

/-- A task is on its pipe from the moment it has read the paths of its connection. -/
theorem Moves.rides {c : ConnId} {e : EndpointId} (h : Moves now order s t s₁ t')
    (hr : t'.rides = some (c, e, p)) : t.rides = some (c, e, p) ∨
      s₁ = s ∧ ∃ l, s.links[c]? = some l ∧ .ble p.raw ∈ l.paths := by
  cases h with
  | passes _ _ _ hprecedes => exact .inl (hprecedes.rides _ hr)
  | reads hlink hpath =>
      cases hr
      exact .inr ⟨rfl, _, hlink, hpath⟩
  | accepts _ _ => exact .inl hr
  | collects _ hcases =>
      rcases hcases with ⟨rfl, rfl, -⟩ | ⟨a, todo, rfl, rfl, -⟩
      · cases hr
      · exact .inl hr
  | closes => exact .inl hr
  | @inserts a =>
      refine .inl ?_
      have hrides := Task.rides_of_accepted (Task.accepted_of_watch (insert_registers now a s).1)
      rw [hrides] at hr
      exact hr
  | removes _ => split at hr <;> cases hr
  | refuses => cases hr

theorem linked_runs (hl : Linked p s) (ht : s.tasks[i]? = some t)
    (h : Moves now order s t s₁ t') : Linked p { s₁ with tasks := s.tasks.set i t' } := by
  have hl₁ := h.linked hl
  refine ⟨hl₁.paths, hl₁.held, ?_⟩
  intro u hu c e hr
  rcases List.mem_or_eq_of_mem_set hu with hu | rfl
  · exact hl₁.rides u (h.tasks ▸ hu) c e hr
  · rcases h.rides hr with hr | ⟨rfl, hlink⟩
    · exact hl₁.rides t (h.tasks ▸ List.mem_of_getElem? ht) c e hr
    · exact hlink

/-- A new task that rides nothing yet, with links that fit the assumption, keeps it. -/
theorem Linked.spawn (hl : Linked p s) (hr : t.rides = none) (links : List Link)
    (hpaths : ∀ l ∈ links, .ble p.raw ∈ l.paths → l.paths = [.ble p.raw])
    (hheld : ∀ l ∈ links, l.isOpen = true → l.held = true) :
    Linked p { s with links := s.links ++ links, tasks := s.tasks ++ [t] } := by
  refine ⟨?_, ?_, ?_⟩
  · intro l hmem
    rcases List.mem_append.mp hmem with hmem | hmem
    · exact hl.paths l hmem
    · exact hpaths l hmem
  · intro l hmem
    rcases List.mem_append.mp hmem with hmem | hmem
    · exact hl.held l hmem
    · exact hheld l hmem
  · intro u hu c e hu'
    rcases List.mem_append.mp hu with hu | hu
    · rcases hl.rides u hu c e hu' with ⟨l, hlc, hp⟩
      refine ⟨l, ?_, hp⟩
      rw [List.getElem?_append_left (List.getElem?_eq_some_iff.mp hlc).1]
      exact hlc
    · rw [List.mem_singleton.mp hu, hr] at hu'
      cases hu'

/-- Every step keeps what is assumed of the connections on the pipe. -/
theorem linked_step {l : HookLabel} (hl : Linked p s) (hC : Allowed p s l) (h : Turns s l s') :
    Linked p s' := by
  cases h with
  | runs ht _ hm => exact linked_runs hl ht hm
  | @connects link =>
      refine hl.spawn rfl [link] ?_ ?_
      · intro l hmem
        rw [List.mem_singleton.mp hmem]
        exact hC.1
      · intro l hmem
        rw [List.mem_singleton.mp hmem]
        exact hC.2.1
  | @exits pipe =>
      have hspawn := hl.spawn (t := .exiting pipe) rfl [] (List.forall_mem_nil _) (List.forall_mem_nil _)
      rw [List.append_nil] at hspawn
      exact hspawn
  | @moves conn paths =>
      -- a change of paths neither takes `p` away nor adds it to another path
      refine hl.updateLink ?_ ?_ ?_
      · intro l hlc hp
        have hpaths : paths = [.ble p.raw] := hC.1 (.inr ⟨l, hlc, hp⟩)
        rw [hpaths]
        exact List.mem_cons_self
      · intro l _ hp
        exact hC.1 (.inl hp)
      · intro l hlc ho
        exact hl.held l (List.mem_of_getElem? hlc) ho
  | @ends _ conn f _ hpaths hclosed =>
      refine hl.updateLink ?_ ?_ ?_
      · intro l _ hp
        rwa [hpaths]
      · intro l hlc hp
        rw [hpaths] at hp ⊢
        exact hl.paths l (List.mem_of_getElem? hlc) hp
      · intro l _ ho
        rw [hclosed] at ho
        cases ho
  | forwards _ _ _ _ => exact ⟨hl.paths, hl.held, hl.rides⟩

/-! ## Registered connections -/

/-- A registered connection on `p` is in its bucket and the pipe is not closed, or it is closed,
or a task is about to close it. -/
def Safe (p : StableConnId) (s : Hook) : Prop :=
  ∀ t ∈ s.tasks, ∀ c e w, t.watch = some ((c, e, p), w) →
    (s.conns.watched e p w = some c ∧ s.conns.closed.lookup p = none) ∨ s.isClosed c = true ∨
      ∃ u ∈ s.tasks, u.closes c p = true

/-- A step leaves what is known about `p`, or it closes `p` and collects its connections. -/
theorem Moves.closed (h : Moves now order s t s₁ t')
    (hfit : ∀ closed ∈ s.pruned now t, ConnectionRegistry.Fits now p closed) :
    s₁.conns.closed.lookup p = s.conns.closed.lookup p ∧
        (t.exits p = true → t'.exits p = true) ∨
      (s₁.conns.closed.lookup p).isSome = true ∧ (∃ next, t' = .closing order p next) ∧
        order.Perm (s.conns.handlesOn p) := by
  cases h with
  | @collects _ next pipe reason hperm hcases =>
      -- only `close_pipe` and `insert` write to the memory, and both keep this record
      have hfit' : ConnectionRegistry.Fits now p
          (s.conns.closed.insert pipe ⟨bleCloseCodeRetry, reason, now, s.conns.nextCloseSeq⟩) := by
        rcases hcases with ⟨rfl, rfl, rfl⟩ | ⟨a, todo, rfl, rfl, rfl⟩ <;> exact hfit _ rfl
      have hlookup : (s.conns.closePipe now pipe bleCloseCodeRetry reason).closed.lookup p =
          (s.conns.closed.insert pipe
            ⟨bleCloseCodeRetry, reason, now, s.conns.nextCloseSeq⟩).lookup p :=
        ConnectionRegistry.lookup_pruneClosed hfit'
      dsimp only
      rw [hlookup, Map.lookup_insert_ite]
      -- the pipe itself is closed: its connections are collected with the record
      by_cases hp : p = pipe
      · subst hp
        rw [if_pos rfl]
        exact .inr ⟨rfl, ⟨next, rfl⟩, hperm⟩
      · refine .inl ⟨if_neg hp, fun hexits => ?_⟩
        rcases hcases with ⟨rfl, -⟩ | ⟨a, todo, rfl, -⟩
        · exact absurd (eq_of_beq hexits).symm hp
        · cases hexits
  -- a registration prunes, and drops what has expired or is too old
  | @inserts a =>
      rw [(insert_registers now a s).2.2.1]
      refine .inl ⟨ConnectionRegistry.lookup_pruneClosed (hfit _ rfl), ?_⟩
      exact fun hexits => absurd hexits Bool.false_ne_true
  -- the end of a watch does not touch the memory
  | @removes conn remote pipe w _ =>
      refine .inl ⟨?_, fun hexits => absurd hexits Bool.false_ne_true⟩
      change (s.conns.removeAndIsEmpty remote pipe w).1.closed.lookup p = _
      unfold ConnectionRegistry.removeAndIsEmpty
      split
      · rfl
      · dsimp only
        split <;> rfl
  | passes _ _ _ hprecedes => exact .inl ⟨rfl, hprecedes.exits p⟩
  | reads _ _ | accepts _ _ | refuses | closes =>
      exact .inl ⟨rfl, fun hexits => absurd hexits Bool.false_ne_true⟩

/-- Closing a connection that has no other path succeeds. -/
theorem isClosed_closeIfOnlyPath {c : ConnId} {l : Link} (hl : Linked p s)
    (hlc : s.links[c]? = some l) (hp : .ble p.raw ∈ l.paths) :
    (s.updateLink c (Link.closeIfOnlyPath p)).isClosed c = true := by
  have hmem : l ∈ s.links := List.mem_of_getElem? hlc
  -- an open connection is held, so that the weak handle still upgrades
  have hclosed : (l.closeIfOnlyPath p).isOpen = false := by
    cases ho : l.isOpen with
    | false => exact closeIfOnlyPath_isOpen p l ho
    | true => simp [Link.closeIfOnlyPath, hl.held l hmem ho, hl.paths l hmem hp]
  simp [isClosed, updateLink, hlc, hclosed]

/-- A connection about to be closed stays so until it is closed. -/
theorem Moves.keeps_closes {c : ConnId} {l : Link} (h : Moves now order s t s₁ t')
    (hl : Linked p s) (hlc : s.links[c]? = some l) (hp : .ble p.raw ∈ l.paths)
    (hc : t.closes c p = true) : t'.closes c p = true ∨ s₁.isClosed c = true := by
  cases h with
  | passes _ _ _ hprecedes => exact .inl (hprecedes.closes c p hc)
  | @closes conn handles pipe next =>
      simp only [Task.closes, Bool.and_eq_true, beq_iff_eq, decide_eq_true_eq] at hc
      rcases hc with ⟨rfl, hmem⟩
      rcases List.mem_cons.mp hmem with rfl | hmem
      · exact .inr (isClosed_closeIfOnlyPath hl hlc hp)
      · exact .inl (by simp [Task.closes, hmem])
  | collects _ hcases => rcases hcases with ⟨rfl, -⟩ | ⟨a, todo, rfl, -⟩ <;> cases hc
  | reads _ _ | accepts _ _ | refuses | inserts | removes _ => cases hc

/-- An old watch is still in its bucket, or its connection is closed. -/
theorem Moves.keeps_watched {c : ConnId} {e : EndpointId} {w : ℕ} {u : Task}
    (h : Moves now order s t s₁ t') (hi : s.Indexed) (hl : Linked p s) (ht : t ∈ s.tasks)
    (hu : u ∈ s.tasks) (huw : u.watch = some ((c, e, p), w))
    (hw : s.conns.watched e p w = some c) :
    s₁.conns.watched e p w = some c ∨ s.isClosed c = true := by
  cases h with
  | @inserts a =>
      change (s.conns.insert now a.remote a.pipe a.conn).1.watched e p w = some c ∨ _
      rw [ConnectionRegistry.watched_insert]
      have hlt : w ≠ s.conns.nextId + 1 := Nat.ne_of_lt (Nat.lt_succ_of_le (hi.bound u hu _ w huw))
      rw [if_neg fun hnew => hlt hnew.2.2.2]
      exact .inl hw
  | @removes conn remote pipe w' hopen =>
      change (s.conns.removeAndIsEmpty remote pipe w').1.watched e p w = some c ∨ _
      rw [ConnectionRegistry.watched_removeAndIsEmpty]
      by_cases hsame : e = remote ∧ p = pipe ∧ w = w'
      · -- the watch of another task has another id, so that this is the connection that closed
        rcases hsame with ⟨rfl, rfl, rfl⟩
        have hconn := hi.same u hu _ ht _ _ w huw rfl
        cases hconn
        rcases hl.rides u hu c e (Task.rides_of_accepted (Task.accepted_of_watch huw)) with
          ⟨l, hlc, -⟩
        exact .inr (isClosed_of_link hlc hopen)
      · rw [if_neg hsame]
        exact .inl hw
  | _ => exact .inl hw

/-- A step of a task keeps the connections of a pipe safe, its memory losing only what it may. -/
theorem safe_runs (hs : Safe p s) (hi : s.Indexed) (hl : Linked p s) (ht : s.tasks[i]? = some t)
    (hrun : s.runTask now order t = some (s₁, t')) (h : Moves now order s t s₁ t')
    (hfit : ∀ closed ∈ s.pruned now t, ConnectionRegistry.Fits now p closed) :
    Safe p { s₁ with tasks := s.tasks.set i t' } := by
  have htm : t ∈ s.tasks := List.mem_of_getElem? ht
  have hmono : ∀ c, s.isClosed c = true → s₁.isClosed c = true := (taskTame hrun).closed
  intro v hv c e w hvw
  change (s₁.conns.watched e p w = some c ∧ s₁.conns.closed.lookup p = none) ∨
    s₁.isClosed c = true ∨ ∃ u ∈ s.tasks.set i t', u.closes c p = true
  -- either the step registers the connection, or some task watched it before
  have hold : (∃ u ∈ s.tasks, u.watch = some ((c, e, p), w)) ∨
      ∃ a, t = .inserting a ∧ (c, e, p) = (a.conn, a.remote, a.pipe) ∧ w = s.conns.nextId + 1 ∧
        s₁ = (s.insert now a).1 ∧ t' = (s.insert now a).2 := by
    rcases List.mem_or_eq_of_mem_set hv with hv | rfl
    · exact .inl ⟨v, hv, hvw⟩
    · rcases h.watch hvw with hw | hnew
      · exact .inl ⟨t, htm, hw⟩
      · exact .inr hnew
  rcases hold with ⟨u, hu, huw⟩ | ⟨a, -, hx, rfl, rfl, rfl⟩
  · -- an old registration: in its bucket, closed, or about to be
    rcases hs u hu c e w huw with ⟨hw, hopen⟩ | hclosed | ⟨u', hu', hcloses⟩
    · rcases h.closed hfit with ⟨hsame, -⟩ | ⟨-, ⟨next, rfl⟩, hperm⟩
      · rcases h.keeps_watched hi hl htm hu huw hw with hw | hclosed
        · exact .inl ⟨hw, hsame.trans hopen⟩
        · exact .inr (.inl (hmono c hclosed))
      · -- the pipe is closed under it, with everything in its buckets
        refine .inr (.inr ⟨_, mem_set_self ht, ?_⟩)
        have hmem : c ∈ order := hperm.mem_iff.mpr (ConnectionRegistry.mem_handlesOn hw)
        simp [Task.closes, hmem]
    · exact .inr (.inl (hmono c hclosed))
    · rcases mem_set_or ht hu' with hset | rfl
      · exact .inr (.inr ⟨u', hset, hcloses⟩)
      · rcases hl.rides u hu c e (Task.rides_of_accepted (Task.accepted_of_watch huw)) with
          ⟨l, hlc, hp⟩
        rcases h.keeps_closes hl hlc hp hcloses with hcloses | hclosed
        · exact .inr (.inr ⟨t', mem_set_self ht, hcloses⟩)
        · exact .inr (.inl hclosed)
  · -- a new one: the record of a closed pipe is found under the same lock
    cases hx
    rcases insert_registers now a s with ⟨-, -, hclosed, hcloses | ⟨hw, hnone⟩⟩
    · exact .inr (.inr ⟨_, mem_set_self ht, hcloses⟩)
    · rw [hclosed]
      exact .inl ⟨hw, hnone⟩

theorem Safe.idles (hs : Safe p s) (h : Idles s s') : Safe p s' := by
  intro t ht c e w hw
  have hold : t ∈ s.tasks := h.new t ht _ (Task.rides_of_accepted (Task.accepted_of_watch hw))
  rw [h.conns]
  rcases hs t hold c e w hw with hbucket | hc | ⟨u, hu, hcloses⟩
  · exact .inl hbucket
  · exact .inr (.inl (h.closed c hc))
  · exact .inr (.inr ⟨u, h.kept u hu, hcloses⟩)

theorem safe_step {l : HookLabel} (hs : Safe p s) (hi : s.Indexed) (hl : Linked p s)
    (hC : Allowed p s l) (h : Turns s l s') : Safe p s' := by
  rcases h.idles_or_runs with ⟨hidle, -⟩ | ⟨i, now, order, t, t', s₁, rfl, ht, hrun, hm, rfl⟩
  · exact hs.idles hidle
  · exact safe_runs hs hi hl ht hrun hm (hC.2.2 t ht)

/-! ## Runs -/

/-- The invariant along a run with history `h`: an accepted connection is closed or still has its
task, and a pipe that exits is remembered as closed or is about to be. -/
structure Sound (p : StableConnId) (h : List (Hook × HookLabel)) (s : Hook) : Prop where
  indexed : s.Indexed
  linked : Linked p s
  safe : Safe p s
  routed : s.Routed
  accepted : ∀ c, (∃ x ∈ h, x.1.accepts? x.2 = some (c, p)) →
    s.isClosed c = true ∨ ∃ t ∈ s.tasks, ∃ e, t.accepted = some (c, e, p)
  exited : (∃ x ∈ h, x.2 = .exitPipe p) →
    (∃ t ∈ s.tasks, t.exits p = true) ∨ (s.conns.closed.lookup p).isSome = true

/-- At the start there is nothing to keep. -/
theorem sound_init (hs : system.Init s) : Sound p [] s := by
  rcases hs with ⟨self, rfl⟩
  have hlinks : ∀ {P : Link → Prop}, ∀ l ∈ ([] : List Link), P l := List.forall_mem_nil _
  have htasks : ∀ {P : Task → Prop}, ∀ t ∈ ([] : List Task), P t := List.forall_mem_nil _
  refine ⟨⟨htasks, htasks, ?_⟩, ⟨hlinks, hlinks, htasks⟩, htasks, ?_, ?_, ?_⟩
  · intro e q w c hw
    simp [ConnectionRegistry.watched, ConnectionRegistry.bucket] at hw
  · intro e x hx
    simp at hx
  · rintro c ⟨x, hx, -⟩
    cases hx
  · rintro ⟨x, hx, -⟩
    cases hx

/-- A step keeps the connection that has been accepted, and so does the one that accepts it. -/
theorem accepted_step {l : HookLabel} {c : ConnId} (hl : Linked p s) (h : Turns s l s')
    (ha : (s.isClosed c = true ∨ ∃ t ∈ s.tasks, ∃ e, t.accepted = some (c, e, p)) ∨
      s.accepts? l = some (c, p)) :
    s'.isClosed c = true ∨ ∃ t ∈ s'.tasks, ∃ e, t.accepted = some (c, e, p) := by
  rcases h.idles_or_runs with ⟨hidle, hrun⟩ | ⟨i, now, order, t, t', s₁, rfl, ht, hrun, hm, rfl⟩
  · rcases ha with (hc | ⟨t, ht, hacc⟩) | hnew
    · exact .inl (hidle.closed c hc)
    · exact .inr ⟨t, hidle.kept t ht, hacc⟩
    · rcases accepts?_eq_some hnew with ⟨i, now, order, e, evicted, rfl, -⟩
      cases hrun
  · have hmono : s.isClosed c = true → s₁.isClosed c = true := (taskTame hrun).closed c
    rcases ha with (hc | ⟨u, hu, e, hacc⟩) | hnew
    · exact .inl (hmono hc)
    · rcases mem_set_or ht hu with hset | rfl
      · exact .inr ⟨u, hset, e, hacc⟩
      · rcases hm.keeps_accepted hacc with hacc' | ⟨w, hopen, -⟩
        · exact .inr ⟨t', mem_set_self ht, e, hacc'⟩
        · rcases hl.rides u hu c e (Task.rides_of_accepted hacc) with ⟨l, hlc, -⟩
          exact .inl (hmono (isClosed_of_link hlc hopen))
    · -- the step itself accepts the promotion, and its task goes on with the connection
      rcases accepts?_eq_some hnew with ⟨i', now', order', e, evicted, hlabel, hpromoting, hout⟩
      cases hlabel
      rw [ht] at hpromoting
      obtain rfl := Option.some.inj hpromoting
      refine .inr ⟨t', mem_set_self ht, e, ?_⟩
      rcases Routing.promote_cases now p s.self e s.routing with ⟨hp, -⟩ | ⟨r, ps, hp, -⟩
      · rw [hp] at hout
        cases hout
      · simp only [runTask, hp, Option.some.injEq, Prod.mk.injEq] at hrun
        rw [← hrun.2]
        rfl

/-- A pipe on its way out, or remembered as closed, stays one of the two. -/
theorem exited_step {l : HookLabel} (hC : Allowed p s l) (h : Turns s l s')
    (he : ((∃ t ∈ s.tasks, t.exits p = true) ∨ (s.conns.closed.lookup p).isSome = true) ∨
      l = .exitPipe p) :
    (∃ t ∈ s'.tasks, t.exits p = true) ∨ (s'.conns.closed.lookup p).isSome = true := by
  rcases h.idles_or_runs with ⟨hidle, -⟩ | ⟨i, now, order, t, t', s₁, rfl, ht, -, hm, rfl⟩
  · rcases he with (⟨t, ht, hexits⟩ | hclosed) | rfl
    · exact .inl ⟨t, hidle.kept t ht, hexits⟩
    · rw [hidle.conns]
      exact .inr hclosed
    · cases h with
      | exits => exact .inl ⟨.exiting p, List.mem_append_right _ List.mem_cons_self, beq_self_eq_true _⟩
      | ends hlabel _ _ => rcases hlabel with hlabel | hlabel <;> cases hlabel
      | forwards _ hexit _ _ => cases hexit
  · rcases hm.closed (hC.2.2 t ht) with ⟨hsame, hexits⟩ | ⟨hclosed, -⟩
    · rcases he with (⟨u, hu, hexit⟩ | hclosed) | hlabel
      · rcases mem_set_or ht hu with hset | rfl
        · exact .inl ⟨u, hset, hexit⟩
        · exact .inl ⟨t', mem_set_self ht, hexits hexit⟩
      · dsimp only
        rw [hsame]
        exact .inr hclosed
      · cases hlabel
    · exact .inr hclosed

/-- The whole invariant over one step. -/
theorem sound_step {h : List (Hook × HookLabel)} {l : HookLabel} (hs : Sound p h s)
    (hC : Allowed p s l) (hstep : system.step l s = some s') : Sound p (h ++ [(s, l)]) s' := by
  have hturns := turns_of_step hstep
  have hi := indexed_step hs.indexed hturns
  refine ⟨hi, linked_step hs.linked hC hturns, safe_step hs.safe hs.indexed hs.linked hC hturns,
    routed_step hs.routed hi hturns, ?_, ?_⟩
  · rintro c ⟨x, hx, hacc⟩
    refine accepted_step hs.linked hturns ?_
    rcases List.mem_append.mp hx with hx | hx
    · exact .inl (hs.accepted c ⟨x, hx, hacc⟩)
    · rw [List.mem_singleton.mp hx] at hacc
      exact .inr hacc
  · rintro ⟨x, hx, hexit⟩
    refine exited_step hC hturns ?_
    rcases List.mem_append.mp hx with hx | hx
    · exact .inl (hs.exited ⟨x, hx, hexit⟩)
    · rw [List.mem_singleton.mp hx] at hexit
      exact .inr hexit

/-- The whole invariant along every run. -/
theorem sound {h : List (Hook × HookLabel)} (hrun : system.Run h s)
    (hC : System.Meets (Allowed p) h) : Sound p h s := by
  induction hrun with
  | init hs => exact sound_init hs
  | step _ hstep ih =>
      rw [System.meets_append, System.meets_singleton] at hC
      exact sound_step (ih hC.1) hC.2 hstep

/-- A task that cannot move is done, or waits for its connection to close. -/
theorem runTask_eq_none (h : ∀ now order, s.runTask now order t = none) :
    t = .done ∨ (∃ c, t = .handshake c) ∨
      ∃ c e q w, t = .watching c e q w ∧ s.isOpen c = true := by
  -- `close_pipe` can always collect in the order in which the index lists the connections
  have hcloses : ∀ {q : StableConnId} {reason : String} {next : Task},
      s.closePipe 0 (s.conns.handlesOn q) q reason next ≠ none := by
    intro q reason next hnone
    unfold closePipe at hnone
    rw [if_pos (List.Perm.refl _)] at hnone
    cases hnone
  cases t with
  | done => exact .inl rfl
  | handshake c => exact .inr (.inl ⟨c, rfl⟩)
  | watching c e q w =>
      have hstuck := h 0 []
      simp only [runTask] at hstuck
      split at hstuck
      · rename_i hopen
        exact .inr (.inr ⟨c, e, q, w, rfl, hopen⟩)
      · cases hstuck
  | promoting c e q =>
      have hstuck := h 0 []
      simp only [runTask] at hstuck
      split at hstuck <;> cases hstuck
  | evicting a todo =>
      cases todo with
      | nil => cases h 0 []
      | cons q todo => exact absurd (h 0 (s.conns.handlesOn q)) hcloses
  | leaving q => exact absurd (h 0 (s.conns.handlesOn q)) hcloses
  | resolving a todo evicted => cases todo <;> cases h 0 []
  | closing handles q next => cases handles <;> cases h 0 []
  | rejecting _ _ _ | refusing _ | inserting _ | notifying _ _ _ _ _ | reporting _ _ | exiting _
  | gone _ => cases h 0 []

/-- What a finished hook still has: handshakes under way, and watchers of open connections. -/
theorem Finished.task (hf : s.Finished) (ht : t ∈ s.tasks) :
    t = .done ∨ (∃ c, t = .handshake c) ∨
      ∃ c e q w, t = .watching c e q w ∧ s.isOpen c = true := by
  rcases List.mem_iff_getElem?.mp ht with ⟨i, hi⟩
  refine runTask_eq_none fun now order => ?_
  have hnone := hf.1 i now order
  unfold runAt at hnone
  rw [hi] at hnone
  exact Option.map_eq_none_iff.mp hnone

/-- The forwarder waits only where it has nothing in hand and its queue is empty. -/
theorem forward_eq_none (h : s.forward = none) : s.forwarder = .idle ∧ s.queue = [] := by
  unfold forward at h
  split at h
  · rename_i hidle
    split at h
    · rename_i hempty
      exact ⟨hidle, hempty⟩
    · cases h
    · cases h
  case h_4 | h_6 => split at h <;> cases h
  all_goals cases h

/-- When a pipe has exited and no task can move any more, every connection whose promotion was
accepted on it is closed, and no routable entry names it. -/
theorem no_connection_stranded {h : List (Hook × HookLabel)} (hrun : system.Run h s)
    (hC : System.Meets (Allowed p) h) (hexit : ∃ x ∈ h, x.2 = .exitPipe p) (hf : s.Finished) :
    (∀ c, (∃ x ∈ h, x.1.accepts? x.2 = some (c, p)) → s.isClosed c = true) ∧
      ∀ e x, s.routing.routable.lookup e = some x → x.pipe ≠ p := by
  have hs := sound hrun hC
  have hclosed : (s.conns.closed.lookup p).isSome = true := by
    rcases hs.exited hexit with ⟨t, ht, hexits⟩ | hclosed
    · rcases hf.task ht with rfl | ⟨c, rfl⟩ | ⟨c, e, q, w, rfl, -⟩ <;> cases hexits
    · exact hclosed
  -- a task that is left watches an open connection, which a closed pipe does not have
  have hnone : ∀ t ∈ s.tasks, ∀ c e, t.accepted ≠ some (c, e, p) := by
    intro t ht c e hacc
    rcases hf.task ht with rfl | ⟨c, rfl⟩ | ⟨c, e, q, w, rfl, hopen⟩
    · cases hacc
    · cases hacc
    · cases hacc
      rcases hs.safe _ ht c e w rfl with ⟨-, hnot⟩ | hc | ⟨u, hu, hcloses⟩
      · rw [hnot] at hclosed
        cases hclosed
      · rw [not_isOpen_of_isClosed hc] at hopen
        cases hopen
      · rcases hf.task hu with rfl | ⟨c, rfl⟩ | ⟨c, e, q, w, rfl, -⟩ <;> cases hcloses
  constructor
  · intro c hacc
    rcases hs.accepted c hacc with hc | ⟨t, ht, e, ha⟩
    · exact hc
    · exact absurd ha (hnone t ht c e)
  · rintro e x hx rfl
    rcases hs.routed e x hx with (⟨t, ht, hreports⟩ | hheard) | ⟨t, ht, c, ha⟩
    · rcases hf.task ht with rfl | ⟨c, rfl⟩ | ⟨c, e, q, w, rfl, -⟩ <;> cases hreports
    · rcases forward_eq_none hf.2 with ⟨hidle, hempty⟩
      rcases hheard with hq | hh
      · rw [hempty] at hq
        cases hq
      · rw [hidle] at hh
        cases hh
    · exact hnone t ht c e ha

instance (p : StableConnId) (s : Hook) : ∀ l, Decidable (SolePath p s l)
  | .connect _ => inferInstanceAs (Decidable (_ → _))
  | .setPaths _ _ => inferInstanceAs (Decidable (_ ∨ _ → _))
  | .closeLink _ | .dropLink _ | .rehash _ | .openPipe _ _ _ _ | .exitPipe _ | .noteScanHint _ _
  | .reserveOutbound _ _ | .run _ _ _ | .forward => isTrue trivial

instance : ∀ l, Decidable (Holds l)
  | .connect _ => inferInstanceAs (Decidable (_ → _))
  | .setPaths _ _ | .closeLink _ | .dropLink _ | .rehash _ | .openPipe _ _ _ _ | .exitPipe _
  | .noteScanHint _ _ | .reserveOutbound _ _ | .run _ _ _ | .forward => isTrue trivial

instance (p : StableConnId) (s : Hook) : ∀ l, Decidable (Remembers p s l)
  | .run i now _ => inferInstanceAs
      (Decidable (∀ t ∈ s.tasks[i]?, ∀ closed ∈ s.pruned now t, ConnectionRegistry.Fits now p closed))
  | .connect _ | .setPaths _ _ | .closeLink _ | .dropLink _ | .rehash _ | .openPipe _ _ _ _
  | .exitPipe _ | .noteScanHint _ _ | .reserveOutbound _ _ | .forward => isTrue trivial

instance (p : StableConnId) (s : Hook) (l : HookLabel) : Decidable (Allowed p s l) :=
  inferInstanceAs (Decidable (_ ∧ _ ∧ _))

/-- A hook whose tasks have all ended is finished. -/
theorem finished_of_done (ht : ∀ t ∈ s.tasks, t = .done) (hf : s.forwarder = .idle)
    (hq : s.queue = []) : s.Finished := by
  refine ⟨?_, by simp [forward, hf, hq]⟩
  intro i now order
  unfold runAt
  split
  · rfl
  · rename_i t hi
    rw [ht t (List.mem_of_getElem? hi)]
    rfl

/-- A connection on the pipe, and a second one whose promotion is accepted between the exit's
`evict_pipe_state` and its `close_pipe`. -/
def lateHandshake : List HookLabel :=
  [.openPipe 0 "peer" .central none, .connect { remote := peerEndpoint, paths := [.ble 1] }] ++
    runs 0 6 ++ [.connect { remote := peerEndpoint, paths := [.ble 1] }] ++ runs 1 1 ++
    [.exitPipe ⟨1⟩] ++ runs 2 1 ++ runs 1 1 ++ [.run 2 0 [0]] ++ runs 2 3 ++ runs 1 7 ++ runs 0 2 ++
    forwards 8

/-- A run in which a handshake promotes its pipe after the exit has evicted it: both of its
connections end up closed, and no routable entry is left. -/
theorem no_connection_stranded_lateHandshake :
    ∃ h s, system.Run h s ∧ h.map Prod.snd = lateHandshake ∧
      (∃ x ∈ h, x.1.accepts? x.2 = some (1, ⟨1⟩)) ∧ s.isClosed 0 = true ∧ s.isClosed 1 = true ∧
      ∀ e x, s.routing.routable.lookup e = some x → x.pipe ≠ ⟨1⟩ := by
  obtain ⟨h, s, hrun, hl, hC, h₀, h₁, ht, hf, hq⟩ := System.Run.of_trace
    (P := fun (h : List (Hook × HookLabel)) s => (∀ x ∈ h, Allowed ⟨1⟩ x.1 x.2) ∧
      (∃ x ∈ h, x.1.accepts? x.2 = some (0, ⟨1⟩)) ∧
      (∃ x ∈ h, x.1.accepts? x.2 = some (1, ⟨1⟩)) ∧ (∀ t ∈ s.tasks, t = .done) ∧
      s.forwarder = .idle ∧ s.queue = [])
    lateHandshake (init_start localEndpoint) (by decide +kernel)
  have hexit : ∃ x ∈ h, x.2 = .exitPipe ⟨1⟩ := by
    have hmem : HookLabel.exitPipe ⟨1⟩ ∈ h.map Prod.snd := by
      rw [hl]
      simp [lateHandshake]
    rcases List.mem_map.mp hmem with ⟨x, hx, hlabel⟩
    exact ⟨x, hx, hlabel⟩
  obtain ⟨hclosed, hroutable⟩ :=
    no_connection_stranded hrun hC hexit (finished_of_done ht hf hq)
  exact ⟨h, s, hrun, hl, h₁, hclosed 0 h₀, hclosed 1 h₁, hroutable⟩

end Hook

end IrohBle
