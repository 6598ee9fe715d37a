import IrohBle.Transport.Model
import IrohBle.Hook.HangUp

/-! # Transport.Stalled: which session a `Stalled` ends

`Stalled` names a device, and handling it ends whatever session the device has by then. A
worker, a promotion and the hang-up of the last connection raise it for one pipe.

* `safe`: the pipe is the one of the device's live session, or there is none to end.
* `stalled_ends_own_session`: a `Stalled` ends the session of the pipe it was raised for, as
  long as it is raised while that is safe and no pipe of the device is started while it is on
  its way (`Undisturbed`).
* `promotion_ends_promoted`: the `Stalled` that a promotion leads to ends the session of the
  pipe that was promoted.
-/

namespace IrohBle.Transport

open Lib Reliable Registry

/-- The entry of the device is `Connected`. -/
def live (s : Transport) (d : DeviceId) : Bool :=
  (s.node.actor.reg.peer d).any fun e => e.phase.isConnected

/-- Handling a `Stalled` for the `i`-th pipe ends no session but that of this pipe. -/
def safe (s : Transport) (i : ℕ) (d : DeviceId) : Bool :=
  s.node.current i || !s.live d || s.node.actor.loop.starting d || s.node.actor.loop.isStopped

/-- The pipe and the device of a `Stalled` in the inbox. -/
def account? (letter : Letter ℕ) : Option (ℕ × DeviceId) :=
  match letter with
  | ⟨.stalled d _, some i⟩ => some (i, d)
  | _ => none

/-- A `Stalled` about the device is on its way. -/
def underWay (s : Transport) (d : DeviceId) : Bool :=
  (s.node.actor.inbox.filterMap account?).any (fun x => x.2 == d) ||
    s.hook.accounts.any fun x => x.2 == d

/-- The device that the next action starts a pipe for. -/
def startsNext : Loop → Option DeviceId
  | .acting (a :: _) _ => a.device?
  | _ => none

/-- A `Stalled` is raised only while that is safe, and no pipe of a device is started while a
`Stalled` about it is on its way. -/
def Undisturbed (s : Transport) : TransportLabel → Prop
  | .pipe i .gattReports | .pipe i .l2capReports =>
    ∀ p ∈ s.node.pipes[i]?, s.safe i p.device = true
  | .hook l => ∀ id ∈ s.hook.raising? l, ∀ d ∈ s.hook.routing.deviceForPipe id,
    ∀ i ∈ s.ids.idxOf? id, s.safe i d = true
  | .execute _ => ∀ d ∈ startsNext s.node.actor.loop, s.underWay d = false
  | _ => True

variable {s s' : Transport} {l : TransportLabel} {i : ℕ} {d : DeviceId}

/-- The letters that are accounted for: a `Stalled` with the pipe it was raised for. -/
theorem account?_eq_some {letter : Letter ℕ} : account? letter = some (i, d) ↔
    ∃ cause, letter = ⟨.stalled d cause, some i⟩ := by
  unfold account?
  split
  · rename_i d' cause i'
    simp only [Option.some.injEq, Prod.mk.injEq, Letter.mk.injEq, PeerCommand.stalled.injEq,
      exists_and_right, exists_and_left]
    constructor
    · rintro ⟨rfl, rfl⟩
      exact ⟨⟨rfl, cause, rfl⟩, rfl⟩
    · rintro ⟨⟨rfl, -⟩, rfl⟩
      exact ⟨rfl, rfl⟩
  · rename_i hne
    constructor
    · intro h
      cases h
    · rintro ⟨cause, rfl⟩
      exact absurd rfl (hne d cause i)

theorem safe_iff : s.safe i d = true ↔ (s.live d = true → s.node.actor.loop.starting d = false →
    s.node.actor.loop.isStopped = false → s.node.current i = true) := by
  unfold safe
  cases s.node.current i <;> cases s.live d <;> cases s.node.actor.loop.starting d <;>
    cases s.node.actor.loop.isStopped <;> simp

/-! ## Safe accounts stay safe -/

/-- As long as no pipe of the device is started, an account that is safe stays so. -/
theorem safe_of_advances (hadv : Node.Advances s.node s'.node)
    (hno : ∀ (j : ℕ) (q : DataPipe), s.node.pipes.length ≤ j → s'.node.pipes[j]? = some q →
      q.device ≠ d)
    {p : DataPipe} (hp : s.node.pipes[i]? = some p) (hd : p.device = d) (h : s.safe i d = true) :
    s'.safe i d = true := by
  rw [safe_iff] at h ⊢
  intro hlive hstart hstop
  -- whatever is live, starting or running now was so before
  have hstop₀ : s.node.actor.loop.isStopped = false := by
    by_contra hcon
    rw [hadv.stopped (by simpa using hcon)] at hstop
    cases hstop
  have hstart₀ : s.node.actor.loop.starting d = false := by
    by_contra hcon
    rcases hadv.starting d (by simpa using hcon) with hs | ⟨j, q, hj, hq, hqd⟩
    · rw [hstart] at hs
      cases hs
    · exact hno j q hj hq hqd
  rcases Option.any_eq_true _ _ |>.mp hlive with ⟨e', he', hc'⟩
  have hlive₀ : s.live d = true := by
    rcases hadv.peer d e' he' hc' with hs | ⟨e, he, hc, -⟩
    · rw [hstart] at hs
      cases hs
    · exact Option.any_eq_true _ _ |>.mpr ⟨e, he, hc⟩
  rcases Node.current_iff.mp (h hlive₀ hstart₀ hstop₀) with ⟨p₁, hp₁, -, hnew, -, -⟩
  obtain rfl : p = p₁ := Option.some.inj (hp.symm.trans hp₁)
  rcases hadv.pipes i p hp with ⟨p', hp', hsame, -⟩
  refine Node.current_iff.mpr ⟨p', hp', hstop, fun j q hj hq => ?_, ?_, e', ?_, hc'⟩
  · rw [hsame.device, hd]
    by_cases hlt : j < s.node.pipes.length
    · rcases hadv.pipes j _ (List.getElem?_eq_getElem hlt) with ⟨q', hq', hsame', -⟩
      obtain rfl : q = q' := Option.some.inj (hq.symm.trans hq')
      rw [hsame'.device, ← hd]
      exact hnew j _ hj (List.getElem?_eq_getElem hlt)
    · exact hno j q (by omega) hq
  · rw [hsame.device, hd]
    exact hstart
  · rw [hsame.device, hd]
    exact he'

/-! ## What a step does to the accounts -/

/-- A step of the transport moves the node on as a node does. -/
theorem Stepped.advances (h : Stepped s l s') (hlink : Linked s) :
    Node.Advances s.node s'.node := by
  have hof : ∀ {nl : NodeLabel} {node : Node}, Node.system.step nl s.node = some node →
      Node.Advances s.node node := fun hs => (Node.step_moved hs).advances hlink.node.keyed
  cases h with
  | external hcmd hs => exact hof hs
  | pop hin hr hs => exact hof hs
  | start hl hs ho => exact hof hs
  | execute hl hs => exact hof hs
  | sent hs => exact hof hs
  | reorder hs => exact hof hs
  | pipe hs => exact hof hs
  | @hook hl hook s' hp hs =>
      rcases deliver_cases hs with ⟨-, rfl⟩ | ⟨letter, rest, hin, -, -, ⟨-, hnode⟩ | hnode⟩
      · exact .refl _
      · rw [hnode]
        exact .refl _
      · rw [hnode]
        exact .of_inbox _ _

/-- A pipe that was not there before was started by the step. -/
theorem Stepped.started (h : Stepped s l s') {j : ℕ} {q : DataPipe}
    (hj : s.node.pipes.length ≤ j) (hq : s'.node.pipes[j]? = some q) :
    ∃ now g txGen role target path l2cap todo shutdown, l = .execute now ∧ s.node.actor.loop =
      .acting (.startDataPipe q.device g txGen role target path l2cap :: todo) shutdown := by
  have hlt : j < s'.node.pipes.length := (List.getElem?_eq_some_iff.mp hq).1
  have hnone : s'.node.pipes.length ≠ s.node.pipes.length := by omega
  cases h with
  | external hcmd hs => exact absurd ((Node.step_moved hs).length nofun) hnone
  | pop hin hr hs => exact absurd ((Node.step_moved hs).length nofun) hnone
  | @start now d g txGen role target path l2cap todo shutdown node routing id hl hs ho =>
      rcases (Node.step_moved hs).started hq hj with
        ⟨d', g', txGen', role', target', path', l2cap', todo', shutdown', hl', -, rfl, -, -⟩
      refine ⟨now, g', txGen', role', target', path', l2cap', todo', shutdown', rfl, ?_⟩
      rw [DataPipe.start_device]
      exact hl'
  | execute hl hs =>
      refine absurd ((Node.step_moved hs).length ?_) hnone
      exact fun d g txGen role target path l2cap todo shutdown _ =>
        hl d g txGen role target path l2cap todo shutdown
  | sent hs => exact absurd ((Node.step_moved hs).length nofun) hnone
  | reorder hs => exact absurd ((Node.step_moved hs).length nofun) hnone
  | pipe hs => exact absurd ((Node.step_moved hs).length nofun) hnone
  | hook hp hs =>
      refine absurd ?_ hnone
      rcases deliver_cases hs with ⟨-, rfl⟩ | ⟨letter, rest, -, -, -, ⟨-, hnode⟩ | hnode⟩
      · rfl
      · rw [hnode]
      · rw [hnode]

/-- A pipe keeps its id. -/
theorem Stepped.ids (h : Stepped s l s') {id : StableConnId} (hi : s.ids[i]? = some id) :
    s'.ids[i]? = some id := by
  cases h with
  | start hl hs ho =>
      dsimp only
      rw [List.getElem?_append_left (List.getElem?_eq_some_iff.mp hi).1]
      exact hi
  | hook hp hs =>
      rcases deliver_cases hs with ⟨-, rfl⟩ | ⟨letter, rest, -, hids, -⟩
      · exact hi
      · rw [hids]
        exact hi
  | _ => exact hi

/-- An account of the hook was one before, or is for the pipe just looked up. -/
theorem Stepped.account_cases (h : Stepped s l s') {x : StableConnId × DeviceId}
    (hx : x ∈ s'.hook.accounts) : x ∈ s.hook.accounts ∨
      ∃ hl, l = .hook hl ∧ s.hook.raising? hl = some x.1 ∧
        s.hook.routing.deviceForPipe x.1 = some x.2 := by
  cases h with
  | @hook hl hook s' hp hs =>
      have hx' : x ∈ hook.accounts := by
        rcases deliver_cases hs with ⟨-, rfl⟩ | ⟨letter, rest, -, -, hhook, -⟩
        · exact hx
        · rw [hhook] at hx
          exact hx
      exact (hp.accounts x hx').imp_right fun h => ⟨hl, rfl, h⟩
  | _ => exact .inl hx

theorem getElem?_of_idxOf? {ids : List StableConnId} {id : StableConnId}
    (h : ids.idxOf? id = some i) : ids[i]? = some id := by
  rcases List.idxOf?_eq_some_iff.mp h with ⟨hlt, heq, -⟩
  rw [List.getElem?_eq_getElem hlt, heq]

theorem idxOf?_of_getElem? {ids : List StableConnId} {id : StableConnId} (hn : ids.Nodup)
    (h : ids[i]? = some id) : ids.idxOf? id = some i := by
  rcases List.getElem?_eq_some_iff.mp h with ⟨hlt, heq⟩
  refine List.idxOf?_eq_some_iff.mpr ⟨hlt, heq, fun j hj hcon => ?_⟩
  have := (List.Nodup.getElem_inj_iff hn).mp (hcon.trans heq.symm)
  omega

/-- The pipes report for themselves. -/
theorem moved_stalled_cases {node node' : Node} {nl : NodeLabel} {cause : StallCause}
    (h : Node.Moved node nl node') (hext : ∀ cmd, nl ≠ .external cmd)
    (hmem : ⟨.stalled d cause, some i⟩ ∈ node'.actor.inbox) :
    ⟨.stalled d cause, some i⟩ ∈ node.actor.inbox ∨
      ∃ p, (nl = .pipe i .gattReports ∨ nl = .pipe i .l2capReports) ∧ node.pipes[i]? = some p ∧
        p.device = d := by
  cases h with
  | external hcmd => exact absurd rfl (hext _)
  | pop hl hin ht hpipes =>
      left
      rw [hin]
      exact List.mem_cons_of_mem _ hmem
  | sent hl =>
      rcases List.mem_append.mp hmem with hmem | hmem
      · exact .inl hmem
      · cases List.mem_singleton.mp hmem
  | @pipe j pl p p' cmd inbox hp hm hin =>
      rcases hin with ⟨-, rfl⟩ | ⟨c, hc, -, rfl⟩
      · exact .inl hmem
      · rcases List.mem_append.mp hmem with hmem | hmem
        · exact .inl hmem
        · cases List.mem_singleton.mp hmem
          rcases hm.stalled hc with ⟨hl, hd⟩
          refine .inr ⟨p, ?_, hp, hd.symm⟩
          rcases hl with rfl | rfl
          · exact .inl rfl
          · exact .inr rfl
  | _ => exact .inl hmem

/-- A tagged `Stalled` in the inbox was there before, or a worker reported it, or it was on
account of the hook. -/
theorem Stepped.letter_cases (h : Stepped s l s') (hlink : Linked s)
    (hx : (i, d) ∈ s'.node.actor.inbox.filterMap account?) :
    (i, d) ∈ s.node.actor.inbox.filterMap account? ∨
      (∃ p, (l = .pipe i .gattReports ∨ l = .pipe i .l2capReports) ∧ s.node.pipes[i]? = some p ∧
        p.device = d) ∨
      ∃ id, s.ids[i]? = some id ∧ (id, d) ∈ s.hook.accounts := by
  rcases List.mem_filterMap.mp hx with ⟨letter, hmem, hacc⟩
  rcases account?_eq_some.mp hacc with ⟨cause, rfl⟩
  have hold : (⟨.stalled d cause, some i⟩ : Letter ℕ) ∈ s.node.actor.inbox →
      (i, d) ∈ s.node.actor.inbox.filterMap account? := fun h =>
    List.mem_filterMap.mpr ⟨_, h, hacc⟩
  have hof : ∀ {nl : NodeLabel} {node : Node}, Node.system.step nl s.node = some node →
      (∀ cmd, nl ≠ .external cmd) → (∀ j pl, nl ≠ .pipe j pl) →
      ⟨.stalled d cause, some i⟩ ∈ node.actor.inbox →
      (i, d) ∈ s.node.actor.inbox.filterMap account? := by
    intro nl node hs hext hpipe hmem
    rcases moved_stalled_cases (Node.step_moved hs) hext hmem with hmem | ⟨p, h | h, -⟩
    · exact hold hmem
    · exact absurd h (hpipe _ _)
    · exact absurd h (hpipe _ _)
  cases h with
  | external hcmd hs =>
      simp only [Node.system, Node.step] at hs
      split at hs
      · cases hs
      · rcases Node.post_cases hs with ⟨-, rfl⟩ | ⟨-, rfl⟩
        · exact .inl (hold hmem)
        · rcases List.mem_append.mp hmem with hmem | hmem
          · exact .inl (hold hmem)
          · cases List.mem_singleton.mp hmem
  | pop hin hr hs => exact .inl (hof hs (by simp) (by simp) hmem)
  | start hl hs ho => exact .inl (hof hs (by simp) (by simp) hmem)
  | execute hl hs => exact .inl (hof hs (by simp) (by simp) hmem)
  | sent hs => exact .inl (hof hs (by simp) (by simp) hmem)
  | reorder hs => exact .inl (hof hs (by simp) (by simp) hmem)
  | pipe hs =>
      rcases moved_stalled_cases (Node.step_moved hs) (by simp) hmem with hmem | ⟨p, h, hp, hd⟩
      · exact .inl (hold hmem)
      · refine .inr (.inl ⟨p, ?_, hp, hd⟩)
        rcases h with h | h <;> cases h
        · exact .inl rfl
        · exact .inr rfl
  | @hook hl hook s' hp hs =>
      rcases deliver_cases hs with ⟨-, rfl⟩ | ⟨letter, rest, hin, -, -, ⟨-, hnode⟩ | hnode⟩
      · exact .inl (hold hmem)
      · rw [hnode] at hmem
        exact .inl (hold hmem)
      · rw [hnode] at hmem
        rcases List.mem_append.mp hmem with hmem | hmem
        · exact .inl (hold hmem)
        · refine .inr (.inr ?_)
          have heq := List.mem_singleton.mp hmem
          rcases hp.inbox with hsame | ⟨letter', hnew, -, hacc'⟩
          · dsimp only at hin
            rw [hsame, hlink.inbox] at hin
            cases hin
          · dsimp only at hin
            rw [hnew, hlink.inbox] at hin
            cases hin
            have hpipe := (Letter.mk.inj heq).2
            rcases Option.bind_eq_some_iff.mp hpipe.symm with ⟨id, hid, hidx⟩
            rcases hacc' id hid with ⟨d', cause', hcmd, hmem'⟩
            have hcmd' := (Letter.mk.inj heq).1.trans hcmd
            cases hcmd'
            exact ⟨id, getElem?_of_idxOf? hidx, hmem'⟩

/-! ## Runs -/

/-- A `Stalled` for the `i`-th pipe is safe. -/
def Placed (s : Transport) (i : ℕ) (d : DeviceId) : Prop :=
  ∃ p, s.node.pipes[i]? = some p ∧ p.device = d ∧ s.safe i d = true

/-- Every `Stalled` in the inbox, and every account of the hook, is about a pipe that is placed.
-/
structure Accounted (s : Transport) : Prop extends Linked s where
  letters : ∀ i d, (i, d) ∈ s.node.actor.inbox.filterMap account? → s.Placed i d
  accounts : ∀ id d, (id, d) ∈ s.hook.accounts → ∃ i, s.ids[i]? = some id ∧ s.Placed i d

/-- A pipe stays placed as long as its device gets no other one. -/
theorem Placed.step (h : s.Placed i d) (hlink : Linked s) (hs : Stepped s l s')
    (hno : ∀ (j : ℕ) (q : DataPipe), s.node.pipes.length ≤ j → s'.node.pipes[j]? = some q →
      q.device ≠ d) : s'.Placed i d := by
  rcases h with ⟨p, hp, hd, hsafe⟩
  have hadv := hs.advances hlink
  rcases hadv.pipes i p hp with ⟨p', hp', hsame, -⟩
  exact ⟨p', hp', hsame.device.trans hd, safe_of_advances hadv hno hp hd hsafe⟩

/-- While an account of the device is open, none of its pipes is started. -/
theorem Stepped.no_new (h : Stepped s l s') (hC : Undisturbed s l) (hu : s.underWay d = true)
    (j : ℕ) (q : DataPipe) (hj : s.node.pipes.length ≤ j) (hq : s'.node.pipes[j]? = some q) :
    q.device ≠ d := by
  rintro rfl
  rcases h.started hj hq with ⟨now, g, txGen, role, target, path, l2cap, todo, shutdown, rfl, hl⟩
  rw [hC q.device (by rw [hl]; rfl)] at hu
  cases hu

/-- A step that raises a `Stalled` starts no pipe. -/
theorem Stepped.no_new_of_ne (h : Stepped s l s') (hl : ∀ now, l ≠ .execute now) (j : ℕ)
    (q : DataPipe) (hj : s.node.pipes.length ≤ j) (hq : s'.node.pipes[j]? = some q) :
    q.device ≠ d := by
  rcases h.started hj hq with ⟨now, _, _, _, _, _, _, _, _, hexec, -⟩
  exact absurd hexec (hl now)

/-- A step keeps every `Stalled` accounted for, if it is raised while that is safe. -/
theorem accounted_step (hA : Accounted s) (hC : Undisturbed s l) (hs : system.step l s = some s') :
    Accounted s' := by
  have h := step_stepped hs
  have hraised : ∀ {i d}, (∀ now, l ≠ .execute now) → s.Placed i d → s'.Placed i d :=
    fun hl hp => hp.step hA.toLinked h (h.no_new_of_ne hl)
  -- what the hook accounts for stays placed, no pipe of its device being started
  have hacc : ∀ id d, (id, d) ∈ s.hook.accounts → ∃ i, s.ids[i]? = some id ∧ s'.Placed i d := by
    intro id d hx
    rcases hA.accounts id d hx with ⟨i, hi, hp⟩
    refine ⟨i, hi, hp.step hA.toLinked h (h.no_new hC ?_)⟩
    simp only [underWay, Bool.or_eq_true, List.any_eq_true, beq_iff_eq]
    exact .inr ⟨_, hx, rfl⟩
  refine ⟨hA.toLinked.step h, fun i d hx => ?_, fun id d hx => ?_⟩
  · rcases h.letter_cases hA.toLinked hx with hx | ⟨p, hl, hp, hd⟩ | ⟨id, hi, hx⟩
    · refine (hA.letters i d hx).step hA.toLinked h (h.no_new hC ?_)
      simp only [underWay, Bool.or_eq_true, List.any_eq_true, beq_iff_eq]
      exact .inl ⟨_, hx, rfl⟩
    · -- a worker raises it while that is safe
      refine hraised (by rintro now rfl; rcases hl with hl | hl <;> cases hl) ⟨p, hp, hd, ?_⟩
      rw [← hd]
      rcases hl with rfl | rfl
      · exact hC p hp
      · exact hC p hp
    · -- the hook has sent what it had accounted for
      rcases hacc id d hx with ⟨j, hj, hp⟩
      have hj' := idxOf?_of_getElem? hA.issued.nodup hj
      rw [idxOf?_of_getElem? hA.issued.nodup hi] at hj'
      cases hj'
      exact hp
  · rcases h.account_cases hx with hx | ⟨hl, rfl, hr, hdev⟩
    · rcases hacc id d hx with ⟨i, hi, hp⟩
      exact ⟨i, h.ids hi, hp⟩
    · rcases Option.map_eq_some_iff.mp hdev with ⟨x, hx, hxd⟩
      rcases hA.registered id x hx with ⟨i, p, hi, hp, hd⟩
      refine ⟨i, h.ids hi, hraised (by simp) ⟨p, hp, hd.trans hxd, ?_⟩⟩
      exact hC id hr d hdev i (idxOf?_of_getElem? hA.issued.nodup hi)

theorem accounted_init (h : system.Init s) : Accounted s := by
  refine ⟨linked_init h, ?_, ?_⟩ <;> rcases h with ⟨policy, endpoint, rfl⟩
  · intro i d hx
    cases hx
  · intro id d hx
    cases hx

/-- When a `Stalled` raised for the `i`-th pipe is about to be handled and the device has a
live session, that session is the one of the `i`-th pipe: it has its generation, and no pipe
of the device was started after it. -/
theorem stalled_ends_own_session {h : List (Transport × TransportLabel)} (hrun : system.Run h s)
    (hC : System.Meets Undisturbed h) {cause : StallCause} {rest : List (Letter ℕ)} {e : PeerEntry}
    (hl : s.node.actor.loop = .recv)
    (hin : s.node.actor.inbox = ⟨.stalled d cause, some i⟩ :: rest)
    (he : s.node.actor.reg.peer d = some e) (hc : e.phase.isConnected = true) :
    ∃ p, s.node.pipes[i]? = some p ∧ p.device = d ∧ p.txGen = e.txGen ∧
      ∀ (j : ℕ) (q : DataPipe), i < j → s.node.pipes[j]? = some q → q.device ≠ d := by
  have hA : Accounted s :=
    hrun.invariant (fun _ => accounted_init) (fun _ _ _ hA hl hs => accounted_step hA hl hs) hC
  have hx : (i, d) ∈ s.node.actor.inbox.filterMap account? := by
    refine List.mem_filterMap.mpr ⟨⟨.stalled d cause, some i⟩, ?_, rfl⟩
    rw [hin]
    exact List.mem_cons_self
  rcases hA.letters i d hx with ⟨p, hp, hd, hsafe⟩
  have hcur : s.node.current i = true := by
    refine safe_iff.mp hsafe (Option.any_eq_true _ _ |>.mpr ⟨e, he, hc⟩) ?_ ?_
    · rw [hl]
      rfl
    · rw [hl]
      rfl
  rcases Node.current_iff.mp hcur with ⟨p₁, hp₁, -, hnew, -, -⟩
  obtain rfl : p = p₁ := Option.some.inj (hp.symm.trans hp₁)
  rcases hA.node.gen i p hp hcur with ⟨e₁, he₁, hg⟩
  rw [hd] at he₁ hnew
  obtain rfl : e = e₁ := Option.some.inj (he.symm.trans he₁)
  exact ⟨p, hp, hd, hg.symm, hnew⟩

instance (s : Transport) (l : TransportLabel) : Decidable (Undisturbed s l) :=
  match l with
  | .pipe i .gattReports | .pipe i .l2capReports =>
    inferInstanceAs (Decidable (∀ p ∈ s.node.pipes[i]?, s.safe i p.device = true))
  | .hook l =>
    inferInstanceAs (Decidable (∀ id ∈ s.hook.raising? l, ∀ d ∈ s.hook.routing.deviceForPipe id,
      ∀ i ∈ s.ids.idxOf? id, s.safe i d = true))
  | .execute _ =>
    inferInstanceAs (Decidable (∀ d ∈ startsNext s.node.actor.loop, s.underWay d = false))
  | .pipe _ (.offered _) | .pipe _ .gattFails | .pipe _ .l2capTakes | .pipe _ .l2capFails
  | .pipe _ .recvOutbound | .pipe _ .evicted | .pipe _ .reportTimeout | .pipe _ .fallBack
  | .pipe _ .recvInbound | .pipe _ .recvL2cap | .pipe _ .recvClosed | .pipe _ .exit
  | .external _ | .pop _ | .sent | .reorder _ => isTrue trivial

theorem init_start (policy : L2capPolicy) (endpoint : EndpointId) :
    system.Init (start policy endpoint) := ⟨policy, endpoint, rfl⟩

/-- A central subscribes, and the pipe that this starts is handed over. -/
def subscribeRun : List TransportLabel :=
  [.external (.peripheralClientSubscribed "peer" 1 none), .pop (ioAt 0), .execute 0, .execute 0,
    .sent, .execute 0, .pop (ioAt 0), .execute 0]

/-- The worker of the pipe finds its link dead. -/
def deathRun : List TransportLabel :=
  subscribeRun ++ [.pipe 0 .gattFails, .pipe 0 .gattReports]

/-- A run in which a worker dies while its session is live. -/
theorem stalled_ends_own_session_deathRun : ∃ h s e, system.Run h s ∧
    h.map Prod.snd = deathRun ∧ s.node.actor.inbox = [⟨.stalled "peer" .linkDead, some 0⟩] ∧
    s.node.actor.reg.peer "peer" = some e ∧ e.phase.isConnected = true ∧
    ∃ p, s.node.pipes[0]? = some p ∧ p.device = "peer" ∧ p.txGen = e.txGen ∧
      ∀ (j : ℕ) (q : DataPipe), 0 < j → s.node.pipes[j]? = some q → q.device ≠ "peer" := by
  rcases System.Run.of_execMeets (C := Undisturbed)
    (P := fun s : Transport => s.node.actor.loop = .recv ∧
      s.node.actor.inbox = [⟨.stalled "peer" .linkDead, some 0⟩] ∧ s.live "peer" = true)
    deathRun (init_start .disabled localEndpoint) (by decide +kernel) with
    ⟨h, s, hrun, hC, hls, hl, hin, hlive⟩
  rcases Option.any_eq_true _ _ |>.mp hlive with ⟨e, he, hc⟩
  exact ⟨h, s, e, hrun, hls, hin, he, hc, stalled_ends_own_session hrun hC hl hin he hc⟩

/-- A connection completes its handshake over a pipe: the steps of the hook, with the order in
which it closes the connections of an evicted pipe. -/
def shakeRun (task token : ℕ) (orders : List (List ConnId)) : List TransportLabel :=
  .hook (.connect { remote := peerEndpoint, paths := [.ble token] }) ::
    orders.map fun order => .hook (.run task 0 order)

/-- The peer authenticates over the first pipe, unsubscribes and subscribes again. The
supervisor of the first pipe is still tearing its worker down when the peer authenticates
over the second one, which evicts the first. -/
def promotionRun : List TransportLabel :=
  subscribeRun ++ shakeRun 0 1 [[], [], [], [], [], []] ++
    [.hook .forward, .hook .forward, .pop (ioAt 0), .execute 0,
      .external (.peripheralClientUnsubscribed "peer" 1), .pop (ioAt 0), .execute 0, .execute 0,
      .execute 0, .pipe 0 .recvClosed] ++
    subscribeRun ++ shakeRun 1 2 [[], [], [], [], [0], [], [], [], [], []] ++
    [.hook .forward, .hook .forward]

/-- The `Stalled` of the evicted pipe, of generation 1, ends the session of generation 2, whose
pipe is the one just promoted. -/
theorem promotion_ends_promoted : ∃ h s, system.Run h s ∧ h.map Prod.snd = promotionRun ∧
    s.node.actor.inbox = [⟨.stalled "peer" .linkDead, some 0⟩] ∧
    s.node.pipes.map DataPipe.txGen = [1, 2] ∧ s.ids = [⟨1⟩, ⟨2⟩] ∧
    s.hook.routing.routablePipeFor peerEndpoint = some ⟨2⟩ ∧
    (s.node.actor.reg.peer "peer").any (fun e => e.phase.isConnected && e.txGen == 2) = true ∧
    (system.step (.pop (ioAt 0)) s).any (fun s' => !s'.live "peer") = true := by
  rcases System.Run.of_exec
    (P := fun s : Transport => s.node.actor.inbox = [⟨.stalled "peer" .linkDead, some 0⟩] ∧
      s.node.pipes.map DataPipe.txGen = [1, 2] ∧ s.ids = [⟨1⟩, ⟨2⟩] ∧
      s.hook.routing.routablePipeFor peerEndpoint = some ⟨2⟩ ∧
      (s.node.actor.reg.peer "peer").any (fun e => e.phase.isConnected && e.txGen == 2) = true ∧
      (system.step (.pop (ioAt 0)) s).any (fun s' => !s'.live "peer") = true)
    promotionRun (init_start .disabled localEndpoint) (by decide +kernel) with
    ⟨h, s, hrun, hl, hP⟩
  exact ⟨h, s, hrun, hl, hP⟩

end IrohBle.Transport
