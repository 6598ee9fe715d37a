import IrohBle.Lanes.Runs

/-! # Lanes.Awaited: nothing is waited for that nobody is running

An entry that is `Connecting` waits for the outcome of its dial, and one whose phase says
`upgrading` for that of its L2CAP open, without a timeout of the registry's own.

* `awaited_underway`: in every run without a `Shutdown`, such an operation is still to be
  executed, or its job is on the lane and will not be skipped or cancelled, or its outcome
  is in the inbox; and no lifecycle asks for an upgrade twice.
-/

namespace IrohBle

open Lib Reliable Registry

/-- The operation whose outcome a command carries. -/
def PeerCommand.answered : PeerCommand → Option (DeviceId × ℕ × LaneWork)
  | .connectSucceeded d l _ => some (d, l, .connect)
  | .connectFailed d l _ => some (d, l, .connect)
  | .openL2capSucceeded d l u _ => some (d, l, .openL2cap u)
  | .openL2capFailed d l u _ => some (d, l, .openL2cap u)
  | _ => none

/-! ## Operations under way -/

namespace DeviceLane

/-- A job is queued, and will not be skipped as long as its lifecycle is watched: when it has
its turn, that lifecycle owns the native connection. -/
def Queued (lane : DeviceLane) (l : ℕ) (w : LaneWork) : Prop :=
  ∃ queue task rest, lane.jobs = queue ++ .work task :: rest ∧ task.lifecycleId = l ∧
    task.work = w ∧ queue.foldl LaneJob.owner lane.nativeOwner = some l

/-- The worker is at this work. -/
def Running (lane : DeviceLane) (l : ℕ) (w : LaneWork) : Prop :=
  ∃ task, lane.running = some task ∧ task.lifecycleId = l ∧ task.work = w

/-- A job is queued or running. -/
def Has (lane : DeviceLane) (l : ℕ) (w : LaneWork) : Prop :=
  (∃ task, .work task ∈ lane.jobs ∧ task.lifecycleId = l ∧ task.work = w) ∨ lane.Running l w

/-- A lane with work to do is counted as busy. -/
theorem Has.outstanding {lane : DeviceLane} {l : ℕ} {w : LaneWork} (h : lane.Has l w)
    (hcounted : lane.Counted) : lane.outstanding > 0 := by
  unfold Counted at hcounted
  rw [hcounted]
  rcases h with ⟨task, hmem, -⟩ | ⟨task, hrunning, -⟩
  · exact Nat.add_pos_left (List.length_pos_of_mem hmem) _
  · rw [hrunning]
    exact Nat.succ_pos _

/-- The worker has been left alone, and jobs have been added behind the others. -/
def Extends (lane lane' : DeviceLane) : Prop :=
  lane'.running = lane.running ∧ lane.jobs <+: lane'.jobs

theorem Extends.refl (lane : DeviceLane) : lane.Extends lane := ⟨rfl, List.prefix_refl _⟩

theorem Extends.send {lane lane' : DeviceLane} (h : lane.Extends lane') (job : LaneJob) :
    lane.Extends (lane'.send job) :=
  ⟨h.1, h.2.trans (List.prefix_append _ _)⟩

/-- What it had to do it still has to do. -/
theorem Extends.has {lane lane' : DeviceLane} (h : lane.Extends lane') {l : ℕ} {w : LaneWork}
    (hhas : lane.Has l w) : lane'.Has l w := by
  rcases hhas with ⟨task, hmem, htask⟩ | ⟨task, hrunning, htask⟩
  · exact Or.inl ⟨task, h.2.subset hmem, htask⟩
  · exact Or.inr ⟨task, h.1.trans hrunning, htask⟩

end DeviceLane

/-- A lane with a job outstanding is kept by every action. -/
theorem Lanes.execute_extends {lanes : Lanes} {d : DeviceId} {lane : DeviceLane}
    (hlane : lanes.lookup d = some lane) (hout : lane.outstanding > 0) (a : PeerAction) :
    ∃ lane', (lanes.execute a).lookup d = some lane' ∧ lane.Extends lane' := by
  have hsame : ∃ lane', lanes.lookup d = some lane' ∧ lane.Extends lane' := ⟨lane, hlane, .refl _⟩
  -- a job for any device goes behind what its lane has outstanding
  have hdispatch : ∀ {lanes : Lanes}, (∃ lane', lanes.lookup d = some lane' ∧ lane.Extends lane') →
      ∀ (d' : DeviceId) (l : ℕ) (c : Cancellation) (w : LaneWork),
      ∃ lane', (lanes.dispatch d' l c w).lookup d = some lane' ∧ lane.Extends lane' := by
    rintro lanes ⟨lane₁, hlane₁, hext⟩ d' l c w
    rw [Lanes.lookup_dispatch, hlane₁]
    split
    · exact ⟨_, rfl, hext.send _⟩
    · exact ⟨lane₁, rfl, hext⟩
  -- so does the news of a new lifecycle; a lane with something outstanding is not collected
  have hactivate : ∀ (d' : DeviceId) (l : ℕ),
      ∃ lane', (lanes.activate d' l).lookup d = some lane' ∧ lane.Extends lane' := by
    intro d' l
    by_cases hd : d = d'
    · subst hd
      have hext : lane.Extends { lane with lifecycle := some l } := .refl _
      rw [Lanes.lookup_activate_self, hlane]
      exact ⟨_, rfl, hext.send _⟩
    · rw [Lanes.lookup_activate_ne hd, hlane]
      exact ⟨lane, by simp [Option.filter, hout], .refl _⟩
  cases a with
  | startConnect d' attempt l => exact hdispatch (hactivate d' l) d' l _ _
  | readVersion d' l => exact hdispatch hsame d' l _ _
  | retireLifecycle d' l =>
      change ∃ lane', (lanes.retire d' l).lookup d = some lane' ∧ _
      rw [Lanes.lookup_retire, hlane]
      split
      · rw [Option.map_some]
        by_cases hl : lane.lifecycle = some l
        · rw [if_pos hl]
          exact ⟨_, rfl, rfl, List.prefix_refl _⟩
        · rw [if_neg hl]
          exact ⟨lane, rfl, .refl _⟩
      · exact ⟨lane, rfl, .refl _⟩
  | closeChannel d' l channel reason => exact hdispatch hsame d' l _ _
  | closeNativeConnection d' l => exact hdispatch hsame d' l _ _
  | refresh d' l => exact hdispatch hsame d' l _ _
  | startDataPipe d' l g role target path ch => exact hactivate d' l
  | upgradeToL2cap d' l u => exact hdispatch hsame d' l _ _
  | ackSend g waker result => exact hsame
  | restorePeripheral b => exact hsame
  | restartScan => exact hsame
  | swapPipeToL2cap d' channel tx => exact hsame
  | putPeerStore p snapshot => exact hsame
  | forgetPeerStore p => exact hsame
  | emitMetric name => exact hsame

/-- The order of an operation puts its job on the lane, if there is one. -/
theorem Lanes.execute_awaited {lanes : Lanes} {d : DeviceId} {a : PeerAction} {l : ℕ}
    {w : LaneWork} (ha : a.awaited = some (d, l, w))
    (hthere : a.owned = some (d, l) → (lanes.lookup d).isSome = true) :
    ∃ lane, (lanes.execute a).lookup d = some lane ∧ lane.Has l w := by
  cases a with
  | startConnect d' attempt l' =>
      obtain ⟨rfl, rfl, rfl⟩ : d' = d ∧ l' = l ∧ LaneWork.connect = w := by
        simpa [PeerAction.awaited] using ha
      change ∃ lane, ((lanes.activate d' l').dispatch d' l' .whileQueued .connect).lookup d' =
        some lane ∧ _
      rw [Lanes.lookup_dispatch, if_pos rfl, Lanes.lookup_activate_self]
      exact ⟨_, rfl, Or.inl ⟨_, List.mem_append_right _ (List.mem_singleton_self _), rfl, rfl⟩⟩
  | upgradeToL2cap d' l' u =>
      obtain ⟨rfl, rfl, rfl⟩ : d' = d ∧ l' = l ∧ LaneWork.openL2cap u = w := by
        simpa [PeerAction.awaited] using ha
      rcases Option.isSome_iff_exists.mp (hthere rfl) with ⟨lane, hlane⟩
      change ∃ lane, (lanes.dispatch d' l' .immediate (.openL2cap u)).lookup d' = some lane ∧ _
      rw [Lanes.lookup_dispatch, if_pos rfl, hlane]
      exact ⟨_, rfl, Or.inl ⟨_, List.mem_append_right _ (List.mem_singleton_self _), rfl, rfl⟩⟩
  | _ => cases ha

/-- The work of an operation never ends without an answer. -/
theorem LaneTask.report_answered {d : DeviceId} {task : LaneTask} {outcome : Outcome}
    {report : Option PeerCommand} (h : task.report d outcome = some report)
    (hw : task.work = .connect ∨ ∃ u, task.work = .openL2cap u) :
    ∃ cmd, report = some cmd ∧ cmd.answered = some (d, task.lifecycleId, task.work) := by
  unfold LaneTask.report at h
  rcases hw with hw | ⟨u, hw⟩
  · rw [hw] at h ⊢
    cases outcome with
    | connect result =>
        cases result with
        | ok channel => exact ⟨_, (Option.some.inj h).symm, rfl⟩
        | error error => exact ⟨_, (Option.some.inj h).symm, rfl⟩
    | _ => cases h
  · rw [hw] at h ⊢
    cases outcome with
    | openL2cap read opened =>
        dsimp only at h
        split at h
        · exact ⟨_, (Option.some.inj h).symm, rfl⟩
        · exact ⟨_, (Option.some.inj h).symm, rfl⟩
    | l2capElapsed => exact ⟨_, (Option.some.inj h).symm, rfl⟩
    | _ => cases h

/-! ## Answers -/

namespace PeerEntry

/-- An entry waits for its dial, or for the channel of its upgrade. -/
theorem awaits_cases {e : PeerEntry} {l : ℕ} {w : LaneWork} (h : e.awaits = some (l, w)) :
    e.lifecycleId = l ∧ e.phase.isLive = true ∧
      ((w = .connect ∧ e.phase.isConnecting = true) ∨
        (w = .openL2cap e.upgradeGen ∧
          ∃ since channel txGen, e.phase = .connected since channel txGen true)) := by
  unfold awaits at h
  split at h
  · rename_i hp
    obtain ⟨rfl, rfl⟩ := Prod.mk.inj (Option.some.inj h)
    rw [hp]
    exact ⟨rfl, rfl, Or.inl ⟨rfl, rfl⟩⟩
  · rename_i since channel txGen hp
    obtain ⟨rfl, rfl⟩ := Prod.mk.inj (Option.some.inj h)
    rw [hp]
    exact ⟨rfl, rfl, Or.inr ⟨rfl, since, channel, txGen, rfl⟩⟩
  · cases h

/-- One that waits for a dial is `Connecting`. -/
theorem awaits_connect {e : PeerEntry} {l : ℕ} (h : e.awaits = some (l, .connect)) :
    e.lifecycleId = l ∧ e.phase.isConnecting = true := by
  rcases awaits_cases h with ⟨hl, -, ⟨-, hp⟩ | ⟨hw, -⟩⟩
  · exact ⟨hl, hp⟩
  · cases hw

/-- One that waits for a channel is upgrading, with the upgrade that it counts. -/
theorem awaits_openL2cap {e : PeerEntry} {l u : ℕ} (h : e.awaits = some (l, .openL2cap u)) :
    e.lifecycleId = l ∧ e.upgradeGen = u ∧
      ∃ since channel txGen, e.phase = .connected since channel txGen true := by
  rcases awaits_cases h with ⟨hl, -, ⟨hw, -⟩ | ⟨hw, hp⟩⟩
  · cases hw
  · exact ⟨hl, (LaneWork.openL2cap.inj hw).symm, hp⟩

/-- Nothing waits for a refresh. -/
theorem awaits_ne_refresh {e : PeerEntry} {l : ℕ} {w : LaneWork} (h : e.awaits = some (l, w)) :
    w ≠ .refresh := by
  rintro rfl
  rcases awaits_cases h with ⟨-, -, ⟨hw, -⟩ | ⟨hw, -⟩⟩
  · cases hw
  · cases hw

end PeerEntry

namespace Edit

variable (w : Edit) (now l u : ℕ)

/-- The success of a dial ends the wait for it. -/
theorem connectSucceeded_answers (channel : ChannelHandle) (upgrade : PeerEntry → Bool) :
    (w.connectSucceeded now l channel upgrade).entry.awaits ≠ some (l, .connect) := by
  intro h
  rcases PeerEntry.awaits_connect h with ⟨hl, hp⟩
  unfold connectSucceeded at hl hp
  split at hl
  · rename_i hguard
    rw [if_pos hguard] at hp
    rcases hguard with hguard | hguard
    · exact hguard hl
    · exact hguard hp
  · rename_i hguard
    rw [if_neg hguard] at hp
    dsimp only at hp
    split at hp
    · simp [requestUpgrade, setUpgrading, PeerPhase.isConnecting] at hp
    · simp [PeerPhase.isConnecting] at hp

/-- A dial that failed answers its job. -/
theorem connectFailed_answers (error : String) :
    (w.connectFailed now l error).entry.awaits ≠ some (l, .connect) := by
  intro h
  rcases PeerEntry.awaits_connect h with ⟨hl, hp⟩
  unfold connectFailed at hl hp
  split at hl
  · rename_i hguard
    exact hguard hl
  · rename_i hguard
    rw [if_neg hguard] at hp
    split at hp
    · rw [dialFailed_entry] at hp
      split at hp <;> cases hp
    · rename_i hphase
      cases hw : w.entry.phase with
      | connecting attempt started path => exact hphase attempt started path hw
      | _ =>
          rw [hw] at hp
          cases hp

/-- The channel ends the wait for it. -/
theorem openL2capSucceeded_answers (channel : L2capChannel)
    (hshake : w.entry.phase.isHandshaking = false) :
    (w.openL2capSucceeded now l u channel).entry.awaits ≠ some (l, .openL2cap u) := by
  intro h
  rcases PeerEntry.awaits_openL2cap h with ⟨hl, hu, since, ch, txGen, hp⟩
  unfold openL2capSucceeded at hl hu hp
  split at hl
  · rename_i hguard
    rw [if_pos hguard] at hu
    rcases hguard with hguard | hguard
    · exact hguard hl
    · exact hguard hu
  · rename_i hguard
    rw [if_neg hguard] at hp
    split at hp
    · rename_i hphase
      rw [hphase] at hshake
      cases hshake
    · rename_i hphase
      split at hp
      · simp [setPath, hphase] at hp
      · simp [setUpgrading, hphase] at hp
    · rename_i hno
      exact hno since ch txGen hp

/-- A channel that could not be opened answers its job. -/
theorem openL2capFailed_answers (error : String) (hshake : w.entry.phase.isHandshaking = false) :
    (w.openL2capFailed now l u error).entry.awaits ≠ some (l, .openL2cap u) := by
  intro h
  rcases PeerEntry.awaits_openL2cap h with ⟨hl, hu, since, ch, txGen, hp⟩
  unfold openL2capFailed at hl hu hp
  split at hl
  · rename_i hguard
    rw [if_pos hguard] at hu
    rcases hguard with hguard | hguard
    · exact hguard hl
    · exact hguard hu
  · rename_i hguard
    rw [if_neg hguard] at hp
    split at hp
    · rename_i hphase
      rw [hphase] at hshake
      cases hshake
    · rename_i hphase
      simp [setUpgrading, hphase] at hp
    · rename_i hno
      exact hno since ch txGen hp

end Edit

/-- Once an operation is answered it is not waited for. -/
theorem runCommand_answered {r : Registry} {io : Io} {exact replaced : Option DeviceId}
    {cmd : PeerCommand} {d : DeviceId} {l : ℕ} {w : LaneWork} {e' : PeerEntry} (hset : r.Settled)
    (hcmd : cmd.answered = some (d, l, w))
    (he' : (r.runCommand io exact replaced cmd).reg.peer d = some e') :
    e'.awaits ≠ some (l, w) := by
  -- an answer is one function run on the entry of its device
  have hedit : ∀ {f : Edit → Edit}, ((Turn.start r).edit d f).reg.peer d = some e' →
      (∀ x : Edit, x.entry.phase.isHandshaking = false → (f x).entry.awaits ≠ some (l, w)) →
      e'.awaits ≠ some (l, w) := by
    intro f he' hf
    cases he : r.peer d with
    | none =>
        rw [Turn.edit_of_none (t := Turn.start r) he] at he'
        rw [show (Turn.start r).reg.peer d = r.peer d from rfl, he] at he'
        cases he'
    | some e =>
        rw [Turn.edit_of_some (t := Turn.start r) he, Turn.peer_store (t := Turn.start r) he,
          if_pos rfl] at he'
        obtain rfl := Option.some.inj he'
        exact hf _ (hset d e he).shaking
  cases cmd with
  | connectSucceeded d' l' channel =>
      obtain ⟨rfl, rfl, rfl⟩ : d' = d ∧ l' = l ∧ LaneWork.connect = w := by
        simpa [PeerCommand.answered] using hcmd
      exact hedit he' fun x _ => x.connectSucceeded_answers _ _ _ _
  | connectFailed d' l' error =>
      obtain ⟨rfl, rfl, rfl⟩ : d' = d ∧ l' = l ∧ LaneWork.connect = w := by
        simpa [PeerCommand.answered] using hcmd
      refine hedit (f := Edit.connectFailed io.now l' error) ?_ fun x _ =>
        x.connectFailed_answers _ _ _
      rw [← he']
      exact (peer_pruneIfGivenUp _ _ _ _).symm
  | openL2capSucceeded d' l' u channel =>
      obtain ⟨rfl, rfl, rfl⟩ : d' = d ∧ l' = l ∧ LaneWork.openL2cap u = w := by
        simpa [PeerCommand.answered] using hcmd
      exact hedit he' fun x hx => x.openL2capSucceeded_answers _ _ _ _ hx
  | openL2capFailed d' l' u error =>
      obtain ⟨rfl, rfl, rfl⟩ : d' = d ∧ l' = l ∧ LaneWork.openL2cap u = w := by
        simpa [PeerCommand.answered] using hcmd
      exact hedit he' fun x hx => x.openL2capFailed_answers _ _ _ _ hx
  | _ => cases hcmd

namespace Driven

variable {h : List (Driven × DrivenLabel)} {s s' : Driven} {l : DrivenLabel} {d : DeviceId}
  {e : PeerEntry} {i : ℕ} {w : LaneWork}

/-! ## Along a run -/

/-- The operation is still to be executed, or on the lane and not to be skipped or
cancelled, or its outcome is in the inbox. -/
def Underway (s : Driven) (d : DeviceId) (i : ℕ) (w : LaneWork) : Prop :=
  (∃ a ∈ s.todo, a.awaited = some (d, i, w)) ∨
    (∃ lane, s.lanes.lookup d = some lane ∧ (lane.Queued i w ∨ lane.Running i w) ∧
      lane.lifecycle = some i ∧ Untouched d s.todo) ∨
    ∃ letter ∈ s.actor.inbox, letter.cmd.answered = some (d, i, w)

/-- The same, without what will become of the job. -/
def Pending (s : Driven) (d : DeviceId) (i : ℕ) (w : LaneWork) : Prop :=
  (∃ a ∈ s.todo, a.awaited = some (d, i, w)) ∨
    (∃ lane, s.lanes.lookup d = some lane ∧ lane.Has i w) ∨
    ∃ letter ∈ s.actor.inbox, letter.cmd.answered = some (d, i, w)

/-- An operation that is waited for and has been ordered: its lifecycle is watched, and
nothing that is still to be executed changes that. -/
theorem Inv.watched (hinv : Inv h s) (he : s.actor.reg.peer d = some e)
    (hw : e.awaits = some (i, w)) (hno : ∀ a ∈ s.todo, a.awaited ≠ some (d, i, w)) :
    Untouched d s.todo ∧ ∃ lane, s.lanes.lookup d = some lane ∧ lane.lifecycle = some i := by
  have hfits := hinv.fits d
  rw [he] at hfits
  rcases hfits.awaits i w hw with ⟨p, a, q, hsplit, ha, hquiet⟩ | ⟨hnone, -⟩
  · have htodo : Untouched d s.todo := by
      rw [hinv.order, List.append_eq_append_iff] at hsplit
      rcases hsplit with ⟨p', -, htodo⟩ | ⟨q', -, hq⟩
      · exact absurd ha (hno a (by rw [htodo]; simp))
      · cases q' with
        | nil =>
            rw [List.nil_append] at hq
            exact absurd ha (hno a (by rw [← hq]; simp))
        | cons b q' =>
            rw [List.cons_append, List.cons.injEq] at hq
            rw [hq.2] at hquiet
            exact (untouched_append.mp hquiet).2
    refine ⟨htodo, ?_⟩
    rcases PeerEntry.awaits_cases hw with ⟨hl, hlive, -⟩
    have hview : (viewOf d (issued h)).active? = some i := by
      rw [viewOf, hfits.active .gone rfl, Option.bind_some, PeerEntry.activeId_of_live hlive, hl]
    rw [hinv.order, viewOf, List.foldl_append, foldl_see_of_untouched htodo] at hview
    have hwatch := (hinv.tracks d).watch
    rw [viewOf, hview] at hwatch
    exact Option.bind_eq_some_iff.mp hwatch
  · cases hnone

/-- What is ordered, queued or answered for a lifecycle in force is under way. -/
theorem underway_of_pending (hinv : Inv h s) (he : s.actor.reg.peer d = some e)
    (hw : e.awaits = some (i, w)) (hp : s.Pending d i w) : s.Underway d i w := by
  by_cases hno : ∀ a ∈ s.todo, a.awaited ≠ some (d, i, w)
  · rcases hp with ⟨a, ha, haw⟩ | ⟨lane, hlane, hhas⟩ | hinbox
    · exact absurd haw (hno a ha)
    · rcases hinv.watched he hw hno with ⟨htodo, lane', hlane', hlife⟩
      obtain rfl : lane = lane' := Option.some.inj (hlane.symm.trans hlane')
      refine Or.inr (Or.inl ⟨lane, hlane, ?_, hlife, htodo⟩)
      rcases hhas with ⟨task, hmem, hl, hwork⟩ | hrunning
      · rcases List.append_of_mem hmem with ⟨queue, rest, hjobs⟩
        refine Or.inl ⟨queue, task, rest, hjobs, hl, hwork, ?_⟩
        rw [(hinv.queued hlane hjobs).1 (hwork ▸ PeerEntry.awaits_ne_refresh hw), hl]
      · exact Or.inr hrunning
    · exact Or.inr (Or.inr hinbox)
  · push Not at hno
    exact Or.inl hno

/-- What every entry waits for is pending. -/
def AllPending (s : Driven) : Prop :=
  ∀ d e i w, s.actor.reg.peer d = some e → e.awaits = some (i, w) → s.Pending d i w

/-- A lane changes and keeps the job; the rest is the same. -/
theorem Pending.of_lane {lane lane' : DeviceLane} {d' : DeviceId} (h : s.Pending d i w)
    (hlane : s.lanes.lookup d' = some lane) (hkeep : d = d' → lane.Has i w → lane'.Has i w)
    (htodo : s'.todo = s.todo) (hinbox : ∃ more, s'.actor.inbox = s.actor.inbox ++ more)
    (hlanes : s'.lanes = s.lanes.insert d' lane') : s'.Pending d i w := by
  rcases h with hordered | ⟨lane₁, hlane₁, hhas⟩ | ⟨letter, hletter, hanswered⟩
  · exact Or.inl (htodo ▸ hordered)
  · refine Or.inr (Or.inl ?_)
    rw [hlanes, Map.lookup_insert_ite]
    by_cases hd : d = d'
    · subst hd
      obtain rfl : lane = lane₁ := Option.some.inj (hlane.symm.trans hlane₁)
      rw [if_pos rfl]
      exact ⟨lane', rfl, hkeep rfl hhas⟩
    · rw [if_neg hd]
      exact ⟨lane₁, hlane₁, hhas⟩
  · rcases hinbox with ⟨more, hmore⟩
    exact Or.inr (Or.inr ⟨letter, by rw [hmore]; exact List.mem_append_left _ hletter, hanswered⟩)

/-- The worker takes a job: one that is waited for is started when it has its turn. -/
theorem pending_recv (hinv : Inv h s) (he : s.actor.reg.peer d = some e)
    (hw : e.awaits = some (i, w)) {lane lane' : DeviceLane}
    (hlane : s.lanes.lookup d = some lane) (hrecv : lane.recv = some lane')
    (hno : ∀ a ∈ s.todo, a.awaited ≠ some (d, i, w)) (hhas : lane.Has i w) : lane'.Has i w := by
  rcases DeviceLane.recv_cases hrecv with ⟨hidle, -, ⟨l, hjobs, -⟩ | ⟨head, hjobs, -, hrun⟩⟩
  · rcases hhas with ⟨task, hmem, htask⟩ | ⟨task, hrunning, -⟩
    · rw [hjobs] at hmem
      rcases List.mem_cons.mp hmem with heq | hmem
      · cases heq
      · exact Or.inl ⟨task, hmem, htask⟩
    · rw [hidle] at hrunning
      cases hrunning
  · rcases hhas with ⟨task, hmem, hl, hwork⟩ | ⟨task, hrunning, -⟩
    · rw [hjobs] at hmem
      rcases List.mem_cons.mp hmem with heq | hmem
      · obtain rfl := LaneJob.work.inj heq
        -- its lifecycle is watched, and owns the native connection
        rcases hinv.watched he hw hno with ⟨-, lane₁, hlane₁, hlife⟩
        obtain rfl : lane = lane₁ := Option.some.inj (hlane.symm.trans hlane₁)
        have hhead : lane.jobs = [] ++ .work task :: lane'.jobs := hjobs
        have howner : lane.nativeOwner = some task.lifecycleId :=
          (hinv.queued hlane hhead).1 (hwork ▸ PeerEntry.awaits_ne_refresh hw)
        rcases hrun with ⟨-, -, hrunning, -⟩ | ⟨hskip | ⟨-, hskip⟩, -⟩
        · exact Or.inr ⟨task, hrunning, hl, hwork⟩
        · exact absurd howner hskip
        · rw [hl] at hskip
          exact absurd hlife hskip
      · exact Or.inl ⟨task, hmem, hl, hwork⟩
    · rw [hidle] at hrunning
      cases hrunning

theorem AllPending.step (hall : s.AllPending) (hinv : Inv h s) (hC : NoShutdown s l)
    (hs : system.step l s = some s') : s'.AllPending := by
  intro d e i w he hw
  cases change_of_step hs with
  | quiet hemits hexecutes hpeer hnext hinbox htodo hlanes =>
      rcases hall d e i w ((hpeer d).symm.trans he) hw with hp | hp | ⟨letter, hletter, hp⟩
      · exact Or.inl (htodo ▸ hp)
      · exact Or.inr (Or.inl (hlanes ▸ hp))
      · rcases hinbox with ⟨more, hmore⟩
        exact Or.inr (Or.inr ⟨letter, by rw [hmore]; exact List.mem_append_left _ hletter, hp⟩)
  -- what the handler starts waiting for it orders itself; what was waited for before stays as it
  -- is, unless this letter answers it
  | @handle io exact replaced letter _ hinbox hbefore hreg htodo hlanes =>
      have hcmd : letter.cmd ≠ .shutdown := by
        have hhead : letter ∈ s.actor.inbox.head? := by
          rw [hinbox]
          rfl
        exact hC letter hhead
      have hfits : Fits d (s.actor.reg.peer d) (some e)
          (s.actor.reg.runCommand io exact replaced letter.cmd).actions := by
        rw [← he, hreg]
        exact runCommand_fits hcmd hinv.settled hinv.keyed d
      rcases hfits.awaits i w hw with ⟨p, a, q, hsplit, ha, -⟩ | ⟨hold, -⟩
      · refine Or.inl ⟨a, ?_, ha⟩
        rw [htodo, hsplit]
        simp
      · rcases Option.bind_eq_some_iff.mp hold with ⟨e₀, he₀, hw₀⟩
        rcases hall d e₀ i w he₀ hw₀ with ⟨a, ha, -⟩ | hp | ⟨letter', hletter', hp⟩
        · rw [hbefore] at ha
          cases ha
        · exact Or.inr (Or.inl (hlanes ▸ hp))
        · rw [hinbox] at hletter'
          rcases List.mem_cons.mp hletter' with rfl | hletter'
          · -- the answer is this one, and ends the wait
            rw [hreg] at he
            exact absurd hw (runCommand_answered hinv.settled hp he)
          · exact Or.inr (Or.inr ⟨letter', hletter', hp⟩)
  -- an action leaves the list when it is executed, and its work enters the lane
  | execute hreg hinbox htodo hlanes =>
      rw [hreg] at he
      cases htodo' : s.todo with
      | nil =>
          have hsame : s.afterActor .execute = s.lanes := by
            simp [afterActor, htodo']
          rcases hall d e i w he hw with ⟨a, ha, -⟩ | hp | hp
          · rw [htodo'] at ha
            cases ha
          · exact Or.inr (Or.inl (by rw [hlanes, hsame]; exact hp))
          · exact Or.inr (Or.inr (hinbox ▸ hp))
      | cons a rest =>
          have hafter : s'.lanes = s.lanes.execute a := by
            rw [hlanes]
            simp [afterActor, htodo']
          have hrest : s'.todo = rest := by
            rw [htodo, htodo']
            rfl
          rcases hall d e i w he hw with ⟨b, hb, hbw⟩ | ⟨lane, hlane, hhas⟩ | hp
          · rw [htodo'] at hb
            rcases List.mem_cons.mp hb with rfl | hb
            · refine Or.inr (Or.inl ?_)
              rw [hafter]
              refine Lanes.execute_awaited hbw ?_
              intro howned
              have hissued : issued h = executed h ++ b :: rest := by
                rw [hinv.order, htodo']
              exact (hinv.tracks d).there (hinv.lands hissued howned).1
            · exact Or.inl ⟨b, hrest ▸ hb, hbw⟩
          · have hcounted : lane.Counted := (hinv.tracks d).counted lane hlane
            rcases Lanes.execute_extends hlane (hhas.outstanding hcounted) a with
              ⟨lane', hlane', hext⟩
            exact Or.inr (Or.inl ⟨lane', by rw [hafter]; exact hlane', hext.has hhas⟩)
          · exact Or.inr (Or.inr (hinbox ▸ hp))
  | @recv d' lane lane' _ hlane hrecv hs' =>
      subst hs'
      by_cases hno : ∀ a ∈ s.todo, a.awaited ≠ some (d, i, w)
      · refine (hall d e i w he hw).of_lane hlane ?_ rfl ⟨[], (List.append_nil _).symm⟩ rfl
        rintro rfl hhas
        exact pending_recv hinv he hw hlane hrecv hno hhas
      · push Not at hno
        exact Or.inl hno
  | @finish d' outcome lane lane' task report _ hlane hended hreport hreg hinbox htodo hlanes =>
      rw [hreg] at he
      by_cases hours : d = d' ∧ task.lifecycleId = i ∧ task.work = w
      · -- the outcome is reported
        obtain ⟨rfl, rfl, rfl⟩ := hours
        have hwork : task.work = .connect ∨ ∃ u, task.work = .openL2cap u := by
          rcases PeerEntry.awaits_cases hw with ⟨-, -, ⟨hw', -⟩ | ⟨hw', -⟩⟩
          · exact Or.inl hw'
          · exact Or.inr ⟨_, hw'⟩
        rcases LaneTask.report_answered hreport hwork with ⟨cmd, rfl, hanswered⟩
        exact Or.inr (Or.inr ⟨⟨cmd, none⟩, by rw [hinbox]; simp, hanswered⟩)
      · refine (hall d e i w he hw).of_lane hlane ?_ htodo ⟨_, hinbox⟩ hlanes
        rintro rfl hhas
        rw [hended.after]
        rcases hhas with hqueued | ⟨task', hrunning, htask⟩
        · exact Or.inl hqueued
        · rw [hended.running] at hrunning
          obtain rfl := Option.some.inj hrunning
          exact absurd ⟨rfl, htask⟩ hours
  | @cancel d' lane lane' task _ hlane hended himm hretired hs' =>
      subst hs'
      by_cases hno : ∀ a ∈ s.todo, a.awaited ≠ some (d, i, w)
      · refine (hall d e i w he hw).of_lane hlane ?_ rfl ⟨[], (List.append_nil _).symm⟩ rfl
        rintro rfl hhas
        rw [hended.after]
        rcases hhas with hqueued | ⟨task', hrunning, hl, -⟩
        · exact Or.inl hqueued
        · -- the lifecycle of an operation that is waited for is not retired
          rw [hended.running] at hrunning
          obtain rfl := Option.some.inj hrunning
          rcases hinv.watched he hw hno with ⟨-, lane₁, hlane₁, hlife⟩
          obtain rfl : lane = lane₁ := Option.some.inj (hlane.symm.trans hlane₁)
          rw [hl] at hretired
          exact absurd hlife hretired
      · push Not at hno
        exact Or.inl hno

/-- In every run without a `Shutdown` everything waited for is ordered, queued or answered. -/
theorem allPending_of_run (hrun : system.Run h s) (hC : System.Meets NoShutdown h) :
    s.AllPending := by
  induction hrun with
  | init hinit =>
      rcases hinit with ⟨policy, endpoint, rfl⟩
      intro d e i w he
      cases he
  | step hprev hs ih =>
      rw [System.meets_append, System.meets_singleton] at hC
      exact (ih hC.1).step (inv_of_run hprev hC.1) hC.2 hs

/-- In every run without a `Shutdown`: a dial that is waited for is under way, and so is an
upgrade; and no lifecycle asks for an upgrade twice. -/
theorem awaited_underway (hrun : system.Run h s) (hC : System.Meets NoShutdown h) :
    (∀ d e, s.actor.reg.peer d = some e → e.phase.isConnecting = true →
      s.Underway d e.lifecycleId .connect) ∧
    (∀ d e since channel txGen, s.actor.reg.peer d = some e →
      e.phase = .connected since channel txGen true →
      s.Underway d e.lifecycleId (.openL2cap e.upgradeGen)) ∧
    ((upgradeIds (issued h)).map Prod.fst).Nodup := by
  have hinv := inv_of_run hrun hC
  have hunderway : ∀ d e i w, s.actor.reg.peer d = some e → e.awaits = some (i, w) →
      s.Underway d i w := by
    intro d e i w he hw
    exact underway_of_pending hinv he hw (allPending_of_run hrun hC d e i w he hw)
  refine ⟨?_, ?_, ?_⟩
  · intro d e he hp
    refine hunderway d e _ _ he ?_
    cases hphase : e.phase with
    | connecting attempt started path => rw [PeerEntry.awaits, hphase]
    | _ =>
        rw [hphase] at hp
        cases hp
  · intro d e since channel txGen he hp
    refine hunderway d e _ _ he ?_
    rw [PeerEntry.awaits, hp]
  · -- upgrades are numbered in their lifecycle, and the number is always 1
    refine List.Nodup.map_on ?_ hinv.ledger.upgrades_nodup
    have hone : ∀ x ∈ upgradeIds (issued h), x.2 = 1 := by
      intro x hx
      rcases List.mem_filterMap.mp hx with ⟨a, ha, hax⟩
      cases a with
      | upgradeToL2cap d l u =>
          obtain rfl := Option.some.inj hax
          exact ((hinv.fits d).once fun x hx => absurd hx (Option.not_mem_none x)).2 l u ha
      | _ => cases hax
    intro x hx y hy heq
    exact Prod.ext heq ((hone x hx).trans (hone y hy).symm)

instance (s : Driven) (l : DrivenLabel) : Decidable (NoShutdown s l) :=
  match l with
  | .actor (.pop ..) => inferInstanceAs (Decidable (∀ letter ∈ s.actor.inbox.head?, _))
  | .actor (.produce _) | .actor .execute | .actor .sent | .actor (.reorder _) | .recv _
  | .finish .. | .cancel _ => isTrue trivial

/-- A device is dialled and verified, and its upgrade is started. -/
def upgradeRun : List DrivenLabel :=
  [.actor (.produce ⟨.advertised (prefixFromEndpoint localEndpoint) "peer" none, none⟩),
    .actor (.pop (ioAt 0) none none), .actor .execute,
    .actor (.produce ⟨.sendDatagram "peer" none 0 [1] 0, none⟩), .actor (.pop (ioAt 1) none none),
    .actor .execute, .actor .execute, .actor .execute, .recv "peer", .recv "peer",
    .finish "peer" (.connect (.ok ⟨5, .gatt⟩)), .actor (.pop (ioAt 2) none none), .actor .execute,
    .actor .execute, .actor .sent, .actor .execute, .actor (.pop (ioAt 2) none none),
    .actor .execute, .actor (.produce ⟨.verifiedEndpoint localEndpoint none, none⟩),
    .actor (.pop (ioAt 3) none none), .actor .execute, .recv "peer",
    .finish "peer" (.readVersion (some (.ok (some 1)))), .recv "peer", .recv "peer"]

theorem init_new (policy : L2capPolicy) (endpoint : EndpointId) :
    system.Init ⟨.new policy endpoint, ∅⟩ := ⟨policy, endpoint, rfl⟩

/-- On a run: a session upgrades, and its channel is being opened. -/
theorem awaited_underway_upgradeRun :
    ∃ h s e since channel txGen, system.Run h s ∧ h.map Prod.snd = upgradeRun ∧
      s.actor.reg.peer "peer" = some e ∧ e.phase = .connected since channel txGen true ∧
      s.Underway "peer" e.lifecycleId (.openL2cap e.upgradeGen) := by
  obtain ⟨h, s, hrun, hC, hl, hP⟩ := System.Run.of_execMeets (C := NoShutdown)
    (P := fun s : Driven => (s.actor.reg.peer "peer").bind PeerEntry.awaits =
      some (2, .openL2cap 1))
    upgradeRun (init_new .preferL2cap peerEndpoint) (by decide +kernel)
  obtain ⟨e, he, hw⟩ := Option.bind_eq_some_iff.mp hP
  obtain ⟨-, -, since, channel, txGen, hp⟩ := PeerEntry.awaits_openL2cap hw
  exact ⟨h, s, e, since, channel, txGen, hrun, hl, he, hp,
    (awaited_underway hrun hC).2.1 "peer" e since channel txGen he hp⟩

end Driven

end IrohBle
