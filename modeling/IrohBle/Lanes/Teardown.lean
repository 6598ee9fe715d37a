import IrohBle.Lanes.Awaited

/-! # Lanes.Teardown: a teardown lands on the session it was meant for

`disconnect` and `refresh` are addressed by device, so a late one would take down the
session that has come after. A lane runs them only while their lifecycle owns the native
connection, in dispatch order.

* `teardown_lands`: in every run without a `Shutdown`, a cleanup that runs names the
  lifecycle activated last before it; every disconnect the registry orders does, finds its
  lane and is run; and no lane with something to do is dropped.
-/

namespace IrohBle

open Lib Reliable Registry

theorem PeerAction.owned_of_closes {a : PeerAction} {x : DeviceId × ℕ} (h : a.closes = some x) :
    a.owned = some x := by
  cases a <;> first | exact h | cases h

namespace DeviceLane

variable {lane lane' : DeviceLane} {task : LaneTask}

/-- A job that the worker has just started was the next one, and its lifecycle the owner. -/
theorem recv_started (h : lane.recv = some lane') (hrunning : lane'.running = some task) :
    lane.jobs = .work task :: lane'.jobs ∧ lane.nativeOwner = some task.lifecycleId := by
  rcases recv_cases h with ⟨-, -, ⟨l, -, -, hidle, -⟩ | ⟨task', hjobs, -, hrun⟩⟩
  · rw [hidle] at hrunning
    cases hrunning
  · rcases hrun with ⟨howner, -, hstarted, -⟩ | ⟨-, hidle, -⟩
    · rw [hstarted] at hrunning
      obtain rfl := Option.some.inj hrunning
      exact ⟨hjobs, howner⟩
    · rw [hidle] at hrunning
      cases hrunning

/-- Work for the owner that is not cancelled is taken up. -/
theorem recv_of_owner {rest : List LaneJob} (hidle : lane.running = none)
    (hjobs : lane.jobs = .work task :: rest) (howner : lane.nativeOwner = some task.lifecycleId)
    (hnever : task.cancellation = .never) :
    lane.recv = some { lane with jobs := rest, running := some task } := by
  unfold recv
  rw [hidle, hjobs]
  simp [howner, hnever]

/-- A lane with an active lifecycle or a job is kept. -/
theorem busy {lane : DeviceLane} (hcounted : lane.Counted)
    (h : lane.lifecycle ≠ none ∨ lane.jobs ≠ [] ∨ lane.running ≠ none) :
    (lane.lifecycle.isSome || decide (lane.outstanding > 0)) = true := by
  unfold Counted at hcounted
  rcases h with hlife | hjobs | hrunning
  · rw [Option.isSome_iff_ne_none.mpr hlife]
    rfl
  · have hlen := List.length_pos_iff.mpr hjobs
    simp only [hcounted, Bool.or_eq_true, decide_eq_true_eq]
    exact Or.inr (by omega)
  · rcases Option.ne_none_iff_exists'.mp hrunning with ⟨task, htask⟩
    simp only [hcounted, htask, Bool.or_eq_true, decide_eq_true_eq, Option.toList_some,
      List.length_singleton]
    exact Or.inr (by omega)

end DeviceLane

namespace Driven

variable {h : List (Driven × DrivenLabel)} {s s' : Driven} {d : DeviceId} {lane : DeviceLane}

/-- Where a cleanup that is started stands in the dispatch order. -/
theorem Inv.started (hinv : Inv h s) {lane' : DeviceLane} {task : LaneTask}
    (hlane : s.lanes.lookup d = some lane) (hrecv : lane.recv = some lane')
    (hrunning : lane'.running = some task) (hc : task.work.isCleanup = true) :
    ∃ p a q, executed h = p ++ a :: q ∧ a.jobs d = [.work task] ∧
      dispatched d q = lane'.jobs ∧ lastActivated d p = some task.lifecycleId := by
  rcases DeviceLane.recv_started hrecv hrunning with ⟨hjobs, howner⟩
  have htracks := hinv.tracks d
  rw [hlane] at htracks
  rcases htracks.follows lane rfl with ⟨past, hpast, hpastowner⟩
  rw [hjobs] at hpast
  rcases flatMap_split hpast with ⟨p, a, q, u, v, hexecuted, hja, rfl, hrest⟩
  obtain ⟨rfl, rfl, -⟩ := (jobs_split hja).2 hc
  refine ⟨p, a, q, hexecuted, hja, hrest.symm, ?_⟩
  rw [List.append_nil] at hpastowner
  rcases hpastowner with hlast | ⟨hnone, -⟩
  · rw [← lastOwner_dispatched, ← howner, hlast]
    rfl
  · rw [hnone] at howner
    cases howner

/-- In every run without a `Shutdown`. -/
theorem teardown_lands (hrun : system.Run h s) (hC : System.Meets NoShutdown h) :
    -- a cleanup that is started names the lifecycle activated last before it
    (∀ d s' lane' task, system.step (.recv d) s = some s' → s'.lanes.lookup d = some lane' →
      lane'.running = some task → task.work.isCleanup = true →
      ∃ p a q, executed h = p ++ a :: q ∧ a.jobs d = [.work task] ∧
        dispatched d q = lane'.jobs ∧ lastActivated d p = some task.lifecycleId) ∧
    -- and so does every disconnect the registry orders
    (∀ p a q d l, issued h = p ++ a :: q → a.closes = some (d, l) → lastActivated d p = some l) ∧
    -- which finds its lane when it is executed
    (∀ a rest d l, s.todo = a :: rest → a.closes = some (d, l) →
      ∃ lane, s.lanes.lookup d = some lane) ∧
    -- and is run when it has its turn
    (∀ d lane task rest, s.lanes.lookup d = some lane → lane.running = none →
      lane.jobs = .work task :: rest →
      task.work = .closeChannel ∨ task.work = .closeNativeConnection →
      lane.recv = some { lane with jobs := rest, running := some task }) ∧
    -- no lane with an active lifecycle or a job is dropped
    (∀ d l d' lane, s.lanes.lookup d' = some lane →
      lane.lifecycle ≠ none ∨ lane.jobs ≠ [] ∨ lane.running ≠ none →
      ∃ lane', (s.lanes.activate d l).lookup d' = some lane' ∧ lane.Extends lane' ∧
        (d' ≠ d → lane' = lane)) := by
  have hinv := inv_of_run hrun hC
  refine ⟨?_, ?_, ?_, ?_, ?_⟩
  · intro d s' lane' task hs hlane' hrunning hc
    rcases Option.map_eq_some_iff.mp hs with ⟨lane₁, hbind, rfl⟩
    rcases Option.bind_eq_some_iff.mp hbind with ⟨lane, hlane, hrecv⟩
    rw [Map.lookup_insert_ite, if_pos rfl] at hlane'
    obtain rfl := Option.some.inj hlane'
    exact hinv.started hlane hrecv hrunning hc
  · intro p a q d l hsplit ha
    exact (hinv.lands hsplit (PeerAction.owned_of_closes ha)).2
  · intro a rest d l htodo ha
    have hissued : issued h = executed h ++ a :: rest := by
      rw [hinv.order, htodo]
    have hthere := (hinv.tracks d).there (hinv.lands hissued (PeerAction.owned_of_closes ha)).1
    exact Option.isSome_iff_exists.mp hthere
  · intro d lane task rest hlane hidle hjobs hwork
    have hhead : lane.jobs = [] ++ .work task :: rest := hjobs
    rcases hinv.queued hlane hhead with ⟨howner, hnever⟩
    refine DeviceLane.recv_of_owner hidle hjobs (howner ?_) (hnever ?_)
    · rcases hwork with hwork | hwork
      · rw [hwork]
        exact LaneWork.noConfusion
      · rw [hwork]
        exact LaneWork.noConfusion
    · rcases hwork with hwork | hwork
      · rw [hwork]
        rfl
      · rw [hwork]
        rfl
  · intro d l d' lane hlane hbusy
    have hkeep := DeviceLane.busy ((hinv.tracks d').counted lane hlane) hbusy
    by_cases hd : d' = d
    · subst hd
      have hext : lane.Extends { lane with lifecycle := some l } := .refl _
      rw [Lanes.lookup_activate_self, hlane]
      exact ⟨_, rfl, hext.send _, fun hne => absurd rfl hne⟩
    · rw [Lanes.lookup_activate_ne hd, hlane]
      refine ⟨lane, ?_, .refl _, fun _ => rfl⟩
      rw [Option.filter, if_pos hkeep]

/-- A device is dialled, its link stalls, and everything up to the disconnect is executed. -/
def stallRun : List DrivenLabel :=
  [.actor (.produce ⟨.advertised (prefixFromEndpoint localEndpoint) "peer" none, none⟩),
    .actor (.pop (ioAt 0) none none), .actor .execute,
    .actor (.produce ⟨.sendDatagram "peer" none 0 [1] 0, none⟩), .actor (.pop (ioAt 1) none none),
    .actor .execute, .actor .execute, .actor .execute, .recv "peer", .recv "peer",
    .finish "peer" (.connect (.ok ⟨5, .gatt⟩)), .actor (.pop (ioAt 2) none none), .actor .execute,
    .actor .execute, .actor .sent, .actor .execute, .actor (.pop (ioAt 2) none none),
    .actor .execute, .actor (.produce ⟨.stalled "peer" .linkDead, none⟩),
    .actor (.pop (ioAt 3) none none), .actor .execute, .actor .execute]

/-- On a run: a session ends, and the lane that is to close it is there. -/
theorem teardown_lands_stallRun :
    ∃ h s lane rest, system.Run h s ∧ h.map Prod.snd = stallRun ∧
      s.todo = .closeChannel "peer" 2 ⟨5, .gatt⟩ .linkDead :: rest ∧
      s.lanes.lookup "peer" = some lane := by
  obtain ⟨h, s, hrun, hC, hl, hP⟩ := System.Run.of_execMeets (C := NoShutdown)
    (P := fun s : Driven => s.todo = [.closeChannel "peer" 2 ⟨5, .gatt⟩ .linkDead])
    stallRun (init_new .preferL2cap peerEndpoint) (by decide +kernel)
  obtain ⟨lane, hlane⟩ := (teardown_lands hrun hC).2.2.1 _ _ "peer" 2 hP rfl
  exact ⟨h, s, lane, [], hrun, hl, hP, hlane⟩

end Driven

end IrohBle
