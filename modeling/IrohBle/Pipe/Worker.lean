import IrohBle.Pipe.L2cap
import IrohBle.Pipe.Supervisor

/-! # Pipe.Worker: the L2CAP worker as its supervisor sees it

To the supervisor an L2CAP worker is a task that runs, has failed or has ended, and a number of
datagrams in its forwarding channel. The worker of `Pipe.L2cap`, with its two I/O tasks, is such
a one.

* `simulates`: what the worker and its tasks do is a step of the supervisor's pipe, or does not
  show.
* `fails_after_end`: the worker fails only after one of its tasks has ended. A reader that comes to
  the end of the file, to an I/O error or to a frame that is too long ends, and so does a writer
  that gets an error; a worker that is told to stop does not fail.
-/

namespace IrohBle.L2cap.Pipe

open Lib Reliable

/-- A worker that stops because of its I/O is about to report it. -/
def view (p : Pipe) : IrohBle.Worker :=
  match p.worker with
  | .stopped true => .failing
  | _ => .running

/-- `q` has `p` for its L2CAP worker. -/
structure Shows (p : Pipe) (q : DataPipe) : Prop where
  worker : q.l2capWorker = some p.view
  forwarded : q.forwarded = p.outbound.length

/-- The step of the pipe that a step of the worker or its tasks is. -/
def shown (p : Pipe) : Label → Option PipeLabel
  | .takeOutbound => if p.outbound = [] then none else some .l2capTakes
  | .takeDone => some .l2capFails
  | .forwarded => if p.sendTask = .exited then some .l2capFails else none
  | _ => none

variable {p p' : Pipe} {q : DataPipe} {l : Label} {held : Bool}

theorem Shows.keep (h : Shows p q) (hview : p'.view = p.view) (hout : p'.outbound = p.outbound) :
    Shows p' q where
  worker := by rw [hview]; exact h.worker
  forwarded := by rw [hout]; exact h.forwarded

theorem view_of_worker (h : p'.worker = p.worker) : p'.view = p.view := by
  unfold view
  rw [h]

theorem view_endSend (p : Pipe) : p.endSend.view = p.view := by
  unfold view endSend
  cases hw : p.worker <;> rfl

theorem view_endRecv (p : Pipe) : p.endRecv.view = p.view := by
  unfold view endRecv
  cases hw : p.worker <;> rfl

/-- The worker fails. -/
theorem Shows.fails (h : Shows p q) (p' : Pipe) (hview : p.view = .running) (hfail : p'.view = .failing)
    (hout : p'.outbound = p.outbound) :
    ∃ q', q.step held .l2capFails = some (q', none) ∧ Shows p' q' := by
  have hrunning : q.l2capWorker = some .running := by
    rw [h.worker, hview]
  refine ⟨q.setL2capWorker .failing, ?_, ?_, ?_⟩
  · simp only [DataPipe.step, hrunning, if_pos]
  · rw [hfail]
    unfold DataPipe.setL2capWorker DataPipe.l2capWorker
    cases hsup : q.supervisor <;> rfl
  · rw [hout, ← h.forwarded]
    unfold DataPipe.setL2capWorker
    cases hsup : q.supervisor <;> rfl

/-- The worker takes a datagram. -/
theorem Shows.takes (h : Shows p q) (p' : Pipe) (hview : p.view = .running)
    (hview' : p'.view = .running) {d : Bytes} (hout : p.outbound = d :: p'.outbound) :
    ∃ q', q.step held .l2capTakes = some (q', none) ∧ Shows p' q' := by
  have hrunning : q.l2capWorker = some .running := by
    rw [h.worker, hview]
  have hforwarded : q.forwarded = p'.outbound.length + 1 := by
    rw [h.forwarded, hout, List.length_cons]
  refine ⟨{ q with forwarded := q.forwarded - 1 }, ?_, ?_, ?_⟩
  · have hpos : 0 < q.forwarded := by omega
    simp only [DataPipe.step, hrunning, hpos, and_self, if_pos]
  · rw [hview']
    exact hrunning
  · change q.forwarded - 1 = _
    omega

/-- What the worker and its tasks do is a step of the pipe, or does not show. -/
theorem simulates (hR : Shows p q) (hs : system.step l p = some p') (hl : ∀ d, l ≠ .enqueue d) :
    (shown p l = none ∧ Shows p' q) ∨
      ∃ pl q', shown p l = some pl ∧ q.step held pl = some (q', none) ∧ Shows p' q' := by
  cases l with
  | enqueue d => exact absurd rfl (hl d)
  -- the sender's end is seen only when the worker takes it off the channel
  | close =>
      obtain rfl := Option.some.inj hs
      exact Or.inl ⟨rfl, hR.keep rfl rfl⟩
  | enterSelect =>
      change (if p.worker = .top then _ else none) = _ at hs
      split at hs
      · rename_i hw
        obtain rfl := Option.some.inj hs
        refine Or.inl ⟨rfl, hR.keep ?_ rfl⟩
        simp only [view, hw]
      · cases hs
  | takeOutbound =>
      simp only [system, step] at hs
      split at hs
      · rename_i sendEnd recvEnd hw
        have hview : p.view = .running := by
          simp only [view, hw]
        unfold Pipe.takeOutbound at hs
        split at hs
        · -- the supervisor has dropped its end
          rename_i hout
          split at hs
          · obtain rfl := Option.some.inj hs
            refine Or.inl ⟨?_, hR.keep ?_ rfl⟩
            · simp only [shown, hout, if_true]
            · rw [hview]
              rfl
          · cases hs
        · rename_i d rest hout
          have hshown : shown p .takeOutbound = some .l2capTakes := by
            simp only [shown, hout, reduceCtorEq, if_false]
          refine Or.inr ⟨.l2capTakes, ?_⟩
          split at hs
          · obtain rfl := Option.some.inj hs
            rcases hR.takes { p with
                outbound := rest, emptyFramesCounter := p.emptyFramesCounter + 1, worker := .top }
              hview rfl hout with ⟨q', hq, hR'⟩
            exact ⟨q', hshown, hq, hR'⟩
          · obtain rfl := Option.some.inj hs
            rcases hR.takes { p with outbound := rest, worker := .forward d }
              hview rfl hout with ⟨q', hq, hR'⟩
            exact ⟨q', hshown, hq, hR'⟩
      · cases hs
  | takeDone =>
      simp only [system, step] at hs
      split at hs
      · rename_i sendEnd recvEnd hw
        split at hs
        · obtain rfl := Option.some.inj hs
          have hview : p.view = .running := by
            simp only [view, hw]
          rcases hR.fails (p.stop true) hview rfl rfl with ⟨q', hq, hR'⟩
          exact Or.inr ⟨.l2capFails, q', rfl, hq, hR'⟩
        · cases hs
      · cases hs
  | forwarded =>
      simp only [system, step] at hs
      split at hs
      · rename_i d hw
        have hview : p.view = .running := by
          simp only [view, hw]
        unfold Pipe.forward at hs
        split at hs
        · rename_i hexit
          obtain rfl := Option.some.inj hs
          rcases hR.fails (p.stop true) hview rfl rfl with ⟨q', hq, hR'⟩
          exact Or.inr ⟨.l2capFails, q', if_pos hexit, hq, hR'⟩
        · rename_i hexit
          split at hs
          · obtain rfl := Option.some.inj hs
            refine Or.inl ⟨if_neg hexit, hR.keep ?_ rfl⟩
            rw [hview]
            rfl
          · cases hs
      · cases hs
  | takeWrite =>
      simp only [system, step] at hs
      split at hs
      · obtain rfl := Option.some.inj hs
        exact Or.inl ⟨rfl, hR.keep rfl rfl⟩
      · cases hs
  | wrote ok =>
      simp only [system, step] at hs
      split at hs
      · split at hs
        · obtain rfl := Option.some.inj hs
          exact Or.inl ⟨rfl, hR.keep rfl rfl⟩
        · split at hs
          · cases hs
          · obtain rfl := Option.some.inj hs
            exact Or.inl ⟨rfl, hR.keep (view_endSend p) rfl⟩
      · cases hs
  | readFrame d =>
      simp only [system, step] at hs
      split at hs
      · split at hs
        · obtain rfl := Option.some.inj hs
          exact Or.inl ⟨rfl, hR.keep rfl rfl⟩
        · obtain rfl := Option.some.inj hs
          exact Or.inl ⟨rfl, hR.keep rfl rfl⟩
      · cases hs
  | readEnd =>
      simp only [system, step] at hs
      split at hs
      · obtain rfl := Option.some.inj hs
        exact Or.inl ⟨rfl, hR.keep (view_endRecv p) rfl⟩
      · cases hs
  | delivered ok =>
      simp only [system, step] at hs
      split at hs
      · split at hs
        · obtain rfl := Option.some.inj hs
          exact Or.inl ⟨rfl, hR.keep rfl rfl⟩
        · obtain rfl := Option.some.inj hs
          exact Or.inl ⟨rfl, hR.keep (view_endRecv p) rfl⟩
      · cases hs

/-- And the supervisor's `send_timeout` puts a datagram into the worker's channel. -/
theorem simulates_enqueue {send : PendingSend} (hR : Shows p q) (hoffer : q.supervisor = .offering send)
    (hs : system.step (.enqueue send.datagram) p = some p') :
    ∃ q', q.step held (.offered .ok) = some (q', none) ∧ Shows p' q' := by
  change (if _ then some _ else none) = _ at hs
  split at hs
  · rename_i hroom
    obtain rfl := Option.some.inj hs
    have hl2cap : q.l2cap = some p.view := by
      have hworker := hR.worker
      simp only [DataPipe.l2capWorker, hoffer] at hworker
      exact hworker
    have hnot : p.view ≠ .ended := by
      unfold view
      split <;> exact IrohBle.Worker.noConfusion
    have hforwarded : q.forwarded < forwardCapacity := by
      rw [hR.forwarded]
      exact hroom.1
    refine ⟨({ q with forwarded := q.forwarded + 1 } : DataPipe).afterOutbound, ?_, ?_, ?_⟩
    · simp only [DataPipe.step, hoffer, hl2cap, DataPipe.offered, hnot, hforwarded, ne_eq,
        not_false_eq_true, and_self, if_true, Option.map_some]
    · simp only [DataPipe.l2capWorker, DataPipe.afterOutbound, hl2cap, Option.isNone_some,
        Bool.and_false, Bool.false_eq_true, if_false]
      rfl
    · change q.forwarded + 1 = (p.outbound ++ [send.datagram]).length
      rw [hR.forwarded, List.length_append, List.length_singleton]
  · cases hs

/-! ## Why a worker fails -/

/-- What notifies the worker, and what makes it fail, is the end of a task. -/
structure Blames (p : Pipe) : Prop where
  notified : ∀ sendEnd recvEnd, p.worker = .select sendEnd recvEnd →
    (sendEnd = true → p.sendTask = .exited) ∧ (recvEnd = true → p.recvTask = .exited)
  failed : p.view = .failing → p.sendTask = .exited ∨ p.recvTask = .exited

/-- A worker that is neither waiting nor stopped for its I/O. -/
theorem Blames.of_worker (hselect : ∀ a b, p.worker ≠ .select a b) (hstop : p.worker ≠ .stopped true) :
    p.Blames := by
  refine ⟨?_, ?_⟩
  · intro a b hw
    exact absurd hw (hselect a b)
  · intro hv
    unfold view at hv
    split at hv
    · rename_i hw
      exact absurd hw hstop
    · cases hv

/-- A step of the tasks or the queues: what has ended stays so. -/
theorem Blames.keep (h : p.Blames) (hw : p'.worker = p.worker)
    (hsend : p.sendTask = .exited → p'.sendTask = .exited)
    (hrecv : p.recvTask = .exited → p'.recvTask = .exited) : p'.Blames := by
  refine ⟨?_, ?_⟩
  · intro a b hw'
    rw [hw] at hw'
    have hold := h.notified a b hw'
    exact ⟨fun ha => hsend (hold.1 ha), fun hb => hrecv (hold.2 hb)⟩
  · intro hv
    rw [view_of_worker hw] at hv
    rcases h.failed hv with hend | hend
    · exact Or.inl (hsend hend)
    · exact Or.inr (hrecv hend)

/-- A worker that blames an ended task goes on to do so when the send task ends. -/
theorem Blames.endSend (h : p.Blames) : p.endSend.Blames := by
  refine ⟨?_, fun _ => Or.inl rfl⟩
  intro a b hw
  refine ⟨fun _ => rfl, ?_⟩
  intro hb
  unfold Pipe.endSend at hw
  cases hold : p.worker with
  | select sendEnd recvEnd =>
      simp only [hold, Worker.select.injEq] at hw
      exact (h.notified sendEnd recvEnd hold).2 (hw.2.trans hb)
  | _ =>
      simp only [hold] at hw
      cases hw

/-- The end of the recv task gives the worker something to blame. -/
theorem Blames.endRecv (h : p.Blames) : p.endRecv.Blames := by
  refine ⟨?_, fun _ => Or.inr rfl⟩
  intro a b hw
  refine ⟨?_, fun _ => rfl⟩
  intro ha
  unfold Pipe.endRecv at hw
  cases hold : p.worker with
  | select sendEnd recvEnd =>
      simp only [hold, Worker.select.injEq] at hw
      exact (h.notified sendEnd recvEnd hold).1 (hw.1.trans ha)
  | _ =>
      simp only [hold] at hw
      cases hw

/-- The worker stops because a task has ended. -/
theorem Blames.stop (hend : p.sendTask = .exited ∨ p.recvTask = .exited) : (p.stop true).Blames := by
  refine ⟨?_, fun _ => hend⟩
  intro a b hw
  cases hw

/-- A step lets a worker fail only after one of its tasks has ended. -/
theorem blames_step (h : p.Blames) (hs : system.step l p = some p') : p'.Blames := by
  cases l with
  | enqueue d =>
      change (if _ then some _ else none) = _ at hs
      split at hs
      · obtain rfl := Option.some.inj hs
        exact h.keep rfl id id
      · cases hs
  | close =>
      obtain rfl := Option.some.inj hs
      exact h.keep rfl id id
  | enterSelect =>
      change (if p.worker = .top then _ else none) = _ at hs
      split at hs
      · obtain rfl := Option.some.inj hs
        -- the new future has been notified of nothing
        refine ⟨?_, ?_⟩
        · intro a b hw
          obtain ⟨rfl, rfl⟩ := Worker.select.inj hw
          exact ⟨Bool.noConfusion, Bool.noConfusion⟩
        · intro hv
          cases hv
      · cases hs
  | takeOutbound =>
      simp only [system, step] at hs
      split at hs
      · unfold Pipe.takeOutbound at hs
        split at hs
        · split at hs
          · obtain rfl := Option.some.inj hs
            exact .of_worker (fun _ _ => Worker.noConfusion) (by simp [stop])
          · cases hs
        · split at hs
          · obtain rfl := Option.some.inj hs
            exact .of_worker (fun _ _ => Worker.noConfusion) Worker.noConfusion
          · obtain rfl := Option.some.inj hs
            exact .of_worker (fun _ _ => Worker.noConfusion) Worker.noConfusion
      · cases hs
  | takeDone =>
      simp only [system, step] at hs
      split at hs
      · rename_i sendEnd recvEnd hw
        split at hs
        · rename_i hnotified
          obtain rfl := Option.some.inj hs
          have hends := h.notified sendEnd recvEnd hw
          refine .stop ?_
          rcases Bool.or_eq_true_iff.mp hnotified with hsend | hrecv
          · exact Or.inl (hends.1 hsend)
          · exact Or.inr (hends.2 hrecv)
        · cases hs
      · cases hs
  | forwarded =>
      simp only [system, step] at hs
      split at hs
      · unfold Pipe.forward at hs
        split at hs
        · rename_i hexit
          obtain rfl := Option.some.inj hs
          exact .stop (Or.inl hexit)
        · split at hs
          · obtain rfl := Option.some.inj hs
            exact .of_worker (fun _ _ => Worker.noConfusion) Worker.noConfusion
          · cases hs
      · cases hs
  | takeWrite =>
      simp only [system, step] at hs
      split at hs
      · rename_i hidle _
        obtain rfl := Option.some.inj hs
        refine h.keep rfl ?_ id
        intro hexit
        rw [hidle] at hexit
        cases hexit
      · cases hs
  | wrote ok =>
      simp only [system, step] at hs
      split at hs
      · rename_i d hwriting
        split at hs
        · obtain rfl := Option.some.inj hs
          refine h.keep rfl ?_ id
          intro hexit
          rw [hwriting] at hexit
          cases hexit
        · split at hs
          · cases hs
          · obtain rfl := Option.some.inj hs
            exact h.endSend
      · cases hs
  | readFrame d =>
      simp only [system, step] at hs
      split at hs
      · rename_i hreading
        split at hs
        · obtain rfl := Option.some.inj hs
          exact h.keep rfl id id
        · obtain rfl := Option.some.inj hs
          refine h.keep rfl id ?_
          intro hexit
          rw [hreading.1] at hexit
          cases hexit
      · cases hs
  | readEnd =>
      simp only [system, step] at hs
      split at hs
      · obtain rfl := Option.some.inj hs
        exact h.endRecv
      · cases hs
  | delivered ok =>
      simp only [system, step] at hs
      split at hs
      · rename_i d hdelivering
        split at hs
        · obtain rfl := Option.some.inj hs
          refine h.keep rfl id ?_
          intro hexit
          rw [hdelivering] at hexit
          cases hexit
        · obtain rfl := Option.some.inj hs
          exact h.endRecv
      · cases hs

/-- In every run of the worker, it fails only after one of its tasks has ended. -/
theorem fails_after_end {h : List (Pipe × Label)} (hrun : system.Run h p) (hfail : p.view = .failing) :
    p.sendTask = .exited ∨ p.recvTask = .exited := by
  have hblames : p.Blames := by
    refine hrun.invariant_all ?_ (fun _ _ _ hp hs => blames_step hp hs)
    rintro p rfl
    exact .of_worker (fun _ _ => Worker.noConfusion) Worker.noConfusion
  exact hblames.failed hfail

end IrohBle.L2cap.Pipe
