import IrohBle.Node.Zombie
import IrohBle.Pipe.Worker

/-! # Node.Paths: the two radio paths of a pipe

A pipe with a GATT and an L2CAP worker is meant to go on over GATT when L2CAP ends. The L2CAP
worker ends by its I/O (the end of the file, an error, a frame that is too long), and then sends
`Stalled`; or the supervisor evicts it because its channel stays full, and sends
`L2capHandoverTimeout`. The registry does not know which worker a `Stalled` is from.

* `paths_independent`: as long as the I/O of no L2CAP worker dies beside a live GATT worker,
  no command of a pipe takes an entry out of `Connected` while the GATT worker lives.
* `l2cap_end_drains`: the peer closes the L2CAP channel, and the session ends although GATT is
  alive.
-/

namespace IrohBle

open Lib Reliable Registry

/-- The L2CAP worker has failed, and has not reported it yet. -/
def DataPipe.Failing (p : DataPipe) : Prop :=
  p.l2cap = some .failing ∨ ∃ timedOut send, p.supervisor = .evicting .failing timedOut send

namespace DataPipe

variable {held : Bool} {l : PipeLabel} {p p' : DataPipe} {cmd : Option PeerCommand}

/-- A worker about to report makes the pipe a failing one. -/
theorem failing_of_l2capWorker (h : p.l2capWorker = some .failing) : p.Failing := by
  unfold l2capWorker at h
  split at h
  · rename_i worker timedOut send hsup
    rw [Option.some.inj h] at hsup
    exact Or.inr ⟨timedOut, send, hsup⟩
  · exact Or.inl h

/-- A pipe starts with no worker that fails. -/
theorem not_failing_start (d : DeviceId) (txGen : ℕ) (path : ConnectPath)
    (l2cap : Option L2capChannel) : ¬ (start d txGen path l2cap).Failing := by
  rintro (h | ⟨timedOut, send, h⟩)
  · cases path <;> cases l2cap <;> cases h
  · cases path <;> cases l2cap <;> cases h

/-- The GATT worker of a pipe is never replaced. -/
theorem Move.gatt_running (h : Move held p l p' cmd) (hg : p'.gatt = some .running) :
    p.gatt = some .running := by
  have htry : ∀ q : DataPipe, q.tryGatt.gatt = some .running → q.gatt = some .running := by
    intro q hq
    unfold DataPipe.tryGatt at hq
    split at hq
    · cases hq
    · exact hq
  cases h with
  | gattFails _ => cases hg
  | gattReports _ => cases hg
  | l2capFails _ =>
      rw [setL2capWorker_gatt] at hg
      exact hg
  | l2capReports _ =>
      change (p.setL2capWorker .ended).gatt = _ at hg
      rw [setL2capWorker_gatt] at hg
      exact hg
  | fallBack _ => exact htry p hg
  | @recvInbound inbound _ => exact htry { p with inbound := inbound } hg
  | exit _ => cases hg
  | _ => exact hg

/-- Only the worker that was set may have begun to fail. -/
theorem failing_setL2capWorker {worker : Worker} (h : (p.setL2capWorker worker).Failing) :
    worker = .failing ∨ p.Failing := by
  unfold DataPipe.setL2capWorker at h
  split at h
  · rcases h with h | ⟨timedOut, send, h⟩
    · exact Or.inr (Or.inl h)
    · exact Or.inl (Supervisor.evicting.inj h).1
  · rcases h with h | ⟨timedOut, send, h⟩
    · exact Or.inl (Option.some.inj h)
    · exact Or.inr (Or.inr ⟨timedOut, send, h⟩)

/-- An L2CAP worker fails by its I/O only. -/
theorem Move.failing (h : Move held p l p' cmd) (hl : l ≠ .l2capFails) (hf : p'.Failing) :
    p.Failing := by
  -- a supervisor that is not evicting
  have hl2cap : ∀ q : DataPipe, q.Failing → q.l2cap = p.l2cap →
      (∀ w timedOut send, q.supervisor ≠ .evicting w timedOut send) → p.Failing := by
    rintro q (hq | ⟨timedOut, send, hq⟩) heq hno
    · exact Or.inl (heq ▸ hq)
    · exact absurd hq (hno _ _ _)
  have hafter : ∀ q : DataPipe, ∀ w timedOut send,
      q.afterOutbound.supervisor ≠ .evicting w timedOut send := by
    intro q w timedOut send hq
    change (if _ then Supervisor.tearingDown else .selecting) = _ at hq
    split at hq <;> cases hq
  cases h with
  | gattFails _ => exact hf
  | gattReports _ => exact hf
  | l2capTakes => exact hf
  | l2capFails _ => exact absurd rfl hl
  | l2capReports _ =>
      rcases failing_setL2capWorker hf with hw | hold
      · cases hw
      · exact hold
  | recvOutbound _ hnext =>
      refine hl2cap _ hf rfl ?_
      rcases hnext with rfl | rfl
      · exact fun _ _ _ => Supervisor.noConfusion
      · exact fun _ _ _ => Supervisor.noConfusion
  | accepted _ _ => exact hl2cap _ hf rfl (hafter _)
  | timedOut _ hw =>
      -- the worker that is taken out of the set is the one that was in it
      rcases hf with hf | ⟨timedOut, send, hf⟩
      · cases hf
      · rw [(Supervisor.evicting.inj hf).1] at hw
        exact Or.inl hw
  | foundClosed _ _ =>
      rcases hf with hf | ⟨timedOut, send, hf⟩
      · cases hf
      · cases hf
  | evicted _ hnext =>
      refine hl2cap _ hf rfl ?_
      rcases hnext with rfl | rfl
      · exact fun _ _ _ => Supervisor.noConfusion
      · exact fun _ _ _ => Supervisor.noConfusion
  | reportTimeout _ => exact hl2cap _ hf rfl fun _ _ _ => Supervisor.noConfusion
  | fallBack _ => exact hl2cap _ hf (tryGatt_l2cap p) (hafter _)
  | @recvInbound inbound hsel =>
      refine hl2cap _ hf (tryGatt_l2cap _) ?_
      intro w timedOut send hq
      rw [tryGatt_supervisor] at hq
      cases hsel.symm.trans hq
  | ignoreL2cap _ => exact hf
  | addWorker hsel =>
      rcases hf with hf | ⟨timedOut, send, hf⟩
      · cases hf
      · exact Or.inr ⟨timedOut, send, hf⟩
  | recvClosed _ _ => exact hl2cap _ hf rfl fun _ _ _ => Supervisor.noConfusion
  | exit _ =>
      rcases hf with hf | ⟨timedOut, send, hf⟩
      · cases hf
      · cases hf

/-- What a pipe sends while its GATT worker lives and no L2CAP worker has failed. -/
theorem Move.cmd_running (h : Move held p l p' cmd) (hg : p'.gatt = some .running)
    (hf : ¬ p.Failing) {c : PeerCommand} (hc : cmd = some c) : c = .l2capHandoverTimeout p.device := by
  subst hc
  cases h with
  | gattReports _ => cases hg
  | l2capReports hw => exact absurd (failing_of_l2capWorker hw) hf
  | reportTimeout _ => rfl

end DataPipe

namespace Registry

open Turn

/-- `L2capHandoverTimeout` changes the path of a session, and does not end it. -/
theorem handle_handoverTimeout_peer {r : Registry} (io : Io) {d d' : DeviceId} {e : PeerEntry}
    (he : r.peer d' = some e) (hconn : e.phase.isConnected = true) :
    ∃ e', (r.handle io (.l2capHandoverTimeout d)).reg.peer d' = some e' ∧
      e'.phase.isConnected = true := by
  change ∃ e', ((start r).edit d Edit.l2capHandoverTimeout).reg.peer d' = some e' ∧ _
  by_cases hd : d' = d
  · subst hd
    have hpeer : (start r).reg.peer d' = some e := he
    refine ⟨(Edit.l2capHandoverTimeout ((start r).focus e)).entry, ?_, ?_⟩
    · rw [edit_of_some hpeer, peer_store hpeer, if_pos rfl]
    · cases hp : e.phase with
      | connected since channel txGen upgrading =>
          have hfocus : (((start r).focus e).modify fun e =>
              { e with l2capUpgradeFailed := true }).entry.phase =
                .connected since channel txGen upgrading := hp
          simp only [Edit.l2capHandoverTimeout, Edit.setPath, hfocus, Edit.setPhase_entry]
          rfl
      | _ =>
          rw [hp] at hconn
          cases hconn
  · refine ⟨e, ?_, hconn⟩
    rw [peer_edit_ne hd]
    exact he

end Registry

namespace Node

/-- The entry of `d` is `Connected`. -/
def live (d : DeviceId) (s : Node) : Bool :=
  (s.actor.reg.peer d).any fun e => e.phase.isConnected

/-- The pipe whose command a step handles. -/
def handles (x : Node × NodeLabel) : Option ℕ :=
  match x.2 with
  | .pop .. => x.1.actor.inbox.head?.bind Letter.pipe
  | _ => none

/-- No command of a pipe has taken the entry of its device out of `Connected` while the GATT worker
of the pipe was alive. Such a command is one of the L2CAP worker's end. -/
def Independent (h : List (Node × NodeLabel)) (s : Node) : Prop :=
  ∀ x ∈ h.getLast?, ∀ i ∈ handles x, ∀ p ∈ x.1.pipes[i]?, p.gatt = some .running →
    x.1.live p.device = true → s.live p.device = true

/-- The I/O of an L2CAP worker does not die beside a live GATT worker. -/
def IoHolds (s : Node) : NodeLabel → Prop
  | .pipe i .l2capFails => ∀ p ∈ s.pipes[i]?, p.gatt ≠ some .running
  | _ => True

/-- Beside a live GATT worker no L2CAP worker has failed, and the pipe has reported nothing but
evictions. -/
structure Quiet (s : Node) : Prop where
  known : ∀ letter ∈ s.actor.inbox, ∀ i, letter.pipe = some i → i < s.pipes.length
  failing : ∀ (i : ℕ) (p : DataPipe), s.pipes[i]? = some p → p.gatt = some .running → ¬ p.Failing
  letters : ∀ (i : ℕ) (p : DataPipe), s.pipes[i]? = some p → p.gatt = some .running →
    ∀ letter ∈ s.actor.inbox, letter.pipe = some i → letter.cmd = .l2capHandoverTimeout p.device

variable {s s' : Node} {l : NodeLabel}

/-- Filling a channel makes no worker fail. -/
theorem failing_of_refilled {p p' : DataPipe} (h : p.Refilled p') (hf : p'.Failing) : p.Failing := by
  unfold DataPipe.Failing at hf ⊢
  rw [h.l2cap, h.supervisor] at hf
  exact hf

/-- A step that leaves the workers alone, and adds no letter of a pipe. -/
theorem Quiet.keep (hq : Quiet s) {actor : Actor} {pipes : List DataPipe}
    (hpipes : Refilled s.pipes pipes)
    (hinbox : ∀ letter ∈ actor.inbox, letter ∈ s.actor.inbox ∨ letter.pipe = none) :
    Quiet ⟨actor, pipes⟩ := by
  -- the pipe that a pipe was
  have hback : ∀ (i : ℕ) (p' : DataPipe), pipes[i]? = some p' →
      ∃ p, s.pipes[i]? = some p ∧ p.Refilled p' := by
    intro i p' hp'
    have hi : i < s.pipes.length := by
      rw [← hpipes.1]
      exact (List.getElem?_eq_some_iff.mp hp').1
    have hp : s.pipes[i]? = some s.pipes[i] := List.getElem?_eq_getElem hi
    rcases hpipes.2 i _ hp with ⟨q, hq', hr⟩
    obtain rfl : q = p' := Option.some.inj (hq'.symm.trans hp')
    exact ⟨_, hp, hr⟩
  refine ⟨?_, ?_, ?_⟩
  · intro letter hmem i hi
    rcases hinbox letter hmem with hold | hnone
    · change i < pipes.length
      rw [hpipes.1]
      exact hq.known letter hold i hi
    · rw [hnone] at hi
      cases hi
  · intro i p' hp' hg hf
    rcases hback i p' hp' with ⟨p, hp, hr⟩
    rw [hr.gatt] at hg
    exact hq.failing i p hp hg (failing_of_refilled hr hf)
  · intro i p' hp' hg letter hmem hi
    rcases hback i p' hp' with ⟨p, hp, hr⟩
    rw [hr.gatt] at hg
    rcases hinbox letter hmem with hold | hnone
    · rw [hr.device]
      exact hq.letters i p hp hg letter hold hi
    · rw [hnone] at hi
      cases hi

/-- A step of a pipe. -/
theorem Quiet.pipe (hq : Quiet s) {i : ℕ} {pl : PipeLabel} {p p' : DataPipe}
    {cmd : Option PeerCommand} {inbox : List (Letter ℕ)} (hp : s.pipes[i]? = some p)
    (hm : p.Move (s.held i) pl p' cmd) (hin : Posted s i cmd inbox) (hC : IoHolds s (.pipe i pl)) :
    Quiet ⟨{ s.actor with inbox := inbox }, s.pipes.set i p'⟩ := by
  have hi : i < s.pipes.length := (List.getElem?_eq_some_iff.mp hp).1
  -- the letters of the inbox: old ones, and the one that is sent
  have hletter : ∀ letter ∈ inbox, letter ∈ s.actor.inbox ∨
      ∃ c, cmd = some c ∧ letter = ⟨c, some i⟩ := by
    intro letter hmem
    rcases hin with ⟨-, rfl⟩ | ⟨c, hc, -, rfl⟩
    · exact Or.inl hmem
    · rcases List.mem_append.mp hmem with hold | hnew
      · exact Or.inl hold
      · exact Or.inr ⟨c, hc, List.mem_singleton.mp hnew⟩
  have hnot : p.gatt = some .running → ¬ p.Failing := hq.failing i p hp
  have hfails : p'.gatt = some .running → pl ≠ .l2capFails := by
    rintro hg rfl
    exact hC p hp (hm.gatt_running hg)
  refine ⟨?_, ?_, ?_⟩
  · intro letter hmem j hj
    change j < (s.pipes.set i p').length
    rw [List.length_set]
    rcases hletter letter hmem with hold | ⟨c, -, rfl⟩
    · exact hq.known letter hold j hj
    · rw [← Option.some.inj hj]
      exact hi
  · intro j q hj hg hf
    change (s.pipes.set i p')[j]? = some q at hj
    by_cases hij : i = j
    · subst hij
      rw [List.getElem?_set_self hi] at hj
      obtain rfl := Option.some.inj hj
      exact hnot (hm.gatt_running hg) (hm.failing (hfails hg) hf)
    · rw [List.getElem?_set_ne hij] at hj
      exact hq.failing j q hj hg hf
  · intro j q hj hg letter hmem hpipe
    change (s.pipes.set i p')[j]? = some q at hj
    by_cases hij : i = j
    · subst hij
      rw [List.getElem?_set_self hi] at hj
      obtain rfl := Option.some.inj hj
      have hold := hm.gatt_running hg
      rw [hm.samePipe.device]
      rcases hletter letter hmem with hmem' | ⟨c, hc, rfl⟩
      · exact hq.letters i p hp hold letter hmem' hpipe
      · exact hm.cmd_running hg (hnot hold) hc
    · rw [List.getElem?_set_ne hij] at hj
      rcases hletter letter hmem with hmem' | ⟨c, -, rfl⟩
      · exact hq.letters j q hj hg letter hmem' hpipe
      · exact absurd (Option.some.inj hpipe) hij

theorem quiet_step (hq : Quiet s) (hC : IoHolds s l) (hs : system.step l s = some s') : Quiet s' := by
  cases l with
  | external cmd =>
      simp only [system, step] at hs
      split at hs
      · cases hs
      · rcases post_cases hs with ⟨-, rfl⟩ | ⟨-, rfl⟩
        · -- a letter from outside: either the actor has stopped, or it goes to the end of the
          -- inbox
          exact hq
        · refine hq.keep (.refl s.pipes) ?_
          intro letter hmem
          rcases List.mem_append.mp hmem with hold | hnew
          · exact Or.inl hold
          · rw [List.mem_singleton.mp hnew]
            exact Or.inr rfl
  | pop io exact replaced =>
      cases step_moved hs with
      | pop hl hin ht hpipes =>
          -- the letter in turn leaves the inbox; the `try_send`s touch channels only
          refine hq.keep (refilled_attempts hpipes) ?_
          intro letter hmem
          rw [hin]
          exact Or.inl (List.mem_cons_of_mem _ hmem)
  | execute =>
      cases step_moved hs with
      | finish hl => exact hq.keep (.refl s.pipes) fun _ hmem => Or.inl hmem
      | act hl ha hpipes => exact hq.keep hpipes fun _ hmem => Or.inl hmem
      | @start d g txGen role target path l2cap todo shutdown hl =>
          -- a new pipe has sent nothing
          have hsplit : ∀ (i : ℕ) (p : DataPipe),
              (s.pipes ++ [DataPipe.start d txGen path l2cap])[i]? = some p →
              s.pipes[i]? = some p ∨
                s.pipes.length ≤ i ∧ p = DataPipe.start d txGen path l2cap := by
            intro i p hp
            by_cases hi : i < s.pipes.length
            · rw [List.getElem?_append_left hi] at hp
              exact Or.inl hp
            · rw [List.getElem?_append_right (by omega)] at hp
              have hmem := List.mem_of_getElem? hp
              exact Or.inr ⟨by omega, List.mem_singleton.mp hmem⟩
          refine ⟨?_, ?_, ?_⟩
          · intro letter hmem i hi
            have hold := hq.known letter hmem i hi
            change i < (s.pipes ++ [_]).length
            rw [List.length_append]
            omega
          · intro i p hp hg
            rcases hsplit i p hp with hold | ⟨-, rfl⟩
            · exact hq.failing i p hold hg
            · exact DataPipe.not_failing_start d txGen path l2cap
          · intro i p hp hg letter hmem hi
            rcases hsplit i p hp with hold | ⟨hlen, -⟩
            · exact hq.letters i p hold hg letter hmem hi
            · have hknown := hq.known letter hmem i hi
              omega
  | sent =>
      cases step_moved hs with
      | sent hl =>
          refine hq.keep (.refl s.pipes) ?_
          intro letter hmem
          rcases List.mem_append.mp hmem with hold | hnew
          · exact Or.inl hold
          · rw [List.mem_singleton.mp hnew]
            exact Or.inr rfl
  | reorder ks =>
      cases step_moved hs with
      | reorder hpeer => exact hq.keep (.refl s.pipes) fun _ hmem => Or.inl hmem
  | pipe i pl =>
      cases step_moved hs with
      | pipe hp hm hin => exact hq.pipe hp hm hin hC

/-- Nothing of a pipe with a live GATT worker is reported along a run in which the I/O holds. -/
theorem quiet_of_run {h : List (Node × NodeLabel)} (hrun : system.Run h s)
    (hC : System.Meets IoHolds h) : Quiet s := by
  refine hrun.invariant ?_ (fun _ _ _ hq hl hs => quiet_step hq hl hs) hC
  rintro s ⟨policy, endpoint, rfl⟩
  refine ⟨?_, ?_, ?_⟩
  · intro letter hmem
    cases hmem
  · intro i p hp
    cases hp
  · intro i p hp
    cases hp

/-- One command of a pipe with a live GATT worker. -/
theorem live_step (hq : Quiet s) (hs : system.step l s = some s') {i : ℕ} {p : DataPipe}
    (hi : handles (s, l) = some i) (hp : s.pipes[i]? = some p) (hg : p.gatt = some .running)
    (hlive : s.live p.device = true) : s'.live p.device = true := by
  cases l with
  | pop io exact replaced =>
      cases step_moved hs with
      | @pop io exact replaced letter rest t pipes hl hin ht hpipes =>
          have hpipe : letter.pipe = some i := by
            change s.actor.inbox.head?.bind Letter.pipe = some i at hi
            rw [hin] at hi
            exact hi
          have hmem : letter ∈ s.actor.inbox := by
            rw [hin]
            exact List.mem_cons_self
          have hcmd := hq.letters i p hp hg letter hmem hpipe
          rcases (Option.any_eq_true _ _).mp hlive with ⟨e, he, hconn⟩
          rcases handle_handoverTimeout_peer io (d := p.device) he hconn with ⟨e', he', hconn'⟩
          refine (Option.any_eq_true _ _).mpr ⟨e', ?_, hconn'⟩
          change t.reg.peer p.device = some e'
          rw [ht, hcmd]
          exact he'
  | _ => cases hi

/-- As long as the I/O of no L2CAP worker dies beside a live GATT worker, the end of the L2CAP
worker takes no entry out of `Connected`, anywhere in the run. -/
theorem paths_independent {h : List (Node × NodeLabel)} (hC : System.Meets IoHolds h) :
    system.Always Independent h := by
  intro k s hk hr x hx i hi p hp hg hlive
  have hmeets := hC.mono_prefix hk
  rcases List.getLast?_eq_some_iff.mp hx with ⟨k', rfl⟩
  rw [System.meets_append] at hmeets
  have hlast := hr.snoc_inv
  exact live_step (quiet_of_run hlast.1 hmeets.1) hlast.2 hi hp hg hlive

instance (s : Node) (l : NodeLabel) : Decidable (IoHolds s l) :=
  match l with
  | .pipe i .l2capFails => inferInstanceAs (Decidable (∀ p ∈ s.pipes[i]?, p.gatt ≠ some .running))
  | .pipe _ (.offered _) | .pipe _ .gattFails
  | .pipe _ .gattReports | .pipe _ .l2capTakes | .pipe _ .l2capReports
  | .pipe _ .recvOutbound | .pipe _ .evicted | .pipe _ .reportTimeout | .pipe _ .fallBack
  | .pipe _ .recvInbound | .pipe _ .recvL2cap | .pipe _ .recvClosed | .pipe _ .exit
  | .external _ | .pop .. | .execute | .sent | .reorder _ => isTrue trivial

/-- A session over GATT that gets an L2CAP channel as well. -/
def bothRun : List NodeLabel :=
  [.external (.inboundGattFragment "peer" .peripheralReceivedC2p [1]), .pop (ioAt 0) none none,
    .execute, .sent, .execute, .pop (ioAt 0) none none, .execute,
    .external (.inboundL2capChannel "peer" 0), .pop (ioAt 0) none none,
    .execute, .execute, .execute, .pipe 0 .recvL2cap]

/-- The peer stops reading from the channel, and the worker is evicted. -/
def wedgedRun : List NodeLabel :=
  bothRun ++
  (List.replicate 66 (sendRun ++ [.pipe 0 (.offered .ok), .pipe 0 .l2capTakes])).flatten ++
  (List.replicate 32 (sendRun ++ [.pipe 0 (.offered .ok)])).flatten ++
  sendRun ++ [.pipe 0 (.offered .timeout), .pipe 0 .evicted, .pipe 0 .reportTimeout,
    .pipe 0 .fallBack, .pop (ioAt 0) none none]

/-- The last command that was handled is one of pipe 0, whose GATT worker is alive. -/
def besideGatt (h : List (Node × NodeLabel)) : Bool :=
  h.getLast?.any fun x => handles x == some 0 && x.1.live "peer" &&
    x.1.pipes[0]?.any fun p => p.device == "peer" && decide (p.gatt = some .running)

/-- What the flag of a run says. -/
theorem of_besideGatt {h : List (Node × NodeLabel)} (hb : besideGatt h = true) :
    ∃ x p, h.getLast? = some x ∧ handles x = some 0 ∧ x.1.live "peer" = true ∧
      x.1.pipes[0]? = some p ∧ p.device = "peer" ∧ p.gatt = some .running := by
  rcases (Option.any_eq_true _ _).mp hb with ⟨x, hx, hb⟩
  simp only [Bool.and_eq_true, beq_iff_eq] at hb
  rcases (Option.any_eq_true _ _).mp hb.2 with ⟨p, hp, hb'⟩
  simp only [Bool.and_eq_true, beq_iff_eq, decide_eq_true_eq] at hb'
  exact ⟨x, p, hx, hb.1.1, hb.1.2, hp, hb'.1, hb'.2⟩

/-- A run in which a wedged L2CAP worker is evicted on time: GATT goes on and the entry stays
live. -/
theorem paths_independent_wedgedRun : ∃ h s, system.Run h s ∧ h.map Prod.snd = wedgedRun ∧
    besideGatt h = true ∧ system.Always Independent h ∧ s.live "peer" = true := by
  rcases System.Run.of_trace (P := fun h (_ : Node) => besideGatt h = true ∧
      ∀ x ∈ h, IoHolds x.1 x.2) wedgedRun (init_new .disabled localEndpoint)
    (by decide +kernel) with ⟨h, s, hrun, hlabels, hbeside, hC⟩
  have halways := paths_independent (h := h) hC
  refine ⟨h, s, hrun, hlabels, hbeside, halways, ?_⟩
  rcases of_besideGatt hbeside with ⟨x, p, hx, hi, hlive, hp, hdev, hg⟩
  rw [← hdev] at hlive ⊢
  exact halways h s (List.prefix_refl h) hrun x hx 0 hi p hp hg hlive

/-- The peer closes the channel. -/
def closedRun : List NodeLabel :=
  bothRun ++ [.pipe 0 .l2capFails, .pipe 0 .l2capReports, .pop (ioAt 0) none none]

/-- The L2CAP worker reports the end of its channel, and the registry drains the session, although
the GATT worker is alive. -/
theorem l2cap_end_drains : ∃ h s, system.Run h s ∧ h.map Prod.snd = closedRun ∧
    besideGatt h = true ∧ (s.pipes[0]?.bind DataPipe.gatt) = some .running ∧
    (s.actor.reg.peer "peer").map PeerEntry.phase = some (.draining 0 .linkDead) ∧
    ¬ system.Always Independent h := by
  rcases System.Run.of_trace (P := fun h (s : Node) => besideGatt h = true ∧
      (s.pipes[0]?.bind DataPipe.gatt) = some .running ∧
      (s.actor.reg.peer "peer").map PeerEntry.phase = some (.draining 0 .linkDead))
    closedRun (init_new .disabled localEndpoint) (by decide +kernel) with
    ⟨h, s, hrun, hlabels, hbeside, hgatt, hphase⟩
  refine ⟨h, s, hrun, hlabels, hbeside, hgatt, hphase, ?_⟩
  intro halways
  rcases of_besideGatt hbeside with ⟨x, p, hx, hi, hlive, hp, hdev, hg⟩
  rw [← hdev] at hlive
  have hstill := halways h s (List.prefix_refl h) hrun x hx 0 hi p hp hg hlive
  rw [hdev] at hstill
  rcases (Option.any_eq_true _ _).mp hstill with ⟨e, he, hconn⟩
  rw [he, Option.map_some, Option.some.injEq] at hphase
  rw [hphase] at hconn
  cases hconn

end Node

end IrohBle
