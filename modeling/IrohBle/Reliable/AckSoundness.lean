import IrohBle.Reliable.Pair

/-! # Reliable.AckSoundness: an ACK pops only what the peer has accepted

`receive_fragment` accepts a cumulative ACK that lies in its current window
modulo 16. `ack_soundness`: that test is enough in every run in which a
retransmission never repeats an ACK byte more than nine fragments old. The
stored message of `in_flight.front()` keeps the ACK byte of its first
transmission, so without this condition the byte can come back ten fragments
later and read as an acknowledgement of the whole window
(`stale_ack_pops_unaccepted`).
-/

namespace IrohBle.Reliable

open ReliableChannel Lib

namespace Duplex

/-- The pair invariant, seen from either endpoint. -/
def Inv (s : Duplex) : Prop :=
  ∀ w, PairInv (s.side w) (s.side w.other) (s.link w) (s.link w.other)

/-- By symmetry the invariant is one statement about the endpoint that moves. -/
theorem inv_of_pair {s : Duplex} (w : Node)
    (h : PairInv (s.side w) (s.side w.other) (s.link w) (s.link w.other)) : s.Inv := by
  intro v
  rcases Node.eq_or_eq_other v w with rfl | rfl
  · exact h
  · rw [Node.other_other]
    exact h.symm

/-- A retransmission never repeats an ACK byte more than nine fragments old. -/
def FreshResend (s : Duplex) : DuplexLabel → Prop
  | .resend w => FreshFront (s.side w)
  | _ => True

theorem inv_init (s : Duplex) (h : system.Init s) : s.Inv := by
  obtain ⟨chunkSize, now, hc, rfl⟩ := h
  exact fun w => pairInv_fresh (hc w) (hc w.other) now now

/-- A step whose resend is fresh keeps it. -/
theorem inv_step (s : Duplex) (l : DuplexLabel) (s' : Duplex) (hI : s.Inv)
    (hfresh : FreshResend s l) (hs : system.step l s = some s') : s'.Inv := by
  -- each step is one of the side that moves, seen from the other one
  cases l with
  | enqueue w d =>
      obtain rfl := Option.some.inj hs
      apply inv_of_pair w
      simpa using (hI w).enqueue d
  | setChunkSize w n =>
      change (if 4 ≤ n then _ else none) = _ at hs
      split at hs
      · rename_i hn
        obtain rfl := Option.some.inj hs
        apply inv_of_pair w
        simpa using (hI w).setChunkSize hn
      · cases hs
  | send w now =>
      change (if s.clock ≤ now then _ else none) = _ at hs
      split at hs
      · obtain rfl := Option.some.inj hs
        apply inv_of_pair w
        simpa using (hI w).send now
      · cases hs
  | resend w =>
      obtain rfl := Option.some.inj hs
      apply inv_of_pair w
      simpa using (hI w).resend hfresh
  | receive w now =>
      rcases receive_eq hs with ⟨k, ks, hlink, rfl⟩
      have h := hI w
      rw [hlink] at h
      apply inv_of_pair w
      simpa [(Node.other_ne w).symm] using h.receive now
  | lose w i =>
      obtain rfl := Option.some.inj hs
      apply inv_of_pair w
      simpa using (hI w).lose (List.eraseIdx_sublist _ _) (List.Sublist.refl _)

theorem run_inv {h : List (Duplex × DuplexLabel)} {s : Duplex} (hrun : system.Run h s)
    (hfresh : System.Meets FreshResend h) : s.Inv :=
  hrun.invariant inv_init inv_step hfresh

/-- The history variables are the channel's counters, unwrapped. -/
def Counts (p : Side) : Prop :=
  Wraps p.ch.state.sendBase p.base ∧ Wraps p.ch.state.sendNext p.next ∧
  Wraps p.ch.state.recvNext p.rcvd

/-- What `p` has dropped from `in_flight` is accepted by `q`, and `q` accepts
only what was sent. -/
def AckSound (p q : Side) : Prop := p.base ≤ q.rcvd ∧ q.rcvd ≤ p.next

instance (p : Side) : Decidable (FreshFront p) :=
  inferInstanceAs (Decidable (_ → ∀ stored ∈ p.flight.head?, ∀ r ∈ stored.ack, _))

instance (s : Duplex) (l : DuplexLabel) : Decidable (FreshResend s l) :=
  match l with
  | .resend w => inferInstanceAs (Decidable (FreshFront (s.side w)))
  | .enqueue .. | .setChunkSize .. | .send .. | .receive .. | .lose .. =>
    inferInstanceAs (Decidable True)

instance (p : Side) : Decidable (Counts p) :=
  inferInstanceAs (Decidable (_ = _ ∧ _ = _ ∧ _ = _))

/-- In every run whose retransmissions are fresh, both directions are sound in
the state reached. -/
theorem ack_soundness {h : List (Duplex × DuplexLabel)} {s : Duplex} (hrun : system.Run h s)
    (hfresh : System.Meets FreshResend h) (w : Node) :
    Counts (s.side w) ∧ AckSound (s.side w) (s.side w.other) ∧
    (s.side w).ch.state.inFlight.length = (s.side w).next - (s.side w).base := by
  have hI := run_inv hrun hfresh w
  refine ⟨⟨hI.left.base, hI.left.next, hI.back.receives.wraps⟩, ?_, hI.left.inFlight_length⟩
  exact ⟨hI.out.window.base_le, hI.out.window.rcvd_le⟩

/-- A fragment with a piggybacked ACK is lost and retransmitted with its stored
ACK byte, which is still fresh; the retransmission is received. -/
def freshRun : List DuplexLabel :=
  [.enqueue .b [1], .send .b 0, .receive .a 0, .enqueue .a [2], .send .a 0, .lose .a 0,
    .resend .a, .receive .b (millis 300)]

theorem init_twenty : system.Init (start (fun _ => 20) 0) :=
  ⟨fun _ => 20, 0, fun _ => by simp, rfl⟩

/-- A run with fresh resends in which an ACK pops a fragment the peer has accepted. -/
theorem ack_soundness_freshRun :
    ∃ h s, system.Run h s ∧ System.Meets FreshResend h ∧ h.map Prod.snd = freshRun ∧
      (s.side .b).base = 1 ∧ AckSound (s.side .a) (s.side .b) ∧
      AckSound (s.side .b) (s.side .a) := by
  obtain ⟨h, s, hrun, hfresh, hl, hb⟩ := System.Run.of_execMeets (C := FreshResend)
    (P := fun s => (s.side .b).base = 1) freshRun init_twenty (by decide +kernel)
  exact ⟨h, s, hrun, hfresh, hl, hb, (ack_soundness hrun hfresh .a).2.1,
    (ack_soundness hrun hfresh .b).2.1⟩

/-- One fragment from `b`, accepted by `a` and acknowledged on its own. -/
def acked (t : ℕ) : List DuplexLabel :=
  [.enqueue .b [1], .send .b (millis t), .receive .a (millis t), .send .a (millis (t + 15)),
    .receive .b (millis (t + 15))]

/-- `a` sends a fragment with an ACK byte, which is lost; `b` moves on by ten
fragments, then loses a whole window; `a` retransmits. -/
def staleAckRun : List DuplexLabel :=
  [.enqueue .b [1], .send .b 0, .receive .a 0, .enqueue .a [2], .send .a 0, .lose .a 0] ++
  (List.range 10).flatMap (fun j => acked (20 * (j + 1))) ++
  (List.replicate 6 [.enqueue .b [1], .send .b (millis 300), .lose .b 0]).flatten ++
  [.resend .a, .receive .b (millis 300)]

/-- A run in which a resend repeats an ACK byte that is ten fragments old: it pops fragments the
peer has never accepted. -/
theorem stale_ack_pops_unaccepted :
    ∃ h s, system.Run h s ∧ h.map Prod.snd = staleAckRun ∧ Counts (s.side .a) ∧
      Counts (s.side .b) ∧ ¬ AckSound (s.side .b) (s.side .a) := by
  obtain ⟨h, s, hrun, hl, ha, hb, hlt⟩ := System.Run.of_exec
    (P := fun s => Counts (s.side .a) ∧ Counts (s.side .b) ∧ (s.side .a).rcvd < (s.side .b).base)
    staleAckRun init_twenty (by decide +kernel)
  exact ⟨h, s, hrun, hl, ha, hb, fun hsound => absurd hsound.1 (by omega)⟩

end Duplex

end IrohBle.Reliable
