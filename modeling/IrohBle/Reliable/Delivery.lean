import IrohBle.Reliable.AckSoundness

/-! # Reliable.Delivery: what arrives is a prefix of what was accepted

When only `a` enqueues datagrams, `b` numbers no fragment of its own, so `a`
never owes an acknowledgement and no ACK byte can go stale. The pair invariant
then holds in every run, whatever is lost, and `b` has reassembled a prefix of
the fragments of `a` (`delivery_prefix`).
-/

namespace IrohBle.Reliable

open ReliableChannel Lib

/-- A side that accepted no datagram has numbered no fragment. -/
theorem SideInv.next_eq_zero {p : Side} (h : SideInv p) (ha : p.accepted = []) : p.next = 0 := by
  obtain ⟨ds, hds⟩ := h.cut
  have hnil := hds.accepted
  rw [ha] at hnil
  have hds0 : ds = [] := by
    have := (List.append_eq_nil_iff.mp hnil.symm).1
    simpa using this
  have hfr := hds.frags
  rw [hds0, List.flatMap_nil, List.append_eq_nil_iff] at hfr
  rw [← h.sent, hfr.1]
  rfl

/-- What `q` hands to `datagram_tx` is a prefix of what `p` accepted, less the
datagrams no channel carries. -/
theorem PairInv.delivered {p q : Side} {lp lq : List Packet} (h : PairInv p q lp lq) :
    q.ch.datagramTx <+: p.accepted.filter (fun d => decide (Carried d)) := by
  obtain ⟨ds, hds⟩ := h.left.cut
  have htx : q.ch.datagramTx = (acceptAll Asm.init (p.sent.take q.rcvd)).delivered :=
    congrArg Asm.delivered h.out.receives.asm
  have hpre : p.sent.take q.rcvd <+: ds.flatMap fun x => fragments x.1 x.2 := by
    rw [← hds.frags]
    exact (List.take_prefix _ _).trans (List.prefix_append _ _)
  have hall := deliver_flatMap ds hds.chunk Asm.init
  calc q.ch.datagramTx
      = (acceptAll Asm.init (p.sent.take q.rcvd)).delivered := htx
    _ <+: (acceptAll Asm.init (ds.flatMap fun x => fragments x.1 x.2)).delivered :=
        delivered_prefix hpre Asm.init
    _ = (ds.map Prod.snd).filter (fun d => decide (Carried d)) := hall
    _ <+: p.accepted.filter (fun d => decide (Carried d)) := by
        rw [hds.accepted, List.filter_append]
        exact List.prefix_append _ _

namespace Duplex

/-- Only `a` enqueues datagrams. -/
def OneSided (_ : Duplex) (l : DuplexLabel) : Prop := ∀ d, l ≠ .enqueue .b d

/-- Sending takes no datagram on. -/
theorem accepted_send (p : Side) (now : ℕ) : (p.send now).1.accepted = p.accepted := by
  unfold Side.send
  dsimp only
  split <;> rfl

theorem accepted_resend (p : Side) : p.resend.1.accepted = p.accepted := by
  unfold Side.resend
  dsimp only
  split <;> rfl

/-- In a one-sided step `b` takes no datagram on. -/
theorem step_accepted {s s' : Duplex} {l : DuplexLabel} (honly : OneSided s l)
    (hs : system.step l s = some s') : (s'.side .b).accepted = (s.side .b).accepted := by
  -- a side that has accepted nothing new
  have hupdate : ∀ w (p : Side), p.accepted = (s.side w).accepted →
      (Function.update s.side w p .b).accepted = (s.side .b).accepted := by
    intro w p hp
    by_cases hw : Node.b = w
    · subst hw
      rw [Function.update_self, hp]
    · rw [Function.update_of_ne hw]
  cases l with
  | enqueue w d =>
      obtain rfl := Option.some.inj hs
      cases w with
      | a => rfl
      | b => exact absurd rfl (honly d)
  | setChunkSize w n =>
      change (if 4 ≤ n then _ else none) = _ at hs
      split at hs
      · obtain rfl := Option.some.inj hs
        exact hupdate w _ rfl
      · cases hs
  | send w now =>
      change (if s.clock ≤ now then _ else none) = _ at hs
      split at hs
      · obtain rfl := Option.some.inj hs
        exact hupdate w _ (accepted_send _ now)
      · cases hs
  | resend w =>
      obtain rfl := Option.some.inj hs
      exact hupdate w _ (accepted_resend _)
  | receive w now =>
      rcases receive_eq hs with ⟨k, ks, -, rfl⟩
      exact hupdate w _ rfl
  | lose w i =>
      obtain rfl := Option.some.inj hs
      rfl

/-- While `b` has accepted nothing, no ACK byte can be stale. -/
theorem freshResend_of_oneSided {s : Duplex} (hI : s.Inv) (hb : (s.side .b).accepted = [])
    (l : DuplexLabel) : FreshResend s l := by
  have hnext : (s.side .b).next = 0 := (hI .b).left.next_eq_zero hb
  cases l with
  | resend w =>
      intro _ stored hst r hr
      cases w with
      | a =>
          -- `a` has received nothing, so every stamp is zero
          have hr0 : (s.side .a).rcvd ≤ (s.side .b).next := (hI .b).out.window.rcvd_le
          show (s.side .a).rcvd ≤ r + 9
          omega
      | b =>
          -- `b` has nothing in flight
          have hidx := (hI .b).left.flight_idx
          rw [hnext, Nat.zero_sub] at hidx
          have hnil : (s.side .b).flight = [] := by simpa using hidx
          rw [hnil] at hst
          cases hst
  | enqueue _ _ | setChunkSize _ _ | send _ _ | receive _ _ | lose _ _ => trivial

/-- What a run in which only one side sends keeps. -/
def SilentInv (s : Duplex) : Prop := s.Inv ∧ (s.side .b).accepted = []

theorem SilentInv.step {s s' : Duplex} {l : DuplexLabel} (h : s.SilentInv) (hl : OneSided s l)
    (hs : system.step l s = some s') : s'.SilentInv :=
  ⟨inv_step s l s' h.1 (freshResend_of_oneSided h.1 h.2 l) hs, (step_accepted hl hs).trans h.2⟩

/-- The pair invariant holds, and `b` has accepted nothing. -/
theorem silent_of_run {h : List (Duplex × DuplexLabel)} {s : Duplex} (hrun : system.Run h s)
    (honly : System.Meets OneSided h) : s.SilentInv := by
  refine hrun.invariant ?_ ?_ honly
  · intro s hs
    refine ⟨inv_init s hs, ?_⟩
    obtain ⟨chunkSize, now, -, rfl⟩ := hs
    rfl
  · intro s l s' hI hl hs
    exact hI.step hl hs

/-- End-to-end delivery when one side sends. -/
theorem delivery_prefix {h : List (Duplex × DuplexLabel)} {s : Duplex} (hrun : system.Run h s)
    (honly : System.Meets OneSided h) :
    (s.side .b).ch.datagramTx <+: (s.side .a).accepted.filter (fun d => decide (Carried d)) := by
  exact ((silent_of_run hrun honly).1 .a).delivered

instance (s : Duplex) (l : DuplexLabel) : Decidable (OneSided s l) :=
  match l with
  | .enqueue .b d => isFalse fun h => h d rfl
  | .enqueue .a _ | .setChunkSize .. | .send .. | .resend .. | .receive .. | .lose .. =>
    isTrue fun _ h => by cases h

/-- A datagram in three fragments, the second lost and retransmitted after the
third has been buffered, then an empty datagram and a short one. -/
def lossyRun : List DuplexLabel :=
  [.setChunkSize .a 5, .enqueue .a [1, 2, 3, 4, 5], .enqueue .a [], .enqueue .a [6],
    .send .a 0, .send .a 0, .send .a 0, .lose .a 1, .receive .b 0, .receive .b 0,
    .send .b (millis 15), .receive .a (millis 15), .resend .a, .receive .b (millis 15),
    .setChunkSize .a 20, .send .a (millis 15), .send .a (millis 15), .receive .b (millis 15),
    .receive .b (millis 15)]

/-- A run with losses in which both datagrams arrive. -/
theorem delivery_prefix_lossyRun :
    ∃ h s, system.Run h s ∧ System.Meets OneSided h ∧ h.map Prod.snd = lossyRun ∧
      (s.side .b).ch.datagramTx = [[1, 2, 3, 4, 5], [6]] ∧
      (s.side .b).ch.datagramTx <+:
        (s.side .a).accepted.filter (fun d => decide (Carried d)) := by
  obtain ⟨h, s, hrun, honly, hl, htx⟩ := System.Run.of_execMeets (C := OneSided)
    (P := fun s => (s.side .b).ch.datagramTx = [[1, 2, 3, 4, 5], [6]]) lossyRun init_twenty
    (by decide +kernel)
  exact ⟨h, s, hrun, honly, hl, htx, delivery_prefix hrun honly⟩

end Duplex

end IrohBle.Reliable
