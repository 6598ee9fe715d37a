import IrohBle.Registry.Deadlines
import IrohBle.Registry.SingleLive
import IrohBle.Registry.FailedDial

/-! # Registry.Recovery: no device is given up for good

Whatever has happened to an entry, the waits that it may be in run out: a dial that waits for its
backoff, a drain, a restore, a tombstone. After that an advertisement and a send have the device
dialled, unless the prefix has a live connection elsewhere.

* `isRested`: every wait is over.
* `Offered`: the device was seen, and has nothing to wait for but its own pause before a dial.
* `Awaits`: it is dialled, or will be by the next tick after a deadline.
-/

namespace IrohBle

open Lib Reliable Registry

/-- The phases that are left when no wait is under way. -/
def PeerPhase.isRested : PeerPhase → Bool
  | .unknown | .discovered _ | .connecting .. | .dead .drained _ => true
  | _ => false

/-- A dial is under way, or is put off to `deadline` at the latest. -/
def PeerPhase.Awaits (deadline : ℕ) : PeerPhase → Prop
  | .connecting .. => True
  | .pendingDial _ due _ => due ≤ deadline
  | _ => False

/-- A send is all that is missing for a dial. -/
def PeerPhase.Offered (deadline : ℕ) (phase : PeerPhase) : Prop :=
  (∃ since, phase = .discovered since) ∨ phase.Awaits deadline

/-- A `Connected` entry is verified for `p`. -/
def Registry.Reached (p : KeyPrefix) (r : Registry) : Prop :=
  ∃ d e endpoint, r.peer d = some e ∧ e.phase.isConnected = true ∧
    e.verifiedEndpoint = some endpoint ∧ prefixFromEndpoint endpoint = p

namespace Registry

open Turn

/-! ## What a tick does to an entry -/

section Ticked

variable {io : Io} {tickNow : ℕ} {e e' : PeerEntry}

/-- An entry that has nothing to wait for has no session. -/
theorem not_connected_of_rested {phase : PeerPhase} (h : phase.isRested = true) :
    phase.isConnected = false := by
  cases phase with
  | connected => cases h
  | _ => rfl

/-- Only a silent pipe makes a tick enter a wait. -/
theorem rested_of_tickApply (w : Edit) (systemNow : ℕ) {action : Edit.TickAction}
    (haction : action ≠ .connectedWedged) :
    (w.tickApply tickNow systemNow action).entry.phase.isRested = true := by
  have harm : ∀ w : Edit, (w.armForDial tickNow none).entry.phase.isRested = true := by
    intro w
    unfold Edit.armForDial
    split <;> rfl
  unfold Edit.tickApply
  cases action with
  | startConnect attempt => rfl
  | pendingDialExpired => rfl
  | drainingToDead =>
      dsimp only
      split
      · exact harm _
      · rfl
  | restoringToDead => rfl
  | connectedWedged => exact absurd rfl haction

/-- A tick connects no entry. -/
theorem Ticked.connected (h : Ticked io tickNow e e') (hconnected : e'.phase.isConnected = true) :
    e' = e := by
  cases h with
  | idle _ => rfl
  | @acts w action _ _ =>
      exfalso
      by_cases haction : action = .connectedWedged
      · rw [haction] at hconnected
        unfold Edit.tickApply at hconnected
        dsimp only at hconnected
        rw [Edit.push_entry, Edit.closeChannel_entry, Edit.drainToDraining_entry] at hconnected
        cases hconnected
      · rw [not_connected_of_rested (rested_of_tickApply w _ haction)] at hconnected
        cases hconnected

/-- Every wait that ends before a tick is over after it. -/
theorem Ticked.rested (h : Ticked io tickNow e e') (hdue : ∀ due ∈ e.phase.dueAt, due < tickNow)
    (hidle : e.phase.isConnected = false) (hhandshaking : e.phase.isHandshaking = false)
    (hkept : e'.phase.isExpired tickNow = false) : e'.phase.isRested = true := by
  cases h with
  | idle hdecides =>
      have hlate := due_of_undecided hdecides hkept
      cases hphase : e.phase with
      | unknown => rfl
      | discovered since => rfl
      | connecting attempt started path => rfl
      | connected since channel txGen upgrading =>
          rw [hphase] at hidle
          cases hidle
      | handshaking since channel =>
          rw [hphase] at hhandshaking
          cases hhandshaking
      | _ =>
          -- the wait is neither over nor under way
          rw [hphase] at hdue hlate
          exact absurd (hlate _ rfl) (Nat.not_le_of_lt (hdue _ rfl))
  | @acts w action _ hdecides =>
      refine rested_of_tickApply w _ ?_
      rintro rfl
      unfold Edit.tickDecision at hdecides
      cases hphase : e.phase with
      | connected since channel txGen upgrading =>
          rw [hphase] at hidle
          cases hidle
      | _ =>
          rw [hphase] at hdecides
          dsimp only at hdecides
          repeat' split at hdecides
          all_goals cases hdecides

/-- A tick leaves an entry alone that waits for nothing. -/
theorem Ticked.eq_of_rested (h : Ticked io tickNow e e') (hrested : e.phase.isRested = true) :
    e' = e := by
  cases h with
  | idle _ => rfl
  | acts _ hdecides =>
      unfold Edit.tickDecision at hdecides
      cases hphase : e.phase with
      | unknown | discovered | connecting | dead =>
          rw [hphase] at hdecides
          cases hdecides
      | _ =>
          rw [hphase] at hrested
          cases hrested

/-- What is put off stays put off no longer than before. -/
theorem Ticked.awaits {deadline : ℕ} (h : Ticked io tickNow e e') (hawaits : e.phase.Awaits deadline) :
    e'.phase.Awaits deadline := by
  cases h with
  | idle _ => exact hawaits
  | @acts w action _ hdecides =>
      unfold Edit.tickDecision at hdecides
      cases hphase : e.phase with
      | pendingDial since due p =>
          rw [hphase] at hdecides
          dsimp only at hdecides
          split at hdecides
          · obtain rfl := Option.some.inj hdecides
            trivial
          · cases hdecides
      | connecting =>
          rw [hphase] at hdecides
          cases hdecides
      | _ =>
          rw [hphase] at hawaits
          exact absurd hawaits id

/-- A dial is begun by the first tick after the time it was put off to. -/
theorem Ticked.connecting {deadline : ℕ} (h : Ticked io tickNow e e')
    (hawaits : e.phase.Awaits deadline) (hlate : deadline ≤ tickNow) :
    e'.phase.isConnecting = true := by
  have hafter := h.awaits hawaits
  have hdecides := h.undecided
  unfold Edit.tickDecision at hdecides
  cases hphase : e'.phase with
  | connecting => rfl
  | pendingDial since due p =>
      rw [hphase] at hdecides hafter
      dsimp only at hdecides
      have hdue : due ≤ deadline := hafter
      rw [if_pos (by omega)] at hdecides
      cases hdecides
  | _ =>
      rw [hphase] at hafter
      exact absurd hafter id

/-- A tick may dial the entry, which is then still on offer. -/
theorem Ticked.offered {deadline : ℕ} (h : Ticked io tickNow e e')
    (hoffered : e.phase.Offered deadline) : e'.phase.Offered deadline := by
  rcases hoffered with ⟨since, hphase⟩ | hawaits
  · have hsame := h.eq_of_rested (by rw [hphase]; rfl)
    exact .inl ⟨since, by rw [hsame, hphase]⟩
  · exact .inr (h.awaits hawaits)

theorem kept_of_offered {deadline : ℕ} {phase : PeerPhase} (h : phase.Offered deadline) :
    phase.isExpired tickNow = false := by
  rcases h with ⟨since, rfl⟩ | hawaits
  · rfl
  · cases phase with
    | dead => exact absurd hawaits id
    | _ => rfl

end Ticked

/-! ## The commands that bring a device back -/

section Commands

variable {r : Registry} {io : Io} {d : DeviceId}

/-- Nothing is waited for at a device. -/
def Rests (p : KeyPrefix) (d : DeviceId) (r : Registry) : Prop :=
  ¬ r.Reached p ∧ ∀ e, r.peer d = some e → e.phase.isRested = true

/-- The device is in a phase of `P`. -/
def Stands (P : PeerPhase → Prop) (d : DeviceId) (r : Registry) : Prop :=
  ∃ e, r.peer d = some e ∧ P e.phase

/-- The commands between the ones that matter: the watchdog's. -/
def Idle (_ : Registry) : Label → Prop
  | .reorder _ => True
  | .command _ cmd => cmd.isTick = true

/-- No tick makes a prefix live. -/
theorem not_reached_of_tick (hset : r.Settled) {tickNow : ℕ} {p : KeyPrefix} (hlone : ¬ r.Reached p) :
    ¬ (r.handle io (.tick tickNow)).reg.Reached p := by
  rintro ⟨d, e', endpoint, he', hconnected, hverified⟩
  obtain ⟨e, he, hticked, -⟩ := peer_of_tick hset he'
  obtain rfl := hticked.connected hconnected
  exact hlone ⟨d, e', endpoint, he, hconnected, hverified⟩

/-- When all waits have run out, a tick ends them. -/
theorem rests_of_tick (hset : r.Settled) {tickNow : ℕ} {p : KeyPrefix} (hlone : ¬ r.Reached p)
    (hidle : ∀ e, r.peer d = some e → e.phase.isConnected = false)
    (hdue : ∀ e, r.peer d = some e → ∀ due ∈ e.phase.dueAt, due < tickNow) :
    Rests p d (r.handle io (.tick tickNow)).reg := by
  refine ⟨not_reached_of_tick hset hlone, ?_⟩
  intro e' he'
  obtain ⟨e, he, hticked, hkept⟩ := peer_of_tick hset he'
  exact hticked.rested (hdue e he) (hidle e he) (hset d e he).shaking hkept

/-- An advertisement is not turned down where the prefix is not reached. -/
theorem peer_handle_advertised {p : KeyPrefix} (hlone : ¬ r.Reached p) (rssi : Option ℤ) :
    ∃ (w : Edit) (deferPrefix : Option KeyPrefix),
      w.entry = (r.peer d).getD (newEntry r.nextLifecycle d) ∧
      (r.handle io (.advertised p d rssi)).reg.peer d =
        some (w.advertised io.now p deferPrefix).entry := by
  have hlive : ((start r).reg.peers.values.any fun e => (e.verifiedEndpoint.any fun id =>
      decide (prefixFromEndpoint id = p)) && e.phase.isConnected) = false := by
    rw [Bool.eq_false_iff]
    intro hany
    obtain ⟨e, hmem, he⟩ := List.any_eq_true.mp hany
    rw [Bool.and_eq_true] at he
    obtain ⟨endpoint, hverified, hkey⟩ := (Option.any_eq_true _ _).mp he.1
    obtain ⟨d', hd'⟩ := (Map.mem_values_iff _ _).mp hmem
    exact hlone ⟨d', e, endpoint, hd', he.2, hverified, of_decide_eq_true hkey⟩
  have hhandle : r.handle io (.advertised p d rssi) = (start r).handleAdvertised io p d := rfl
  rw [hhandle]
  unfold handleAdvertised
  dsimp only
  rw [hlive, if_neg Bool.false_ne_true, peer_restoreVerified]
  cases he : r.peer d with
  | none =>
      have hnew := peer_insertNew_self (start r) d
      rw [ensure_of_none (t := start r) he, edit_of_some hnew, peer_store hnew, if_pos rfl]
      exact ⟨_, _, rfl, rfl⟩
  | some e =>
      have hstart : (start r).reg.peer d = some e := he
      rw [ensure_of_some hstart, edit_of_some hstart, peer_store hstart, if_pos rfl]
      exact ⟨_, _, rfl, rfl⟩

/-- An advertised entry is on offer within the fairness window. -/
theorem offered_of_armForDial (w : Edit) (now : ℕ) (deferPrefix : Option KeyPrefix) :
    (w.armForDial now deferPrefix).entry.phase.Offered (now + secs 1) := by
  obtain ⟨phase, _, _, hentry, hphase⟩ := w.armForDial_entry now deferPrefix
  rw [hentry]
  rcases hphase with rfl | ⟨p, rfl⟩ | rfl
  · exact .inl ⟨now, rfl⟩
  · exact .inr (Nat.le_of_lt (pendingDialDeadline_bounds now p).2)
  · exact .inr trivial

/-- A device that rests is offered for a dial as soon as it is seen. -/
theorem offered_of_advertised {w : Edit} (now : ℕ) (p : KeyPrefix) (deferPrefix : Option KeyPrefix)
    (hrested : w.entry.phase.isRested = true) :
    (w.advertised now p deferPrefix).entry.phase.Offered (now + secs 1) := by
  unfold Edit.advertised
  dsimp only
  generalize hw : Edit.modify _ w = w₁
  have hrested₁ : w₁.entry.phase.isRested = true := by
    rw [← hw]
    exact hrested
  cases hphase : w₁.entry.phase with
  | unknown => exact offered_of_armForDial _ _ _
  | discovered since =>
      dsimp only
      split
      · exact .inl ⟨since, hphase⟩
      · exact offered_of_armForDial _ _ _
  | connecting attempt started path =>
      dsimp only
      rw [hphase]
      exact .inr trivial
  | dead reason diedAt =>
      rw [hphase] at hrested₁
      cases reason with
      | drained => exact offered_of_armForDial _ _ _
      | _ => cases hrested₁
  | _ =>
      rw [hphase] at hrested₁
      cases hrested₁

/-- A send for a device that is offered has it dialled. -/
theorem awaits_of_sendDatagram {w : Edit} (io : Io) (target : Option EndpointId)
    (send : PendingSend) {deadline : ℕ} (hoffered : w.entry.phase.Offered deadline) :
    (w.sendDatagram io target send).entry.phase.Awaits deadline := by
  unfold Edit.sendDatagram Edit.sendDecision
  rcases hoffered with ⟨since, hphase⟩ | hawaits
  · rw [hphase]
    trivial
  · cases hphase : w.entry.phase with
    | connecting attempt started path | pendingDial since due p =>
        rw [hphase] at hawaits
        dsimp only
        rw [Edit.push_entry]
        unfold Edit.buffer
        rw [Edit.modify_entry]
        dsimp only
        rw [hphase]
        exact hawaits
    | _ =>
        rw [hphase] at hawaits
        exact absurd hawaits id

end Commands

/-! ## Along a run -/

section Run

variable {h k : List (Registry × Label)} {x r : Registry} {d : DeviceId} {p : KeyPrefix} {io : Io}

/-- Every command so far was handled at `now` or before. -/
def Before (now : ℕ) (_ : Registry) : Label → Prop
  | .reorder _ => True
  | .command io cmd => cmd.clock io ≤ now

/-- No wait is longer than that of a restore. -/
theorem due_le_of_run {now : ℕ} (hrun : system.Run h r) (hbefore : System.Meets (Before now) h)
    {e : PeerEntry} (he : r.peer d = some e) :
    ∀ due ∈ e.phase.dueAt, due ≤ now + restoringTimeout := by
  induction hrun generalizing e with
  | init hs =>
      obtain ⟨policy, me, rfl⟩ := hs
      cases he
  | @step h r r' l hr hs ih =>
      rw [System.meets_append, System.meets_singleton] at hbefore
      cases l with
      | reorder ks =>
          rw [peer_reorder hs] at he
          exact ih hbefore.1 he
      | command io cmd =>
          obtain rfl := Option.some.inj hs
          have hle : cmd.clock io ≤ now := hbefore.2
          refine due_of_handle (Q := fun due => due ≤ now + restoringTimeout) ?_
            (fun e he => ih hbefore.1 he) e he
          intro due _ hdue
          omega

/-- Ticks and a new order of the map go by. -/
theorem stands_of_idle {P : PeerPhase → Prop} {l : Label} {r' : Registry}
    (hP : ∀ {io tickNow e e'}, Ticked io tickNow e e' → P e.phase →
      P e'.phase ∧ e'.phase.isExpired tickNow = false)
    (hset : r.Settled) (hl : Idle r l) (hstands : Stands P d r) (hs : system.step l r = some r') :
    Stands P d r' := by
  obtain ⟨e, he, hphase⟩ := hstands
  cases l with
  | reorder ks =>
      refine ⟨e, ?_, hphase⟩
      rw [peer_reorder hs]
      exact he
  | command io cmd =>
      obtain rfl := Option.some.inj hs
      cases cmd with
      | tick tickNow =>
          obtain ⟨e', hticked, hpeer⟩ := peer_tick hset io tickNow he
          obtain ⟨hafter, hkept⟩ := hP hticked hphase
          rw [hkept, if_neg Bool.false_ne_true] at hpeer
          exact ⟨e', hpeer, hafter⟩
      | _ => cases hl

/-- Steps that are not about the device leave it at rest. -/
theorem rests_of_idle {l : Label} {r' : Registry} (hset : r.Settled) (hl : Idle r l)
    (hrests : Rests p d r) (hs : system.step l r = some r') : Rests p d r' := by
  cases l with
  | reorder ks =>
      refine ⟨?_, ?_⟩
      · rintro ⟨d', e, endpoint, he, hreached⟩
        rw [peer_reorder hs] at he
        exact hrests.1 ⟨d', e, endpoint, he, hreached⟩
      · intro e he
        rw [peer_reorder hs] at he
        exact hrests.2 e he
  | command io cmd =>
      obtain rfl := Option.some.inj hs
      cases cmd with
      | tick tickNow =>
          refine ⟨not_reached_of_tick hset hrests.1, ?_⟩
          intro e' he'
          obtain ⟨e, he, hticked, -⟩ := peer_of_tick hset he'
          rw [hticked.eq_of_rested (hrests.2 e he)]
          exact hrests.2 e he
      | _ => cases hl

/-- Once a tick has come late enough, every wait of the device is over and stays over. -/
theorem rests_of_run {tickNow : ℕ} (hrun : system.Run (h ++ (x, .command io (.tick tickNow)) :: k) r)
    (hgap : System.Meets Idle k) {now : ℕ} (hbefore : System.Meets (Before now) h)
    (hlate : now + restoringTimeout < tickNow) (hlone : ¬ x.Reached p)
    (hidle : ∀ e, x.peer d = some e → e.phase.isConnected = false) : Rests p d r := by
  apply hrun.after hgap
  · intro s hx hs
    obtain rfl := Option.some.inj hs
    apply rests_of_tick (settled_of_run hx) hlone hidle
    intro e he due hdue
    exact (due_le_of_run hx hbefore he due hdue).trans_lt hlate
  · intro h s l s' hr hl hrests hs
    exact rests_of_idle (settled_of_run hr) hl hrests hs

/-- An advertisement after that puts the device on offer. -/
theorem offered_of_run {rssi : Option ℤ}
    (hrun : system.Run (h ++ (x, .command io (.advertised p d rssi)) :: k) r)
    (hgap : System.Meets Idle k) (hrests : Rests p d x) :
    Stands (PeerPhase.Offered (io.now + secs 1)) d r := by
  apply hrun.after hgap
  · intro s hx hs
    obtain rfl := Option.some.inj hs
    obtain ⟨w, deferPrefix, hw, hpeer⟩ := peer_handle_advertised hrests.1 rssi
    refine ⟨_, hpeer, offered_of_advertised _ _ _ ?_⟩
    rw [hw]
    cases he : x.peer d with
    | none => rfl
    | some e => exact hrests.2 e he
  · intro h s l s' hr hl hstands hs
    refine stands_of_idle ?_ (settled_of_run hr) hl hstands hs
    intro io tickNow e e' hticked hoffered
    exact ⟨hticked.offered hoffered, kept_of_offered (hticked.offered hoffered)⟩

/-- A send has the peer dialled, at once or at the deadline. -/
theorem awaits_of_run {target : Option EndpointId} {txGen deadline : ℕ} {datagram : Bytes}
    {waker : Waker}
    (hrun : system.Run
      (h ++ (x, .command io (.sendDatagram d target txGen datagram waker)) :: k) r)
    (hgap : System.Meets Idle k) (hoffered : Stands (PeerPhase.Offered deadline) d x) :
    Stands (PeerPhase.Awaits deadline) d r := by
  apply hrun.after hgap
  · intro s hx hs
    obtain rfl := Option.some.inj hs
    obtain ⟨e, he, hphase⟩ := hoffered
    obtain ⟨w, hw, hpeer⟩ := peer_handle_sendDatagram x io d target txGen datagram waker
    refine ⟨_, hpeer, awaits_of_sendDatagram _ _ _ ?_⟩
    rw [hw, he]
    exact hphase
  · intro h s l s' hr hl hstands hs
    refine stands_of_idle ?_ (settled_of_run hr) hl hstands hs
    intro io tickNow e e' hticked hawaits
    exact ⟨hticked.awaits hawaits, kept_of_offered (.inr (hticked.awaits hawaits))⟩

end Run

/-- Whatever state a device is left in, if it is not connected, and if no live connection is
verified for its prefix, then it is dialled again: once the longest wait is over, an advertisement
and a send are enough, and a second of time for the side that lets the other one dial first. The
watchdog may tick in between as it likes. -/
theorem recovers {h₀ k₁ k₂ k₃ : List (Registry × Label)} {x₀ x₁ x₂ x₃ r : Registry}
    {io₀ io₁ io₂ io₃ : Io} {d : DeviceId} {p : KeyPrefix} {rssi : Option ℤ} {target : Option EndpointId}
    {now t₀ t₃ txGen : ℕ} {datagram : Bytes} {waker : Waker}
    (hrun : system.Run (h₀ ++ (x₀, .command io₀ (.tick t₀)) :: k₁ ++
      (x₁, .command io₁ (.advertised p d rssi)) :: k₂ ++
      (x₂, .command io₂ (.sendDatagram d target txGen datagram waker)) :: k₃ ++
      [(x₃, .command io₃ (.tick t₃))]) r)
    (hidle : ∀ e, x₀.peer d = some e → e.phase.isConnected = false) (hlone : ¬ x₀.Reached p)
    (hbefore : System.Meets (Before now) h₀) (hlate : now + restoringTimeout < t₀)
    (hgap₁ : System.Meets Idle k₁) (hgap₂ : System.Meets Idle k₂) (hgap₃ : System.Meets Idle k₃)
    (hsecond : io₁.now + secs 1 ≤ t₃) :
    ∃ e, r.peer d = some e ∧ e.phase.isConnecting = true := by
  obtain ⟨hrun₃, hs⟩ := hrun.snoc_inv
  have hrun₂ := hrun₃.before
  have hrun₁ := hrun₂.before
  have hrests := rests_of_run hrun₁ hgap₁ hbefore hlate hlone hidle
  have hoffered := offered_of_run hrun₂ hgap₂ hrests
  obtain ⟨e, he, hawaits⟩ := awaits_of_run hrun₃ hgap₃ hoffered
  obtain ⟨e', hticked, hpeer⟩ := peer_tick (settled_of_run hrun₃) io₃ t₃ he
  have hkept : e'.phase.isExpired t₃ = false := kept_of_offered (.inr (hticked.awaits hawaits))
  rw [hkept, if_neg Bool.false_ne_true] at hpeer
  obtain rfl := Option.some.inj hs
  exact ⟨e', hpeer, hticked.connecting hawaits hsecond⟩

/-- The adapter goes off during a dial and does not come back before the restore runs out. -/
def lapsedRun : List Label := dialRun ++ [.command (ioAt 2) (.adapterStateChanged false)]

/-- On a run: the restore runs out, the device advertises, a datagram is sent, and it is dialled. -/
theorem recovers_lapsedRun :
    ∃ h r, system.Run h r ∧ h.map Prod.snd =
      lapsedRun ++ .command (ioAt 0) (.tick (3 + secs 120)) ::
        [.command (ioAt 0) (.tick (4 + secs 120))] ++
      .command (ioAt (5 + secs 120)) (.advertised peerPrefix "peer" none) :: [] ++
      .command (ioAt (6 + secs 120)) (.sendDatagram "peer" none 0 [2] 0) :: [] ++
      [.command (ioAt 0) (.tick (5 + secs 121))] ∧
      ∃ e, r.peer "peer" = some e ∧ e.phase.isConnecting = true := by
  obtain ⟨h, r, hrun, hl, hidle, hlone⟩ := System.Run.of_trace
    (P := fun h _ => (h[3]?.any fun x => (x.1.peer "peer").all fun e => !e.phase.isConnected) = true ∧
      (h[3]?.any fun x => x.1.peers.values.all fun e => e.verifiedEndpoint.isNone) = true)
    (lapsedRun ++ .command (ioAt 0) (.tick (3 + secs 120)) ::
        [.command (ioAt 0) (.tick (4 + secs 120))] ++
      .command (ioAt (5 + secs 120)) (.advertised peerPrefix "peer" none) :: [] ++
      .command (ioAt (6 + secs 120)) (.sendDatagram "peer" none 0 [2] 0) :: [] ++
      [.command (ioAt 0) (.tick (5 + secs 121))])
    (init_new .disabled localEndpoint) (by decide +kernel)
  refine ⟨h, r, hrun, hl, ?_⟩
  -- the run is taken apart at its ticks, from behind
  obtain ⟨h, x₃, k₄, rfl, hl₃, hk₄⟩ := System.split_labels hl
  obtain rfl := List.map_eq_nil_iff.mp hk₄
  obtain ⟨h, x₂, k₃, rfl, hl₂, hk₃⟩ := System.split_labels hl₃
  obtain ⟨h, x₁, k₂, rfl, hl₁, hk₂⟩ := System.split_labels hl₂
  obtain ⟨h₀, x₀, k₁, rfl, hl₀, hk₁⟩ := System.split_labels hl₁
  have hlength : h₀.length = 3 := by simpa [lapsedRun, dialRun] using congrArg List.length hl₀
  rw [List.append_assoc, List.append_assoc, List.append_assoc, List.cons_append,
    List.getElem?_append_right (by omega), hlength] at hidle hlone
  have hmeets : ∀ {C : Registry → Label → Prop} {k : List (Registry × Label)} {ls : List Label},
      k.map Prod.snd = ls → (∀ l ∈ ls, ∀ r, C r l) → System.Meets C k := by
    intro C k ls hk hls x hx
    exact hls x.2 (hk ▸ List.mem_map_of_mem hx) x.1
  have hbefore : System.Meets (Before 2) h₀ := by
    refine hmeets hl₀ ?_
    simp [lapsedRun, dialRun, Before, PeerCommand.clock, ioAt]
  have hgap : System.Meets Idle k₁ := by
    refine hmeets hk₁ ?_
    simp [Idle, PeerCommand.isTick]
  refine recovers hrun ?_ ?_ hbefore (by decide) hgap (hmeets hk₂ (by simp)) (hmeets hk₃ (by simp))
    (by decide)
  · intro e he
    have hall : (x₀.peer "peer").all (fun e => !e.phase.isConnected) = true := hidle
    rw [he] at hall
    exact Bool.not_eq_true' _ ▸ hall
  · rintro ⟨d, e, endpoint, he, -, hverified, -⟩
    have hall : (x₀.peers.values.all fun e => e.verifiedEndpoint.isNone) = true := hlone
    have hnone := List.all_eq_true.mp hall e ((Map.mem_values_iff _ _).mpr ⟨d, he⟩)
    rw [hverified] at hnone
    cases hnone

end Registry

end IrohBle
