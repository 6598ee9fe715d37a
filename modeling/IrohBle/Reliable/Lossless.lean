import IrohBle.Reliable.Delivery
import IrohBle.Reliable.Sender

/-! # Reliable.Lossless: the GATT path without loss

Runs of `Duplex` in which only `a` sends, the links lose nothing and no queue overflows.

* `delivered_all`: once `a` has nothing left to send or to hear an acknowledgement of, `b` has
  delivered every datagram the channel carries, in order.
* `run_delivers`: for every list of datagrams and every chunk size there is a run that gets
  there. It sends one fragment at a time: the fragment is accepted, acknowledged after the
  delay, and popped (`Calm.round`).
-/

namespace IrohBle.Reliable

open ReliableChannel Lib

namespace Duplex

/-- `a` sends, nothing is lost, and every datagram finds room in the queue. -/
def LossFree (s : Duplex) : DuplexLabel → Prop
  | .enqueue .a d => (enqueueDatagram d (s.side .a).ch).2 = true
  | .enqueue .b _ => False
  | .lose _ _ => False
  | _ => True

instance (s : Duplex) (l : DuplexLabel) : Decidable (LossFree s l) :=
  match l with
  | .enqueue .a d => inferInstanceAs (Decidable ((enqueueDatagram d (s.side .a).ch).2 = true))
  | .enqueue .b _ => inferInstanceAs (Decidable False)
  | .lose _ _ => inferInstanceAs (Decidable False)
  | .setChunkSize _ _ | .send _ _ | .resend _ | .receive _ _ => inferInstanceAs (Decidable True)

/-- The datagram a step hands to the channel. -/
def handed : DuplexLabel → Option Bytes
  | .enqueue .a d => some d
  | _ => none

/-- The datagrams handed to the channel of `a`, in order. -/
def outbound (h : List (Duplex × DuplexLabel)) : List Bytes := h.filterMap fun x => handed x.2

/-- `a` has sent everything, and everything was acknowledged. -/
structure Idle (s : Duplex) : Prop where
  sendQueue : (s.side .a).ch.state.sendQueue = []
  fragQueue : (s.side .a).ch.state.fragQueue = []
  inFlight : (s.side .a).ch.state.inFlight = []

instance (s : Duplex) : Decidable s.Idle :=
  decidable_of_iff ((s.side .a).ch.state.sendQueue = [] ∧ (s.side .a).ch.state.fragQueue = [] ∧
      (s.side .a).ch.state.inFlight = [])
    ⟨fun h => ⟨h.1, h.2.1, h.2.2⟩, fun h => ⟨h.sendQueue, h.fragQueue, h.inFlight⟩⟩

/-- A step without loss in which only `a` sends is one-sided. -/
theorem oneSided_of_lossFree {s : Duplex} {l : DuplexLabel} (h : LossFree s l) : OneSided s l := by
  intro d hl
  rw [hl] at h
  exact h

/-- What `a` has accepted is what was handed to it. -/
theorem accepted_step {s s' : Duplex} {l : DuplexLabel} (hl : LossFree s l)
    (hs : system.step l s = some s') :
    (s'.side .a).accepted = (s.side .a).accepted ++ (handed l).toList := by
  -- a side that has accepted nothing new
  have hupdate : ∀ (w : Node) (p : Side), p.accepted = (s.side w).accepted →
      (Function.update s.side w p .a).accepted = (s.side .a).accepted := by
    intro w p hp
    cases w with
    | a => simpa using hp
    | b => simp
  cases l with
  | enqueue w d =>
      cases w with
      | b => exact hl.elim
      | a =>
          obtain rfl := Option.some.inj hs
          change (enqueueDatagram d (s.side .a).ch).2 = true at hl
          simp [handed, Side.enqueue, hl]
  | setChunkSize w n =>
      change (if 4 ≤ n then _ else none) = _ at hs
      split at hs
      · obtain rfl := Option.some.inj hs
        simpa [handed] using hupdate w ((s.side w).setChunkSize n) rfl
      · cases hs
  | send w now =>
      change (if s.clock ≤ now then _ else none) = _ at hs
      split at hs
      · obtain rfl := Option.some.inj hs
        simpa [handed] using hupdate w _ (accepted_send _ now)
      · cases hs
  | resend w =>
      obtain rfl := Option.some.inj hs
      simpa [handed] using hupdate w _ (accepted_resend _)
  | receive w now =>
      rcases receive_eq hs with ⟨k, ks, -, rfl⟩
      have := hupdate w ((s.side w).receive now k) rfl
      simpa [handed] using this
  | lose w i => exact hl.elim

/-- What the channel has accepted is what it was handed. -/
theorem accepted_outbound {h : List (Duplex × DuplexLabel)} {s : Duplex} (hrun : system.Run h s)
    (hfree : System.Meets LossFree h) : (s.side .a).accepted = outbound h := by
  induction hrun with
  | init hs =>
      obtain ⟨chunkSize, now, -, rfl⟩ := hs
      rfl
  | @step h s s' l _ hs ih =>
      rw [System.meets_append, System.meets_singleton] at hfree
      rw [accepted_step hfree.2 hs, ih hfree.1, outbound, outbound, List.filterMap_append]
      cases hl : handed l <;> simp [hl]

/-- A sender with nothing in flight has been heard to the end. -/
theorem rcvd_of_idle {p q : Side} {lp lq : List Packet} (h : PairInv p q lp lq)
    (hflight : p.ch.state.inFlight = []) : p.base = p.next ∧ q.rcvd = p.next := by
  have hlen := h.left.inFlight_length
  rw [hflight, List.length_nil] at hlen
  have h1 : p.base ≤ q.rcvd := h.out.window.base_le
  have h2 : q.rcvd ≤ p.next := h.out.window.rcvd_le
  omega

/-- Everything handed to an idle channel has been delivered, as far as it is carried. -/
theorem delivered_all {h : List (Duplex × DuplexLabel)} {s : Duplex} (hrun : system.Run h s)
    (hfree : System.Meets LossFree h) (hidle : s.Idle) :
    (s.side .b).ch.datagramTx = (outbound h).filter (fun d => decide (Carried d)) := by
  have honly : System.Meets OneSided h := fun x hx => oneSided_of_lossFree (hfree x hx)
  have hpair := (silent_of_run hrun honly).1 .a
  obtain ⟨-, hrcvd⟩ := rcvd_of_idle hpair hidle.inFlight
  obtain ⟨ds, hds⟩ := hpair.left.cut
  have hsent : (s.side .a).sent = ds.flatMap fun x => fragments x.1 x.2 := by
    rw [← hds.frags, hidle.fragQueue, List.append_nil]
  have haccepted : ds.map Prod.snd = outbound h := by
    rw [← accepted_outbound hrun hfree, hds.accepted, hidle.sendQueue, List.append_nil]
  have hasm : asmOf (s.side .b).ch = acceptAll Asm.init (s.side .a).sent := by
    have htake : (s.side .a).sent.take (s.side .b).rcvd = (s.side .a).sent := by
      apply List.take_of_length_le
      rw [hpair.left.sent]
      exact hrcvd.ge
    have := hpair.out.receives.asm
    rwa [show (s.side Node.a.other) = s.side .b from rfl, htake] at this
  have htx := congrArg Asm.delivered hasm
  rw [hsent, deliver_flatMap ds hds.chunk Asm.init, haccepted] at htx
  exact htx

/-! ## One fragment at a time -/

/-- A fragment at the head of the queue goes out while the window has room. -/
theorem send_data {p : Side} {f : FragmentEntry} {rest : List FragmentEntry}
    (hack : ∀ v, p.ch.state.ackPending = some v → Wraps v (p.rcvd + 15))
    (hnext : Wraps p.ch.state.sendNext p.next) (halive : p.ch.state.linkDead = false)
    (hcan : (refill p.ch).state.canSend = true)
    (hqueue : (refill p.ch).state.fragQueue = f :: rest) (now : ℕ) :
    p.send now =
      ({ p with
         ch := (sendFragment now f rest (refill p.ch)).1
         next := p.next + 1
         flight := p.flight ++ [Side.packet f { p with ch := refill p.ch }]
         sent := p.sent ++ [f] },
        some (Side.packet f { p with ch := refill p.ch })) := by
  have heq : nextSendAction now p.ch = sendFragment now f rest (refill p.ch) := by
    simp [nextSendAction, halive, hcan, refill_refill, hqueue]
  obtain ⟨msg, hmsg⟩ : ∃ msg, (sendFragment now f rest (refill p.ch)).2 = .send msg := ⟨_, rfl⟩
  obtain ⟨hfl, -⟩ := sendFragment_spec now f rest (refill p.ch) hmsg
  obtain ⟨-, -, hff, -⟩ := refill_frame p.ch
  -- the message carries a number, so the other outcomes of a call are excluded
  have hidx : ((p.send now).2.map (·.idx)) = some (some p.next) := by
    have hlen : p.ch.state.inFlight.length <
        (sendFragment now f rest (refill p.ch)).1.state.inFlight.length := by
      rw [hfl, hff]
      simp
    unfold Side.send
    dsimp only
    rw [heq, hmsg]
    simp [hlen]
  have hstep := Side.send_cases hack hnext now
  generalize p.send now = r at hidx hstep
  cases hstep with
  | @data frag rest' p₁ hp₁ _ hq =>
      subst hp₁
      rw [show ({ p with ch := refill p.ch } : Side).ch.state.fragQueue = f :: rest from hqueue,
        List.cons.injEq] at hq
      obtain ⟨rfl, rfl⟩ := hq
      rfl
  | pureAck _ _ => cases hidx
  | idle _ => cases hidx

/-- A side with nothing to send acknowledges once the delay is over. -/
theorem send_ack {q : Side} (hack : ∀ v, q.ch.state.ackPending = some v → Wraps v (q.rcvd + 15))
    (hnext : Wraps q.ch.state.sendNext q.next) (halive : q.ch.state.linkDead = false)
    (hsend : q.ch.state.sendQueue = []) (hfrag : q.ch.state.fragQueue = [])
    (hpending : q.ch.state.ackPending.isSome = true) {now : ℕ}
    (hdeadline : ∀ dl, q.ch.state.ackDeadline = some dl → dl ≤ now) :
    q.send now = ({ q with ch := { q.ch with state := q.ch.state.takeAck } },
      some ⟨[0, ackByte (some q.rcvd)], none, some q.rcvd⟩) := by
  -- nothing is left to cut
  have hrefill : refill q.ch = q.ch := by
    unfold refill
    rw [hsend, hfrag]
  obtain ⟨v, hv⟩ := Option.isSome_iff_exists.mp hpending
  -- the acknowledgement is due
  have hall : q.ch.state.ackDeadline.all (· ≤ now) = true := by
    cases hdl : q.ch.state.ackDeadline with
    | none => rfl
    | some dl => simpa using hdeadline dl hdl
  have heq : nextSendAction now q.ch =
      ({ q.ch with state := q.ch.state.takeAck }, .send (setAck [0, 0] v)) := by
    unfold nextSendAction
    simp only [halive, hrefill, hfrag, Bool.false_eq_true, if_false, sendPureAck, hv, hall, if_true]
    split <;> rfl
  -- an acknowledgement by itself has no number
  have hidx : ((q.send now).2.map (·.idx)) = some none := by
    have hlen : ¬ q.ch.state.inFlight.length < q.ch.state.takeAck.inFlight.length :=
      lt_irrefl q.ch.state.inFlight.length
    unfold Side.send
    dsimp only
    rw [heq]
    simp [hlen]
  have hstep := Side.send_cases hack hnext now
  generalize q.send now = r at hidx hstep
  cases hstep with
  | data _ _ _ => cases hidx
  | pureAck _ hch =>
      rw [hch, hrefill]
  | idle _ => cases hidx

/-- The fragment a receiver with an empty buffer waits for. -/
theorem receive_next {p q : Side} {lp lq : List Packet} (h : PairInv p q lp lq)
    (hflight : p.ch.state.inFlight = []) {k : Packet} {f : FragmentEntry} {seq : UInt8}
    (hseq : Wraps seq p.next) (hdata : (f.first || f.last || !f.payload.isEmpty) = true)
    (hk : k.bytes = dataByte seq f.first f.last :: ackByte none :: (f.payload ++ [fragmentCanary]))
    (now : ℕ) :
    (q.receive now k).ch = acceptAndDeliver now f.first f.last f.payload q.ch ∧
      (q.receive now k).rcvd = q.rcvd + 1 := by
  obtain ⟨-, hrcvd⟩ := rcvd_of_idle h hflight
  have hR := h.out.receives
  have hse : seq = q.ch.state.recvNext := by
    rw [← hrcvd] at hseq
    exact hseq.inj hR.wraps
  -- what is buffered would lie between what was received and what was sent
  have hbuf : q.ch.state.recvBuf = [] := by
    cases hcons : q.ch.state.recvBuf with
    | nil => rfl
    | cons g gs =>
        have hmem : absIdx q.rcvd q.ch.state.recvNext g ∈ heldIdx q.rcvd q.ch := by
          unfold heldIdx
          rw [hcons]
          exact List.mem_map_of_mem List.mem_cons_self
        have hlt : absIdx q.rcvd q.ch.state.recvNext g < p.next := (h.out.window.buf _ hmem).2
        have hge := le_of_mem_heldIdx hmem
        omega
  have hch : receiveFragment now k.bytes q.ch =
      acceptAndDeliver now f.first f.last f.payload q.ch := by
    rw [hk, receiveFragment_data now hseq none hdata]
    unfold applyAck receiveData drainRecvBuf
    rw [if_pos hse, (acceptAndDeliver_recv now f.first f.last f.payload q.ch).2.1, hbuf]
    rfl
  refine ⟨hch, ?_⟩
  show unwrap q.rcvd q.ch.state.recvNext (receiveFragment now k.bytes q.ch).state.recvNext = _
  rw [hch, (acceptAndDeliver_recv now f.first f.last f.payload q.ch).1]
  exact unwrap_eq hR.wraps hR.wraps.succ (by omega) (by omega)

/-- The acknowledgement of everything sent empties `in_flight`. -/
theorem receive_all_acked {p q : Side} {lp : List Packet} {k : Packet}
    (h : PairInv p q lp [k]) (hk : k.bytes = [0, ackByte (some p.next)])
    (hone : p.next = p.base + 1) (now : ℕ) :
    (p.receive now k).ch =
      notifyOne { p.ch with state := { p.ch.state with
        inFlight := []
        sendBase := UInt8.ofNat (p.next % 16)
        lastProgressAt := now } } := by
  have hlen := h.left.inFlight_length
  have hspec := receiveAck_spec h.left.base h.left.next hlen (by omega) (by omega)
    (le_refl p.next) (by omega) now
  rw [if_pos (by omega)] at hspec
  have hdrop : p.ch.state.inFlight.drop (p.next - p.base) = [] := by
    apply List.drop_of_length_le
    omega
  show receiveFragment now k.bytes p.ch = _
  rw [hk, receiveFragment_pureAck]
  show receiveAck now (UInt8.ofNat ((p.next + 15) % 16)) p.ch = _
  rw [hspec, hdrop]

/-- Two endpoints and what is on the links between them. -/
def joined (p q : Side) (lp lq : List Packet) (t : ℕ) : Duplex where
  side
    | .a => p
    | .b => q
  link
    | .a => lp
    | .b => lq
  clock := t

section Joined

variable {p q p' q' : Side} {lp lq : List Packet} {k : Packet} {t now : ℕ}

/-- `a` sends, with the links written out. -/
theorem step_send_a (hnow : t ≤ now) (hsend : p.send now = (p', some k)) :
    system.step (.send .a now) (joined p q lp lq t) = some (joined p' q (lp ++ [k]) lq now) := by
  show (if t ≤ now then some _ else none) = _
  rw [if_pos hnow, show ((joined p q lp lq t).side .a).send now = (p', some k) from hsend]
  congr 1
  unfold joined
  congr 1 <;> funext w <;> cases w <;> simp

/-- `b` sends. -/
theorem step_send_b (hnow : t ≤ now) (hsend : q.send now = (q', some k)) :
    system.step (.send .b now) (joined p q lp lq t) = some (joined p q' lp (lq ++ [k]) now) := by
  show (if t ≤ now then some _ else none) = _
  rw [if_pos hnow, show ((joined p q lp lq t).side .b).send now = (q', some k) from hsend]
  congr 1
  unfold joined
  congr 1 <;> funext w <;> cases w <;> simp

/-- `a` receives the next message of `b`. -/
theorem step_receive_a (hnow : t ≤ now) :
    system.step (.receive .a now) (joined p q lp (k :: lq) t) =
      some (joined (p.receive now k) q lp lq now) := by
  show (if t ≤ now then some _ else none) = _
  rw [if_pos hnow]
  congr 1
  unfold joined
  congr 1 <;> funext w <;> cases w <;> simp [Node.other]

/-- `b` receives the next message of `a`. -/
theorem step_receive_b (hnow : t ≤ now) :
    system.step (.receive .b now) (joined p q (k :: lp) lq t) =
      some (joined p (q.receive now k) lp lq now) := by
  show (if t ≤ now then some _ else none) = _
  rw [if_pos hnow]
  congr 1
  unfold joined
  congr 1 <;> funext w <;> cases w <;> simp [Node.other]

/-- `a` is handed a datagram. -/
theorem step_enqueue_a (d : Bytes) :
    system.step (.enqueue .a d) (joined p q lp lq t) = some (joined (p.enqueue d) q lp lq t) := by
  show some _ = _
  congr 1
  unfold joined
  congr 1
  funext w
  cases w <;> simp

end Joined

/-- Nothing is on its way from `p` to `q`: nothing is in flight, and nobody owes an
acknowledgement. -/
structure Calm (p q : Side) : Prop where
  pair : PairInv p q [] []
  silent : q.accepted = []
  inFlight : p.ch.state.inFlight = []
  alive : p.ch.state.linkDead = false ∧ q.ch.state.linkDead = false
  ackPending : p.ch.state.ackPending = none ∧ q.ch.state.ackPending = none
  ackDeadline : q.ch.state.ackDeadline = none

/-- A fragment is sent and accepted; later it is acknowledged, and popped. -/
def roundTrip (t t' : ℕ) : List DuplexLabel :=
  [.send .a t, .receive .b t, .send .b t', .receive .a t']

/-- A side that accepted no datagram has none queued. -/
theorem queues_of_silent {p : Side} (h : SideInv p) (ha : p.accepted = []) :
    p.ch.state.sendQueue = [] ∧ p.ch.state.fragQueue = [] := by
  obtain ⟨ds, hds⟩ := h.cut
  have hnil := hds.accepted
  rw [ha] at hnil
  obtain ⟨hmap, hqueue⟩ := List.append_eq_nil_iff.mp hnil.symm
  have hfrags := hds.frags
  rw [List.map_eq_nil_iff.mp hmap, List.flatMap_nil] at hfrags
  exact ⟨hqueue, (List.append_eq_nil_iff.mp hfrags).2⟩

/-- The first two steps of the round trip: `q` has accepted the fragment. -/
theorem Calm.accepted {p q : Side} (h : Calm p q) {f : FragmentEntry} {rest : List FragmentEntry}
    (hqueue : (refill p.ch).state.fragQueue = f :: rest) (t : ℕ) :
    ∃ p' k, p.send t = (p', some k) ∧
      p'.ch = (sendFragment t f rest (refill p.ch)).1 ∧ p'.next = p.next + 1 ∧ p'.base = p.base ∧
      (q.receive t k).ch = acceptAndDeliver t f.first f.last f.payload q.ch ∧
      (q.receive t k).rcvd = p.next + 1 := by
  obtain ⟨hbase, hrcvd⟩ := rcvd_of_idle h.pair h.inFlight
  obtain ⟨hfb, hfn, -, -, hfa⟩ := refill_frame p.ch
  have hbaseW : Wraps (refill p.ch).state.sendBase p.base := by
    rw [hfb]
    exact h.pair.left.base
  have hnextW : Wraps (refill p.ch).state.sendNext p.next := by
    rw [hfn]
    exact h.pair.left.next
  -- the window is empty, so the fragment may go
  have hcan : (refill p.ch).state.canSend = true :=
    (canSend_iff hbaseW hnextW (by omega) (by omega)).mpr (by omega)
  have hdata : (f.first || f.last || !f.payload.isEmpty) = true := by
    apply h.pair.refill.left.queued_hasData
    show f ∈ (refill p.ch).state.fragQueue
    rw [hqueue]
    exact List.mem_cons_self
  -- nothing is to be acknowledged by `p`
  have hstamp : Side.stamp { p with ch := refill p.ch } = none := by
    unfold Side.stamp
    rw [show ({ p with ch := refill p.ch } : Side).ch.state.ackPending = none from
      hfa.trans h.ackPending.1]
    rfl
  have hbytes : (Side.packet f { p with ch := refill p.ch }).bytes =
      dataByte (refill p.ch).state.sendNext f.first f.last :: ackByte none ::
        (f.payload ++ [fragmentCanary]) := by
    unfold Side.packet
    rw [hstamp]
  obtain ⟨hch, hnext⟩ := receive_next h.pair h.inFlight hnextW hdata hbytes t
  refine ⟨_, _, send_data h.pair.back.receives.ack h.pair.left.next h.alive.1 hcan hqueue t, rfl, rfl,
    rfl, hch, ?_⟩
  rw [hnext, hrcvd]

/-- Sending declares no link dead. -/
theorem sendFragment_linkDead (now : ℕ) (f : FragmentEntry) (rest : List FragmentEntry)
    (ch : ReliableChannel) :
    (sendFragment now f rest ch).1.state.linkDead = ch.state.linkDead := by
  unfold sendFragment ChannelState.takeAck
  dsimp only
  split <;> rfl

theorem refill_linkDead (ch : ReliableChannel) :
    (refill ch).state.linkDead = ch.state.linkDead ∧ (refill ch).chunkSize = ch.chunkSize := by
  unfold refill
  split <;> exact ⟨rfl, rfl⟩

/-- One fragment goes over, and the pair is calm again. -/
theorem Calm.round {p q : Side} (h : Calm p q) {f : FragmentEntry} {rest : List FragmentEntry}
    (hqueue : (refill p.ch).state.fragQueue = f :: rest) {t t' : ℕ} (hdelay : t + ackDelay ≤ t') :
    ∃ p' q', system.exec (roundTrip t t') (joined p q [] [] t) = some (joined p' q' [] [] t') ∧
      Calm p' q' ∧ p'.ch.state.fragQueue = rest ∧
      p'.ch.state.sendQueue = (refill p.ch).state.sendQueue ∧ p'.ch.chunkSize = p.ch.chunkSize := by
  obtain ⟨p₁, k, hsend, hch₁, hnext₁, hbase₁, hch₂, hrcvd₂⟩ := h.accepted hqueue t
  obtain ⟨hbase, -⟩ := rcvd_of_idle h.pair h.inFlight
  have hpair₁ : PairInv p₁ q [k] [] := by
    have := h.pair.send t
    rw [hsend] at this
    exact this
  have hpair₂ : PairInv p₁ (q.receive t k) [] [] := (hpair₁.symm.receive t).symm
  have hstep₁ : system.step (.send .a t) (joined p q [] [] t) = some (joined p₁ q [k] [] t) :=
    step_send_a (le_refl t) hsend
  have hstep₂ : system.step (.receive .b t) (joined p₁ q [k] [] t) =
      some (joined p₁ (q.receive t k) [] [] t) := step_receive_b (le_refl t)
  have hsilent₂ : (q.receive t k).accepted = [] := h.silent
  generalize q.receive t k = q₂ at hch₂ hrcvd₂ hpair₂ hstep₂ hsilent₂
  -- `q` owes an acknowledgement, and has nothing to send it with
  obtain ⟨hsendQ, hfragQ⟩ := queues_of_silent hpair₂.right hsilent₂
  have halive₂ : q₂.ch.state.linkDead = false := by
    have hsp := acceptAndDeliver_sendPart t f.first f.last f.payload q.ch
    rw [hch₂]
    exact (congrArg SendPart.linkDead hsp).trans h.alive.2
  have hpending₂ : q₂.ch.state.ackPending.isSome = true := by
    rw [hch₂, (acceptAndDeliver_recv t f.first f.last f.payload q.ch).2.2]
    rfl
  have ht : t ≤ t' := le_trans (Nat.le_add_right t ackDelay) hdelay
  have hdeadline₂ : ∀ dl, q₂.ch.state.ackDeadline = some dl → dl ≤ t' := by
    have htimer : AckTimer t q.ch.state := by
      constructor
      · rw [h.ackPending.2, h.ackDeadline]
        rfl
      · intro dl hdl
        rw [h.ackDeadline] at hdl
        cases hdl
    rw [hch₂]
    intro dl hdl
    exact le_trans ((htimer.acceptAndDeliver f.first f.last f.payload).near dl hdl) hdelay
  have hack := send_ack hpair₂.out.receives.ack hpair₂.right.next halive₂ hsendQ hfragQ hpending₂
    hdeadline₂
  have hpair₃ := (hpair₂.symm.send t').symm
  rw [hack] at hpair₃
  generalize hk' : (⟨[0, ackByte (some q₂.rcvd)], none, some q₂.rcvd⟩ : Packet) = k' at hack hpair₃
  have hstep₃ : system.step (.send .b t') (joined p₁ q₂ [] [] t) =
      some (joined p₁ { q₂ with ch := { q₂.ch with state := q₂.ch.state.takeAck } } [] [k']
        t') := step_send_b ht hack
  -- the acknowledgement names everything `p` has sent
  have hbytes : k'.bytes = [0, ackByte (some p₁.next)] := by rw [← hk', hrcvd₂, hnext₁]
  have hpop := receive_all_acked hpair₃ hbytes (by omega) t'
  have hpair₄ := hpair₃.receive t'
  have hstep₄ : system.step (.receive .a t') (joined p₁
      { q₂ with ch := { q₂.ch with state := q₂.ch.state.takeAck } } [] [k'] t') =
      some (joined (p₁.receive t' k')
        { q₂ with ch := { q₂.ch with state := q₂.ch.state.takeAck } } [] [] t') :=
    step_receive_a (le_refl _)
  obtain ⟨msg, hmsg⟩ : ∃ msg, (sendFragment t f rest (refill p.ch)).2 = .send msg := ⟨_, rfl⟩
  obtain ⟨-, -, -, hsq, hfq, hcs, -, hackA, -⟩ := sendFragment_spec t f rest (refill p.ch) hmsg
  have hdeadA := (sendFragment_linkDead t f rest (refill p.ch)).trans (refill_linkDead p.ch).1
  rw [← hch₁] at hsq hfq hcs hackA hdeadA
  refine ⟨_, _, ?_, ⟨hpair₄, hsilent₂, ?_, ⟨?_, halive₂⟩, ⟨?_, rfl⟩, rfl⟩, ?_, ?_, ?_⟩
  · simp only [roundTrip, System.exec, hstep₁, hstep₂, hstep₃, hstep₄, Option.bind_some]
  · rw [hpop]
    rfl
  · rw [hpop]
    exact hdeadA.trans h.alive.1
  · rw [hpop]
    exact hackA
  · rw [hpop]
    exact hfq
  · rw [hpop]
    exact hsq
  · rw [hpop]
    exact hcs.trans (refill_linkDead p.ch).2

/-- The rest of a datagram goes over, fragment by fragment. -/
theorem Calm.drain (queue : List FragmentEntry) {p q : Side} (h : Calm p q)
    (hfrag : p.ch.state.fragQueue = queue) (hsend : p.ch.state.sendQueue = []) (t : ℕ) :
    ∃ ls p' q' t', system.exec ls (joined p q [] [] t) = some (joined p' q' [] [] t') ∧
      (∀ l ∈ ls, handed l = none ∧ ∀ s, LossFree s l) ∧ Calm p' q' ∧
      p'.ch.state.fragQueue = [] ∧ p'.ch.state.sendQueue = [] ∧
      p'.ch.chunkSize = p.ch.chunkSize := by
  induction queue generalizing p q t with
  | nil => exact ⟨[], p, q, t, rfl, List.forall_mem_nil _, h, hfrag, hsend, rfl⟩
  | cons f rest ih =>
      have hrefill : refill p.ch = p.ch := by
        unfold refill
        rw [hfrag]
      obtain ⟨p₁, q₁, hexec, hcalm, hfrag₁, hsend₁, hchunk₁⟩ :=
        h.round (by rw [hrefill]; exact hfrag) (le_refl (t + ackDelay))
      rw [hrefill, hsend] at hsend₁
      obtain ⟨ls, p', q', t', hexec', hls, hcalm', hfrag', hsend', hchunk'⟩ :=
        ih hcalm hfrag₁ hsend₁ (t + ackDelay)
      refine ⟨roundTrip t (t + ackDelay) ++ ls, p', q', t', ?_, ?_, hcalm', hfrag', hsend', hchunk'.trans hchunk₁⟩
      · rw [System.exec_append, hexec, Option.bind_some, hexec']
      · intro l hl
        rcases List.mem_append.mp hl with hl | hl
        · simp only [roundTrip, List.mem_cons, List.not_mem_nil, or_false] at hl
          rcases hl with rfl | rfl | rfl | rfl <;> exact ⟨rfl, fun _ => trivial⟩
        · exact hls l hl

/-- A datagram handed to a calm pair is accepted. -/
theorem Calm.enqueue {p q : Side} (h : Calm p q) (d : Bytes) (hfrag : p.ch.state.fragQueue = [])
    (hsend : p.ch.state.sendQueue = []) :
    Calm (p.enqueue d) q ∧ (enqueueDatagram d p.ch).2 = true ∧
      (p.enqueue d).ch.state.fragQueue = [] ∧ (p.enqueue d).ch.state.sendQueue = [d] ∧
      (p.enqueue d).ch.chunkSize = p.ch.chunkSize := by
  have heq : enqueueDatagram d p.ch =
      (notifyOne { p.ch with state := { p.ch.state with sendQueue := [d] } }, true) := by
    unfold enqueueDatagram sendQueueCapacity
    rw [hfrag, hsend]
    rfl
  have hpair := h.pair.enqueue d
  unfold Side.enqueue at hpair ⊢
  rw [heq] at hpair ⊢
  exact ⟨⟨hpair, h.silent, h.inFlight, h.alive, h.ackPending, h.ackDeadline⟩, rfl, hfrag, rfl, rfl⟩

/-- A datagram goes over. -/
theorem Calm.carry {p q : Side} (h : Calm p q) (d : Bytes) (hfrag : p.ch.state.fragQueue = [])
    (hsend : p.ch.state.sendQueue = []) (t : ℕ) :
    ∃ ls p' q' t', system.execMeets LossFree ls (joined p q [] [] t) = some (joined p' q' [] [] t') ∧
      ls.filterMap handed = [d] ∧ Calm p' q' ∧ p'.ch.state.fragQueue = [] ∧
      p'.ch.state.sendQueue = [] ∧ p'.ch.chunkSize = p.ch.chunkSize := by
  obtain ⟨hcalm, hroom, hfrag₁, hsend₁, hchunk₁⟩ := h.enqueue d hfrag hsend
  obtain ⟨f, rest, hfrags⟩ :=
    List.exists_cons_of_ne_nil (fragments_ne_nil (p.enqueue d).ch.chunkSize d)
  -- the first call of `next_send_action` cuts the datagram
  have hqueue : (refill (p.enqueue d).ch).state.fragQueue = f :: rest ∧
      (refill (p.enqueue d).ch).state.sendQueue = [] := by
    unfold refill
    rw [hfrag₁, hsend₁]
    constructor
    · show (p.enqueue d).ch.state.fragQueue ++ fragments (p.enqueue d).ch.chunkSize d = _
      rw [hfrag₁, hfrags]
      rfl
    · rfl
  obtain ⟨p₂, q₂, hexec₂, hcalm₂, hfrag₂, hsend₂, hchunk₂⟩ :=
    hcalm.round hqueue.1 (le_refl (t + ackDelay))
  obtain ⟨ls, p', q', t', hexec', hls, hcalm', hfrag', hsend', hchunk'⟩ :=
    hcalm₂.drain rest hfrag₂ (hsend₂.trans hqueue.2) (t + ackDelay)
  have htrip : ∀ l ∈ roundTrip t (t + ackDelay), handed l = none ∧ ∀ s, LossFree s l := by
    intro l hl
    simp only [roundTrip, List.mem_cons, List.not_mem_nil, or_false] at hl
    rcases hl with rfl | rfl | rfl | rfl <;> exact ⟨rfl, fun _ => trivial⟩
  refine ⟨.enqueue .a d :: (roundTrip t (t + ackDelay) ++ ls), p', q', t', ?_, ?_, hcalm', hfrag',
    hsend', hchunk'.trans (hchunk₂.trans hchunk₁)⟩
  · rw [System.execMeets, if_pos (show LossFree (joined p q [] [] t) (.enqueue .a d) from hroom),
      step_enqueue_a, Option.bind_some, System.execMeets_append,
      System.execMeets_eq_exec (fun l hl => (htrip l hl).2), hexec₂, Option.bind_some,
      System.execMeets_eq_exec (fun l hl => (hls l hl).2), hexec']
  · have hnone : (roundTrip t (t + ackDelay) ++ ls).filterMap handed = [] := by
      rw [List.filterMap_eq_nil_iff]
      intro l hl
      rcases List.mem_append.mp hl with hl | hl
      · exact (htrip l hl).1
      · exact (hls l hl).1
    rw [List.filterMap_cons, hnone]
    rfl

/-- From a calm pair there is a run that carries all of a list of datagrams, and is calm again. -/
theorem Calm.carryAll (ds : List Bytes) {p q : Side} (h : Calm p q)
    (hfrag : p.ch.state.fragQueue = []) (hsend : p.ch.state.sendQueue = []) (t : ℕ) :
    ∃ ls p' q' t', system.execMeets LossFree ls (joined p q [] [] t) = some (joined p' q' [] [] t') ∧
      ls.filterMap handed = ds ∧ Calm p' q' ∧ p'.ch.state.fragQueue = [] ∧
      p'.ch.state.sendQueue = [] ∧ p'.ch.chunkSize = p.ch.chunkSize := by
  induction ds generalizing p q t with
  | nil => exact ⟨[], p, q, t, rfl, rfl, h, hfrag, hsend, rfl⟩
  | cons d ds ih =>
      obtain ⟨ls₁, p₁, q₁, t₁, hexec₁, hls₁, hcalm₁, hfrag₁, hsend₁, hchunk₁⟩ :=
        h.carry d hfrag hsend t
      obtain ⟨ls₂, p₂, q₂, t₂, hexec₂, hls₂, hcalm₂, hfrag₂, hsend₂, hchunk₂⟩ :=
        ih hcalm₁ hfrag₁ hsend₁ t₁
      refine ⟨ls₁ ++ ls₂, p₂, q₂, t₂, ?_, ?_, hcalm₂, hfrag₂, hsend₂, hchunk₂.trans hchunk₁⟩
      · rw [System.execMeets_append, hexec₁, Option.bind_some, hexec₂]
      · rw [List.filterMap_append, hls₁, hls₂]
        rfl

/-- For every list of datagrams and every chunk size some run brings all of it over. -/
theorem run_delivers {c : ℕ} (hc : 4 ≤ c) (ds : List Bytes) :
    ∃ h s, system.Run h s ∧ System.Meets LossFree h ∧ outbound h = ds ∧ s.Idle ∧
      (s.side .a).ch.chunkSize = c := by
  have hcalm : Calm (Side.fresh c 0) (Side.fresh c 0) :=
    ⟨pairInv_fresh hc hc 0 0, rfl, rfl, ⟨rfl, rfl⟩, ⟨rfl, rfl⟩, rfl⟩
  obtain ⟨ls, p, q, t, hexec, hls, hcalm', hfrag, hsend, hchunk⟩ := hcalm.carryAll ds rfl rfl 0
  have hstart : start (fun _ => c) 0 = joined (Side.fresh c 0) (Side.fresh c 0) [] [] 0 := by
    unfold start joined
    congr 1 <;> funext w <;> cases w <;> rfl
  have hinit : system.Init (joined (Side.fresh c 0) (Side.fresh c 0) [] [] 0) :=
    ⟨fun _ => c, 0, fun _ => hc, hstart.symm⟩
  obtain ⟨h, hrun, hfree, hlabels⟩ :=
    System.Run.extendMeets ls (System.Run.init hinit) (System.meets_nil _) hexec
  rw [List.nil_append] at hrun hfree
  refine ⟨h, _, hrun, hfree, ?_, ⟨hsend, hfrag, hcalm'.inFlight⟩, hchunk⟩
  rw [← hls, ← hlabels, List.filterMap_map]
  rfl

end Duplex

end IrohBle.Reliable
