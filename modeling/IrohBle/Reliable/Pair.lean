import IrohBle.Reliable.Duplex

/-! # Reliable.Pair: the invariant of two joined channels

`PairInv p q lp lq` relates two endpoints and the links out of them. It is
symmetric, so every step is proved for the endpoint that moves:

* `SideInv`: the 4-bit counters show the absolute ones, `in_flight` is the window
  `[base, next)`, and cutting the accepted datagrams gives what was sent
  followed by `frag_queue`;
* `DirInv`: one direction is a `SlidingWindow.Half`, and every message on its
  link is the fragment its stamp names.

`PairInv.send`, `PairInv.resend` and `PairInv.receive` are the step lemmas; only
`resend` has a side condition, on the age of a stored ACK byte.
-/

namespace IrohBle.Reliable

open ReliableChannel Lib

/-! ## The sending half of one endpoint -/

/-- The bytes of `k` are what its stamps say, `sent` being what its sender has
numbered so far. -/
def Encodes (sent : List FragmentEntry) (k : Packet) : Prop :=
  match k.idx with
  | none => ∃ r, k.ack = some r ∧ k.bytes = [0, ackByte (some r)]
  | some i => ∃ (seq : UInt8) (f : FragmentEntry), sent[i]? = some f ∧ Wraps seq i ∧
      (f.first || f.last || !f.payload.isEmpty) = true ∧
      k.bytes = dataByte seq f.first f.last :: ackByte k.ack :: (f.payload ++ [fragmentCanary])

/-- A message goes on to encode its fragment while more are sent. -/
theorem Encodes.mono {sent fs : List FragmentEntry} {k : Packet} (h : Encodes sent k) :
    Encodes (sent ++ fs) k := by
  unfold Encodes at *
  split at h
  · exact h
  · obtain ⟨seq, f, hf, rest⟩ := h
    have hlt := (List.getElem?_eq_some_iff.mp hf).1
    exact ⟨seq, f, by rw [List.getElem?_append_left hlt]; exact hf, rest⟩

/-- The fragments sent and queued are the accepted datagrams that have left
`send_queue`, each cut with the chunk size of its time. -/
structure Cut (p : Side) (ds : List (ℕ × Bytes)) : Prop where
  accepted : p.accepted = ds.map Prod.snd ++ p.ch.state.sendQueue
  frags : p.sent ++ p.ch.state.fragQueue = ds.flatMap fun x => fragments x.1 x.2
  chunk : ∀ x ∈ ds, 4 ≤ x.1
  chunkSize : 4 ≤ p.ch.chunkSize

/-- One side in itself: its counters, its window, and what has become of the accepted datagrams.
-/
structure SideInv (p : Side) : Prop where
  base : Wraps p.ch.state.sendBase p.base
  next : Wraps p.ch.state.sendNext p.next
  sent : p.sent.length = p.next
  flight_msg : p.ch.state.inFlight.map (·.wireMsg) = p.flight.map (·.bytes)
  flight_idx : p.flight.map (·.idx) = (List.range' p.base (p.next - p.base)).map some
  /-- A stored ACK byte was written when fewer fragments had arrived. -/
  flight_ack : ∀ k ∈ p.flight, ∀ r, k.ack = some r → r ≤ p.rcvd
  flight_enc : ∀ k ∈ p.flight, Encodes p.sent k
  cut : ∃ ds, Cut p ds

/-- As many messages are stored as the window is wide. -/
theorem SideInv.inFlight_length {p : Side} (h : SideInv p) :
    p.ch.state.inFlight.length = p.next - p.base := by
  have h1 := congrArg List.length h.flight_msg
  have h2 := congrArg List.length h.flight_idx
  simp only [List.length_map, List.length_range'] at h1 h2
  omega

/-- Every queued fragment is recognised as data by the receiver. -/
theorem SideInv.queued_hasData {p : Side} (h : SideInv p) :
    ∀ f ∈ p.ch.state.fragQueue, (f.first || f.last || !f.payload.isEmpty) = true := by
  intro f hf
  obtain ⟨ds, hds⟩ := h.cut
  have hmem : f ∈ ds.flatMap fun x => fragments x.1 x.2 := by
    rw [← hds.frags]
    exact List.mem_append_right _ hf
  obtain ⟨x, hx, hfx⟩ := List.mem_flatMap.mp hmem
  exact fragments_hasData (hds.chunk x hx) x.2 f hfx

/-- A fresh side satisfies it. -/
theorem sideInv_fresh {c : ℕ} (hc : 4 ≤ c) (now : ℕ) : SideInv (Side.fresh c now) where
  base := wraps_zero
  next := wraps_zero
  sent := rfl
  flight_msg := rfl
  flight_idx := rfl
  flight_ack := by simp [Side.fresh]
  flight_enc := by simp [Side.fresh]
  cut := ⟨[], ⟨rfl, rfl, by simp, hc⟩⟩

/-! ## One direction -/

/-- The direction from `p` to `q` on absolute numbers; `data` is the link out of
`p` and `acks` the link out of `q`. -/
def half (p q : Side) (data acks : List Packet) : SlidingWindow.Half :=
  ⟨p.base, p.next, data.filterMap (·.idx), q.rcvd, heldIdx q.rcvd q.ch, acks.filterMap (·.ack)⟩

/-- One direction: the window of its sender and receiver, and the messages between them. -/
structure DirInv (p q : Side) (data acks : List Packet) : Prop where
  window : SlidingWindow.Inv 6 9 (half p q data acks)
  /-- The buffer was drained: the next fragment is not in it. -/
  settled : q.rcvd ∉ heldIdx q.rcvd q.ch
  receives : Receives p.sent q.rcvd q.ch
  encodes : ∀ k ∈ data, Encodes p.sent k

/-- Both sides, and both directions. -/
structure PairInv (p q : Side) (lp lq : List Packet) : Prop where
  left : SideInv p
  right : SideInv q
  out : DirInv p q lp lq
  back : DirInv q p lq lp

theorem PairInv.symm {p q : Side} {lp lq : List Packet} (h : PairInv p q lp lq) :
    PairInv q p lq lp :=
  ⟨h.right, h.left, h.back, h.out⟩

/-- A direction of two fresh sides satisfies it. -/
theorem dirInv_fresh (c c' : ℕ) (now now' : ℕ) :
    DirInv (Side.fresh c now) (Side.fresh c' now') [] [] where
  window := SlidingWindow.inv_init
  settled := by simp [Side.fresh, heldIdx, ReliableChannel.new]
  receives := by
    constructor <;> simp [Side.fresh, ReliableChannel.new, asmOf, acceptAll, Asm.init]
    exact wraps_zero
  encodes := by simp

theorem pairInv_fresh {c c' : ℕ} (hc : 4 ≤ c) (hc' : 4 ≤ c') (now now' : ℕ) :
    PairInv (Side.fresh c now) (Side.fresh c' now') [] [] :=
  ⟨sideInv_fresh hc now, sideInv_fresh hc' now', dirInv_fresh c c' now now',
    dirInv_fresh c' c now' now⟩

/-! ## Frame lemmas -/

/-- A direction sees its sender only through the counters and `sent`. -/
theorem DirInv.congr_sender {p p' q : Side} {data acks : List Packet} (h : DirInv p q data acks)
    (hb : p'.base = p.base) (hn : p'.next = p.next) (hs : p'.sent = p.sent) :
    DirInv p' q data acks where
  window := by
    unfold half
    rw [hb, hn]
    exact h.window
  settled := h.settled
  receives := by
    rw [hs]
    exact h.receives
  encodes := by
    rw [hs]
    exact h.encodes

/-- What is held depends on the received part of the channel. -/
theorem heldIdx_congr {n : ℕ} {ch ch' : ReliableChannel} (h : recvPart ch' = recvPart ch) :
    heldIdx n ch' = heldIdx n ch := by
  have hb : ch'.state.recvBuf = ch.state.recvBuf := congrArg RecvPart.recvBuf h
  have hn : ch'.state.recvNext = ch.state.recvNext := congrArg RecvPart.recvNext h
  unfold heldIdx
  rw [hb, hn]

/-- What has been received depends on the received part and the pending acknowledgement. -/
theorem Receives.congr {sent : List FragmentEntry} {n : ℕ} {ch ch' : ReliableChannel}
    (hR : Receives sent n ch) (h : recvPart ch' = recvPart ch)
    (ha : ch'.state.ackPending = none ∨ ch'.state.ackPending = ch.state.ackPending) :
    Receives sent n ch' := by
  have hb : ch'.state.recvBuf = ch.state.recvBuf := congrArg RecvPart.recvBuf h
  have hn : ch'.state.recvNext = ch.state.recvNext := congrArg RecvPart.recvNext h
  have hr : ch'.state.reassembly = ch.state.reassembly := congrArg RecvPart.reassembly h
  have ho : ch'.state.reassemblyOverflow = ch.state.reassemblyOverflow :=
    congrArg RecvPart.reassemblyOverflow h
  have hd : ch'.datagramTx = ch.datagramTx := congrArg RecvPart.datagramTx h
  constructor
  · rw [hn]
    exact hR.wraps
  · rw [hb]
    exact hR.seqs
  · rw [hb, hn]
    exact hR.held
  · unfold asmOf
    rw [hr, ho, hd]
    exact hR.asm
  · intro v hv
    rcases ha with ha | ha
    · rw [ha] at hv
      cases hv
    · exact hR.ack v (by rw [← ha]; exact hv)

/-- A direction sees its receiver only through `recvPart` and the pending
acknowledgement. -/
theorem DirInv.congr_receiver {p q q' : Side} {data acks : List Packet}
    (h : DirInv p q data acks) (hr : q'.rcvd = q.rcvd) (hp : recvPart q'.ch = recvPart q.ch)
    (ha : q'.ch.state.ackPending = none ∨ q'.ch.state.ackPending = q.ch.state.ackPending) :
    DirInv p q' data acks where
  window := by
    unfold half
    rw [hr, heldIdx_congr hp]
    exact h.window
  settled := by
    rw [hr, heldIdx_congr hp]
    exact h.settled
  receives := by
    rw [hr]
    exact h.receives.congr hp ha
  encodes := h.encodes

/-- Losing messages on either link. -/
theorem DirInv.lose {p q : Side} {data acks data' acks' : List Packet}
    (h : DirInv p q data acks) (hd : data'.Sublist data) (ha : acks'.Sublist acks) :
    DirInv p q data' acks' where
  window := h.window.lose (hd.filterMap _) (ha.filterMap _)
  settled := h.settled
  receives := h.receives
  encodes := fun k hk => h.encodes k (hd.subset hk)

theorem PairInv.lose {p q : Side} {lp lq lp' lq' : List Packet} (h : PairInv p q lp lq)
    (hp : lp'.Sublist lp) (hq : lq'.Sublist lq) : PairInv p q lp' lq' :=
  ⟨h.left, h.right, h.out.lose hp hq, h.back.lose hq hp⟩

/-- An emitted acknowledgement of age at most nine. -/
theorem DirInv.emit {p q : Side} {data acks : List Packet} (h : DirInv p q data acks)
    {k : Packet} (hk : ∀ r, k.ack = some r → r ≤ q.rcvd ∧ q.rcvd ≤ r + 9) :
    DirInv p q data (acks ++ [k]) where
  window := by
    unfold half
    rw [List.filterMap_append]
    cases hka : k.ack with
    | none =>
        simp only [List.filterMap_cons, hka, List.filterMap_nil, List.append_nil]
        exact h.window
    | some r =>
        simp only [List.filterMap_cons, hka, List.filterMap_nil]
        exact h.window.emit (hk r hka).1 (hk r hka).2
  settled := h.settled
  receives := h.receives
  encodes := h.encodes

/-- A pure ACK of age at most nine. -/
theorem PairInv.emit {p q : Side} {lp lq : List Packet} (h : PairInv p q lp lq) {k : Packet}
    (hidx : k.idx = none) (henc : Encodes p.sent k)
    (hk : ∀ r, k.ack = some r → r ≤ p.rcvd ∧ p.rcvd ≤ r + 9) : PairInv p q (lp ++ [k]) lq where
  left := h.left
  right := h.right
  out :=
    { window := by
        have hw := h.out.window
        unfold half at hw ⊢
        rw [List.filterMap_append]
        simpa [hidx] using hw
      settled := h.out.settled
      receives := h.out.receives
      encodes := by
        intro k' hk'
        rcases List.mem_append.mp hk' with hk' | hk'
        · exact h.out.encodes k' hk'
        · rw [List.mem_singleton.mp hk']
          exact henc }
  back := h.back.emit hk

/-! ## Steps that only touch the queues -/

/-- A step of `p` that keeps the counters, the window and the receiving half. -/
theorem PairInv.requeue {p p' q : Side} {lp lq : List Packet} (h : PairInv p q lp lq)
    (hb : p'.base = p.base) (hn : p'.next = p.next) (hr : p'.rcvd = p.rcvd)
    (hf : p'.flight = p.flight) (hs : p'.sent = p.sent)
    (hsb : p'.ch.state.sendBase = p.ch.state.sendBase)
    (hsn : p'.ch.state.sendNext = p.ch.state.sendNext)
    (hif : p'.ch.state.inFlight = p.ch.state.inFlight)
    (hrp : recvPart p'.ch = recvPart p.ch)
    (hack : p'.ch.state.ackPending = none ∨ p'.ch.state.ackPending = p.ch.state.ackPending)
    (hcut : ∃ ds, Cut p' ds) : PairInv p' q lp lq where
  left :=
    { base := by rw [hsb, hb]; exact h.left.base
      next := by rw [hsn, hn]; exact h.left.next
      sent := by rw [hs, hn]; exact h.left.sent
      flight_msg := by rw [hif, hf]; exact h.left.flight_msg
      flight_idx := by rw [hf, hb, hn]; exact h.left.flight_idx
      flight_ack := by rw [hf, hr]; exact h.left.flight_ack
      flight_enc := by rw [hf, hs]; exact h.left.flight_enc
      cut := hcut }
  right := h.right
  out := h.out.congr_sender hb hn hs
  back := h.back.congr_receiver hr hrp hack

/-- A datagram that is taken on keeps the invariant. -/
theorem PairInv.enqueue {p q : Side} {lp lq : List Packet} (h : PairInv p q lp lq) (d : Bytes) :
    PairInv (p.enqueue d) q lp lq := by
  obtain ⟨ds, hds⟩ := h.left.cut
  unfold Side.enqueue enqueueDatagram
  split
  · exact h
  · apply h.requeue <;> try rfl
    · exact Or.inr rfl
    · refine ⟨ds, ?_, hds.frags, hds.chunk, hds.chunkSize⟩
      show p.accepted ++ [d] = _
      rw [hds.accepted]
      simp [notifyOne]

theorem PairInv.setChunkSize {p q : Side} {lp lq : List Packet} (h : PairInv p q lp lq) {n : ℕ}
    (hn : 4 ≤ n) : PairInv (p.setChunkSize n) q lp lq := by
  obtain ⟨ds, hds⟩ := h.left.cut
  apply h.requeue <;> try rfl
  · exact Or.inr rfl
  · exact ⟨ds, hds.accepted, hds.frags, hds.chunk, hn⟩

/-- Cutting datagrams into fragments keeps the invariant. -/
theorem PairInv.refill {p q : Side} {lp lq : List Packet} (h : PairInv p q lp lq) :
    PairInv { p with ch := ReliableChannel.refill p.ch } q lp lq := by
  obtain ⟨ds, hds⟩ := h.left.cut
  obtain ⟨h1, h2, h3, h4, h5⟩ := refill_frame p.ch
  refine h.requeue rfl rfl rfl rfl rfl h1 h2 h3 h4 (Or.inr h5) ?_
  unfold ReliableChannel.refill
  split
  · rename_i d rest hfq hsq
    refine ⟨ds ++ [(p.ch.chunkSize, d)], ?_, ?_, ?_, hds.chunkSize⟩
    · show p.accepted = _
      rw [hds.accepted, hsq]
      simp [fragmentInto]
    · show p.sent ++ (p.ch.state.fragQueue ++ fragments p.ch.chunkSize d) = _
      rw [← List.append_assoc, hds.frags]
      simp
    · intro x hx
      rcases List.mem_append.mp hx with hx | hx
      · exact hds.chunk x hx
      · rw [List.mem_singleton.mp hx]
        exact hds.chunkSize
  · exact ⟨ds, hds⟩

/-! ## Sending -/

/-- The absolute number of a byte within sixteen of a known one. -/
theorem unwrap_eq {u v : UInt8} {n m : ℕ} (hu : Wraps u n) (hv : Wraps v m) (h1 : n ≤ m)
    (h2 : m < n + 16) : unwrap n u v = m := by
  unfold unwrap
  rw [seqDist_toNat hu hv]
  omega

/-- The message for the fragment numbered `p.next`. -/
def Side.packet (frag : FragmentEntry) (p : Side) : Packet :=
  ⟨dataByte p.ch.state.sendNext frag.first frag.last :: ackByte p.stamp ::
    (frag.payload ++ [fragmentCanary]), some p.next, p.stamp⟩

/-- Everything one call of `next_send_action` can do. -/
inductive SendStep (now : ℕ) (p : Side) : Side × Option Packet → Prop where
  | data {frag : FragmentEntry} {rest : List FragmentEntry} {p₁ : Side} :
      p₁ = { p with ch := refill p.ch } → p₁.ch.state.canSend = true →
      p₁.ch.state.fragQueue = frag :: rest →
      SendStep now p
        ({ p₁ with
           ch := (sendFragment now frag rest p₁.ch).1
           next := p.next + 1
           flight := p.flight ++ [p₁.packet frag]
           sent := p.sent ++ [frag] }, some (p₁.packet frag))
  | pureAck {ch : ReliableChannel} : p.ch.state.ackPending.isSome →
      ch = { refill p.ch with state := (refill p.ch).state.takeAck } →
      SendStep now p
        ({ p with ch := ch }, some ⟨[0, ackByte (some p.rcvd)], none, some p.rcvd⟩)
  | idle {ch : ReliableChannel} : ch = p.ch ∨ ch = refill p.ch →
      SendStep now p ({ p with ch := ch }, none)

/-- The message sent for a fragment, byte by byte. -/
theorem sendFragment_msg {p : Side} (hack : ∀ v, p.ch.state.ackPending = some v →
    Wraps v (p.rcvd + 15)) (now : ℕ) (frag : FragmentEntry) (rest : List FragmentEntry) :
    (sendFragment now frag rest p.ch).2 = .send (p.packet frag).bytes := by
  unfold sendFragment Side.packet Side.stamp
  dsimp only
  cases hp : p.ch.state.ackPending with
  | none => rfl
  | some v =>
      rw [show makeHeader p.ch.state.sendNext frag.first frag.last =
        dataByte p.ch.state.sendNext frag.first frag.last :: 0 :: [] from rfl]
      simp only [setAck_cons [] (hack v hp)]
      simp

/-- What a call of `next_send_action` may be: a fragment, an acknowledgement by itself, or
nothing. -/
theorem Side.send_cases {p : Side} (hack : ∀ v, p.ch.state.ackPending = some v →
    Wraps v (p.rcvd + 15)) (hnext : Wraps p.ch.state.sendNext p.next) (now : ℕ) :
    SendStep now p (p.send now) := by
  obtain ⟨-, hfn, hff, -, hfa⟩ := refill_frame p.ch
  set p₁ : Side := { p with ch := refill p.ch } with hp₁
  -- cutting datagrams changes neither the acknowledgement nor its stamp
  have hack₁ : ∀ v, p₁.ch.state.ackPending = some v → Wraps v (p₁.rcvd + 15) := by
    intro v hv
    exact hack v (by rw [← hfa]; exact hv)
  have hstamp : p₁.stamp = p.stamp := by
    unfold Side.stamp
    rw [show p₁.ch.state.ackPending = p.ch.state.ackPending from hfa]
  have hact := nextSendAction_cases now p.ch
  unfold Side.send
  generalize nextSendAction now p.ch = r at hact
  cases hact with
  | dead _ => exact SendStep.idle (Or.inl rfl)
  | wait _ _ _ => exact SendStep.idle (Or.inr rfl)
  -- an acknowledgement by itself puts nothing in flight
  | @pureAck v _ _ ha =>
      have hlen : ¬ p.ch.state.inFlight.length < (refill p.ch).state.takeAck.inFlight.length := by
        show ¬ p.ch.state.inFlight.length < (refill p.ch).state.inFlight.length
        rw [hff]
        exact lt_irrefl _
      have hsome : p.ch.state.ackPending.isSome := by
        rw [← hfa, ha]
        rfl
      have hst : p.stamp = some p.rcvd := by
        unfold Side.stamp
        rw [if_pos hsome]
      have hun : unwrap p.next p.ch.state.sendNext (refill p.ch).state.takeAck.sendNext =
          p.next := by
        show unwrap p.next p.ch.state.sendNext (refill p.ch).state.sendNext = _
        rw [hfn]
        exact unwrap_eq hnext hnext (le_refl _) (by omega)
      simp only [hlen, hst, hun, if_false]
      rw [setAck_cons [] (hack₁ v ha)]
      exact SendStep.pureAck hsome rfl
  | @data frag rest _ hcan hq =>
      have hmsg := sendFragment_msg hack₁ now frag rest
      obtain ⟨hfl, hsn, -⟩ := sendFragment_spec now frag rest p₁.ch hmsg
      have hlen : p.ch.state.inFlight.length <
          (sendFragment now frag rest (refill p.ch)).1.state.inFlight.length := by
        rw [hfl, show p₁.ch.state.inFlight = p.ch.state.inFlight from hff]
        simp
      have hun : unwrap p.next p.ch.state.sendNext
          (sendFragment now frag rest (refill p.ch)).1.state.sendNext = p.next + 1 := by
        rw [hsn, show p₁.ch.state.sendNext = p.ch.state.sendNext from hfn]
        exact unwrap_eq hnext hnext.succ (by omega) (by omega)
      have hpk : (⟨(p₁.packet frag).bytes, some p.next, p.stamp⟩ : Packet) = p₁.packet frag := by
        unfold Side.packet
        rw [hstamp]
      dsimp only
      rw [hmsg]
      simp only [hlen, hun, if_true, hpk, hq]
      exact SendStep.data hp₁ hcan hq

/-- The stamp of an ACK byte written now is fresh. -/
theorem Side.stamp_fresh (p : Side) : ∀ r, p.stamp = some r → r ≤ p.rcvd ∧ p.rcvd ≤ r + 9 := by
  intro r hr
  unfold Side.stamp at hr
  split at hr
  · rw [Option.some.injEq] at hr
    omega
  · cases hr

/-- A direction whose sender has numbered one more fragment. -/
theorem Receives.mono {sent fs : List FragmentEntry} {n : ℕ} {ch : ReliableChannel}
    (hR : Receives sent n ch) (hn : n ≤ sent.length) : Receives (sent ++ fs) n ch where
  wraps := hR.wraps
  seqs := hR.seqs
  held := by
    intro f hf
    have hlt := (List.getElem?_eq_some_iff.mp (hR.held f hf)).1
    rw [List.getElem?_append_left hlt]
    exact hR.held f hf
  asm := by
    rw [List.take_append_of_le_length hn]
    exact hR.asm
  ack := hR.ack

/-- `sendFragment` uses the next number. -/
theorem PairInv.sendData {p q : Side} {lp lq : List Packet} (h : PairInv p q lp lq)
    {frag : FragmentEntry} {rest : List FragmentEntry} (hcan : p.ch.state.canSend = true)
    (hq : p.ch.state.fragQueue = frag :: rest) (now : ℕ) :
    PairInv
      { p with
        ch := (sendFragment now frag rest p.ch).1
        next := p.next + 1
        flight := p.flight ++ [p.packet frag]
        sent := p.sent ++ [frag] } q (lp ++ [p.packet frag]) lq := by
  have hwin := h.out.window
  have hbr : p.base ≤ q.rcvd := hwin.base_le
  have hrn : q.rcvd ≤ p.next := hwin.rcvd_le
  have hroom : p.next < p.base + 6 :=
    (canSend_iff h.left.base h.left.next (by omega) hwin.next_le).mp hcan
  have hmsg := sendFragment_msg h.back.receives.ack now frag rest
  obtain ⟨hfl, hsn, hsb, hsq, hfq, hcs, hrp, hap, -⟩ := sendFragment_spec now frag rest p.ch hmsg
  have hdata := h.left.queued_hasData frag (by rw [hq]; exact List.mem_cons_self)
  have henc : Encodes (p.sent ++ [frag]) (p.packet frag) := by
    refine ⟨p.ch.state.sendNext, frag, ?_, h.left.next, hdata, rfl⟩
    rw [← h.left.sent]
    simp
  have hstamp := p.stamp_fresh
  constructor
  · -- the sending half
    obtain ⟨ds, hds⟩ := h.left.cut
    constructor
    · show Wraps (sendFragment now frag rest p.ch).1.state.sendBase p.base
      rw [hsb]
      exact h.left.base
    · show Wraps (sendFragment now frag rest p.ch).1.state.sendNext (p.next + 1)
      rw [hsn]
      exact h.left.next.succ
    · simp [h.left.sent]
    · show (sendFragment now frag rest p.ch).1.state.inFlight.map _ = _
      rw [hfl, List.map_append, List.map_append, h.left.flight_msg]
      rfl
    · show (p.flight ++ [p.packet frag]).map _ = (List.range' p.base (p.next + 1 - p.base)).map some
      rw [List.map_append, h.left.flight_idx,
        show p.next + 1 - p.base = p.next - p.base + 1 from by omega, List.range'_concat,
        List.map_append, show p.base + 1 * (p.next - p.base) = p.next from by omega]
      rfl
    · intro k hk r hr
      rcases List.mem_append.mp hk with hk | hk
      · exact h.left.flight_ack k hk r hr
      · rw [List.mem_singleton.mp hk] at hr
        exact (hstamp r hr).1
    · intro k hk
      rcases List.mem_append.mp hk with hk | hk
      · exact (h.left.flight_enc k hk).mono
      · rw [List.mem_singleton.mp hk]
        exact henc
    · refine ⟨ds, ?_, ?_, hds.chunk, ?_⟩
      · show p.accepted = _ ++ (sendFragment now frag rest p.ch).1.state.sendQueue
        rw [hsq]
        exact hds.accepted
      · show p.sent ++ [frag] ++ (sendFragment now frag rest p.ch).1.state.fragQueue = _
        rw [hfq, ← hds.frags, hq]
        simp
      · show 4 ≤ (sendFragment now frag rest p.ch).1.chunkSize
        rw [hcs]
        exact hds.chunkSize
  · exact h.right
  · -- the number `p.next` goes on the wire
    constructor
    · have hpush := hwin.push hroom
      unfold half at hpush ⊢
      rw [List.filterMap_append]
      exact hpush
    · exact h.out.settled
    · exact h.out.receives.mono (by rw [h.left.sent]; exact hrn)
    · intro k hk
      rcases List.mem_append.mp hk with hk | hk
      · exact (h.out.encodes k hk).mono
      · rw [List.mem_singleton.mp hk]
        exact henc
  · -- its ACK byte is the pending acknowledgement
    apply DirInv.emit
    · exact h.back.congr_receiver rfl hrp (Or.inl hap)
    · exact hstamp

/-- A send keeps the invariant. -/
theorem PairInv.send {p q : Side} {lp lq : List Packet} (h : PairInv p q lp lq) (now : ℕ) :
    PairInv (p.send now).1 q (lp ++ (p.send now).2.toList) lq := by
  have hcases := Side.send_cases h.back.receives.ack h.left.next now
  generalize p.send now = r at hcases
  cases hcases with
  | data hp₁ hcan hq =>
      subst hp₁
      exact h.refill.sendData hcan hq now
  | pureAck _ hch =>
      subst hch
      have hr := h.refill
      apply PairInv.emit
      · apply hr.requeue <;> try rfl
        · exact Or.inl rfl
        · obtain ⟨ds, hds⟩ := hr.left.cut
          exact ⟨ds, hds.accepted, hds.frags, hds.chunk, hds.chunkSize⟩
      · rfl
      · exact ⟨p.rcvd, rfl, rfl⟩
      · intro r hr'
        rw [Option.some.injEq] at hr'
        show r ≤ p.rcvd ∧ p.rcvd ≤ r + 9
        omega
  | idle hch =>
      rcases hch with rfl | rfl
      · simpa using h
      · simpa using h.refill

/-! ## Retransmitting -/

/-- The message a retransmission puts on the link, in terms of the stored one. -/
theorem Side.resend_eq {p : Side} (hack : ∀ v, p.ch.state.ackPending = some v →
    Wraps v (p.rcvd + 15)) {stored : Packet} {fl : List Packet} (hf : p.flight = stored :: fl)
    (hmsg : p.ch.state.inFlight.map (·.wireMsg) = p.flight.map (·.bytes)) {b0 : UInt8}
    {rest : Bytes} (hb : stored.bytes = b0 :: ackByte stored.ack :: rest) :
    p.resend =
      ({ p with ch := { p.ch with
          state := p.ch.state.takeAck
          retransmitCounter := p.ch.retransmitCounter + 1 } },
        some ⟨b0 :: ackByte (p.stamp.or stored.ack) :: rest, stored.idx,
          p.stamp.or stored.ack⟩) := by
  rw [hf] at hmsg
  cases hin : p.ch.state.inFlight with
  | nil => simp [hin] at hmsg
  | cons front _ =>
      have hfront : front.wireMsg = b0 :: ackByte stored.ack :: rest := by
        rw [← hb]
        simpa [hin] using (congrArg List.head? hmsg)
      unfold Side.resend resendFront Side.stamp
      rw [hin, hf]
      cases hp : p.ch.state.ackPending with
      | none => simp [hfront]
      | some v => simp [hfront, headerSize, setAck_cons rest (hack v hp)]

/-- The ACK byte of a retransmission is at most nine fragments old. -/
def FreshFront (p : Side) : Prop :=
  p.ch.state.ackPending = none → ∀ stored ∈ p.flight.head?, ∀ r, stored.ack = some r →
    p.rcvd ≤ r + 9

/-- Sending the head again keeps the invariant, unless its stored ACK byte has become stale. -/
theorem PairInv.resend {p q : Side} {lp lq : List Packet} (h : PairInv p q lp lq)
    (hfresh : FreshFront p) : PairInv p.resend.1 q (lp ++ p.resend.2.toList) lq := by
  cases hfl : p.flight with
  | nil =>
      have hin : p.ch.state.inFlight = [] := by
        have := h.left.flight_msg
        rw [hfl] at this
        simpa using this
      have heq : p.resend = (p, none) := by
        unfold Side.resend resendFront
        rw [hin]
      rw [heq]
      simpa using h
  | cons stored fl =>
      have hmem : stored ∈ p.flight := by
        rw [hfl]
        exact List.mem_cons_self
      -- the oldest stored message carries the number `p.base`
      have hidx := h.left.flight_idx
      have hlt : p.base < p.next := by
        have := congrArg List.length hidx
        rw [hfl] at this
        simp only [List.map_cons, List.length_cons, List.length_map, List.length_range'] at this
        omega
      have hbase : stored.idx = some p.base := by
        rw [hfl, show p.next - p.base = (p.next - p.base - 1) + 1 from by omega,
          List.range'_succ] at hidx
        simpa using (congrArg List.head? hidx)
      have henc := h.left.flight_enc stored hmem
      unfold Encodes at henc
      rw [hbase] at henc
      obtain ⟨seq, f, hf, hseq, hdata, hbytes⟩ := henc
      rw [Side.resend_eq h.back.receives.ack hfl h.left.flight_msg hbytes, hbase]
      constructor
      · obtain ⟨ds, hds⟩ := h.left.cut
        exact { h.left with cut := ⟨ds, ⟨hds.accepted, hds.frags, hds.chunk, hds.chunkSize⟩⟩ }
      · exact h.right
      · constructor
        · have hre := h.out.window.resend hlt
          unfold half at hre ⊢
          rw [Option.toList_some, List.filterMap_append]
          exact hre
        · exact h.out.settled
        · exact h.out.receives
        · intro k hk
          rcases List.mem_append.mp hk with hk | hk
          · exact h.out.encodes k hk
          · rw [Option.toList_some] at hk
            rw [List.mem_singleton.mp hk]
            exact ⟨seq, f, hf, hseq, hdata, rfl⟩
      · apply DirInv.emit
        · exact h.back.congr_receiver rfl rfl (Or.inl rfl)
        · intro r hr
          cases hst : p.stamp with
          | some x =>
              rw [hst, Option.some_or, Option.some.injEq] at hr
              subst hr
              exact p.stamp_fresh x hst
          | none =>
              rw [hst, Option.none_or] at hr
              have hnone : p.ch.state.ackPending = none := by
                unfold Side.stamp at hst
                split at hst
                · cases hst
                · rename_i hn
                  simpa using hn
              exact ⟨h.left.flight_ack stored hmem r hr,
                hfresh hnone stored (by rw [hfl]; rfl) r hr⟩

/-! ## Receiving -/

namespace Side

/-- The acknowledgement part of a `receive_fragment`. -/
def afterAck (now : ℕ) (ack : Option ℕ) (p : Side) : Side :=
  let ch := applyAck now ack p.ch
  { p with
    ch := ch
    base := unwrap p.base p.ch.state.sendBase ch.state.sendBase
    flight := p.flight.drop (p.flight.length - ch.state.inFlight.length) }

/-- The data part of a `receive_fragment`. -/
def afterData (now : ℕ) (seq : UInt8) (f : FragmentEntry) (p : Side) : Side :=
  let ch := receiveData now seq f.first f.last f.payload p.ch
  { p with ch := ch, rcvd := unwrap p.rcvd p.ch.state.recvNext ch.state.recvNext }

/-- Receiving a data message: its acknowledgement first, then its fragment. -/
theorem receive_data (now : ℕ) {seq : UInt8} {i : ℕ} (hseq : Wraps seq i)
    {f : FragmentEntry} (hf : (f.first || f.last || !f.payload.isEmpty) = true) {k : Packet}
    (hk : k.bytes = dataByte seq f.first f.last :: ackByte k.ack ::
      (f.payload ++ [fragmentCanary])) (p : Side) :
    p.receive now k = (p.afterAck now k.ack).afterData now seq f := by
  have hch : receiveFragment now k.bytes p.ch =
      receiveData now seq f.first f.last f.payload (applyAck now k.ack p.ch) := by
    rw [hk]
    exact receiveFragment_data now hseq k.ack hf p.ch
  have hsp := receiveData_sendPart now seq f.first f.last f.payload (applyAck now k.ack p.ch)
  have hsb := congrArg SendPart.sendBase hsp
  have hif := congrArg SendPart.inFlight hsp
  have hrn := congrArg RecvPart.recvNext (applyAck_recvPart now k.ack p.ch).1
  simp only [sendPart, recvPart] at hsb hif hrn
  unfold receive afterData afterAck
  rw [hch]
  simp only [hsb, hif, hrn]

/-- Receiving an acknowledgement by itself. -/
theorem receive_pureAck (now : ℕ) {k : Packet} {r : ℕ} (hr : k.ack = some r)
    (hk : k.bytes = [0, ackByte (some r)]) {p : Side} (hw : Wraps p.ch.state.recvNext p.rcvd) :
    p.receive now k = p.afterAck now k.ack := by
  have hch : receiveFragment now k.bytes p.ch = applyAck now k.ack p.ch := by
    rw [hk, hr]
    exact receiveFragment_pureAck now r p.ch
  have hrn := congrArg RecvPart.recvNext (applyAck_recvPart now k.ack p.ch).1
  simp only [recvPart] at hrn
  unfold receive afterAck
  rw [hch]
  simp only [hrn, unwrap_eq hw hw (le_refl _) (by omega)]

end Side

/-- What the acknowledgement of the message at the head of `acks` does to its
receiver: nothing, or the window slides to it. -/
theorem DirInv.afterAck_cases {p q : Side} {data acks : List Packet} {k : Packet}
    (h : DirInv p q data (k :: acks)) (hp : SideInv p) (now : ℕ) :
    p.afterAck now k.ack = p ∨
    ∃ r ch, k.ack = some r ∧ p.base < r ∧ r ≤ p.next ∧
      ch = notifyOne { p.ch with state := { p.ch.state with
        inFlight := p.ch.state.inFlight.drop (r - p.base)
        sendBase := UInt8.ofNat (r % 16)
        lastProgressAt := now } } ∧
      p.afterAck now k.ack =
        { p with ch := ch, base := r, flight := p.flight.drop (r - p.base) } := by
  -- an acknowledgement outside the window changes nothing
  have hsame : ∀ ack, applyAck now ack p.ch = p.ch → p.afterAck now ack = p := by
    intro ack hch
    have hlen := congrArg List.length hp.flight_msg
    simp only [List.length_map] at hlen
    unfold Side.afterAck
    simp only [hch, unwrap_eq hp.base hp.base (le_refl _) (by omega), hlen, Nat.sub_self,
      List.drop_zero]
  cases hk : k.ack with
  | none => exact Or.inl (hsame none rfl)
  | some r =>
      -- the acknowledged number lies between the two ends of the window
      have hwin := h.window
      have hbr : p.base ≤ q.rcvd := hwin.base_le
      have hrn : q.rcvd ≤ p.next := hwin.rcvd_le
      have hnb : p.next ≤ p.base + 6 := hwin.next_le
      obtain ⟨hr1, hr2⟩ : r ≤ q.rcvd ∧ p.base ≤ r + 9 :=
        hwin.ack r (by simp [half, hk])
      have hin := hp.inFlight_length
      have hspec := receiveAck_spec hp.base hp.next hin (by omega) hnb (by omega) hr2 now
      by_cases hlt : p.base < r
      · rw [if_pos hlt] at hspec
        have hw : Wraps (UInt8.ofNat (r % 16)) r := by
          unfold Wraps
          rw [UInt8.toNat_ofNat']
          omega
        have hlen := congrArg List.length hp.flight_msg
        simp only [List.length_map] at hlen
        have hdrop : p.flight.length - (p.ch.state.inFlight.length - (r - p.base)) =
            r - p.base := by omega
        refine Or.inr ⟨r, _, rfl, hlt, by omega, rfl, ?_⟩
        unfold Side.afterAck applyAck
        simp only [hspec, notifyOne, unwrap_eq hp.base hw (by omega) (by omega), List.length_drop,
          hdrop]
      · rw [if_neg hlt] at hspec
        exact Or.inl (hsame (some r) hspec)

/-- An acknowledgement moves the window of its receiver and nothing else. -/
theorem DirInv.afterAck {p q : Side} {data acks : List Packet} {k : Packet}
    (h : DirInv p q data (k :: acks)) (hp : SideInv p) (now : ℕ) :
    SideInv (p.afterAck now k.ack) ∧ DirInv (p.afterAck now k.ack) q data acks := by
  rcases h.afterAck_cases hp now with heq | ⟨r, ch, hk, hlt, hrn, hch, heq⟩
  · rw [heq]
    exact ⟨hp, h.lose (List.Sublist.refl _) (List.sublist_cons_self _ _)⟩
  · rw [heq]
    subst hch
    constructor
    · -- the window starts at the acknowledged number from now on
      obtain ⟨ds, hds⟩ := hp.cut
      constructor
      · show Wraps (UInt8.ofNat (r % 16)) r
        unfold Wraps
        rw [UInt8.toNat_ofNat']
        omega
      · exact hp.next
      · exact hp.sent
      · show (p.ch.state.inFlight.drop (r - p.base)).map _ = _
        rw [List.map_drop, List.map_drop, hp.flight_msg]
      · show (p.flight.drop (r - p.base)).map _ = (List.range' r (p.next - r)).map some
        rw [List.map_drop, hp.flight_idx, ← List.map_drop, List.drop_range',
          show p.base + (r - p.base) * 1 = r from by omega,
          show p.next - p.base - (r - p.base) = p.next - r from by omega]
      · intro k' hk'
        exact hp.flight_ack k' (List.mem_of_mem_drop hk')
      · intro k' hk'
        exact hp.flight_enc k' (List.mem_of_mem_drop hk')
      · exact ⟨ds, ⟨hds.accepted, hds.frags, hds.chunk, hds.chunkSize⟩⟩
    · refine ⟨?_, h.settled, h.receives, h.encodes⟩
      have hacks : (half p q data (k :: acks)).acks = r :: acks.filterMap (·.ack) := by
        simp [half, hk]
      exact h.window.slide hacks (Nat.le_of_lt hlt)

/-- The data at the head of the link is accepted, buffered or ignored as its
absolute number says. -/
theorem DirInv.afterData {p q : Side} {data acks : List Packet} {k : Packet}
    (h : DirInv p q (k :: data) acks) {i : ℕ} (hi : k.idx = some i) {seq : UInt8}
    (hseq : Wraps seq i) {f : FragmentEntry} (hf : p.sent[i]? = some f) (now : ℕ) :
    DirInv p (q.afterData now seq f) data acks ∧ q.rcvd ≤ (q.afterData now seq f).rcvd := by
  have hwin := h.window
  have hbr : p.base ≤ q.rcvd := hwin.base_le
  have hnb : p.next ≤ p.base + 6 := hwin.next_le
  have hwire : (half p q (k :: data) acks).wire = i :: data.filterMap (·.idx) := by
    simp [half, hi]
  obtain ⟨hi1, hi2, hi3⟩ : i < p.next ∧ q.rcvd ≤ i + 6 ∧ i < q.rcvd + 6 :=
    hwin.wire i (by rw [hwire]; exact List.mem_cons_self)
  have hR := h.receives
  obtain ⟨m, hle, hRm, hset, hhas⟩ := hR.offer ⟨hwin.buf_nodup, h.settled⟩ hseq hf (by omega) hi3 now
  have hIm : SlidingWindow.Inv 6 9 { half p q (k :: data) acks with
      wire := data.filterMap (·.idx), rcvd := m,
      buf := heldIdx m (receiveData now seq f.first f.last f.payload q.ch) } := by
    refine hwin.arrive hwire hle (fun j hj => le_of_mem_heldIdx hj) hset.nodup ?_
    intro j
    rw [← or_assoc]
    exact hhas j
  have hm : m ≤ p.next := hIm.rcvd_le
  have heq : q.afterData now seq f =
      { q with ch := receiveData now seq f.first f.last f.payload q.ch, rcvd := m } := by
    unfold Side.afterData
    simp only [unwrap_eq hR.wraps hRm.wraps hle (by omega)]
  rw [heq]
  exact ⟨⟨hIm, hset.next, hRm, fun k' hk' => h.encodes k' (by simp [hk'])⟩, hle⟩

/-- A data fragment leaves the sending half alone. -/
theorem SideInv.afterData {p : Side} (h : SideInv p) {now : ℕ} {seq : UInt8}
    {f : FragmentEntry} (hr : p.rcvd ≤ (p.afterData now seq f).rcvd) :
    SideInv (p.afterData now seq f) := by
  have hsp := receiveData_sendPart now seq f.first f.last f.payload p.ch
  have hsb := congrArg SendPart.sendBase hsp
  have hsn := congrArg SendPart.sendNext hsp
  have hif := congrArg SendPart.inFlight hsp
  have hsq := congrArg SendPart.sendQueue hsp
  have hfq := congrArg SendPart.fragQueue hsp
  have hcs := congrArg SendPart.chunkSize hsp
  simp only [sendPart] at hsb hsn hif hsq hfq hcs
  obtain ⟨ds, hds⟩ := h.cut
  constructor
  · exact hsb ▸ h.base
  · exact hsn ▸ h.next
  · exact h.sent
  · exact hif ▸ h.flight_msg
  · exact h.flight_idx
  · exact fun k hk r hk' => le_trans (h.flight_ack k hk r hk') hr
  · exact h.flight_enc
  · exact ⟨ds, ⟨hsq ▸ hds.accepted, hfq ▸ hds.frags, hds.chunk, hcs ▸ hds.chunkSize⟩⟩

/-- A message received keeps the invariant. -/
theorem PairInv.receive {p q : Side} {lp lq : List Packet} {k : Packet}
    (h : PairInv p q lp (k :: lq)) (now : ℕ) : PairInv (p.receive now k) q lp lq := by
  obtain ⟨hs₁, hout₁⟩ := h.out.afterAck h.left now
  -- the acknowledgement part leaves the receiving half of `p` alone
  have hback₁ : DirInv q (p.afterAck now k.ack) (k :: lq) lp := by
    obtain ⟨hrp, hap⟩ := applyAck_recvPart now k.ack p.ch
    exact h.back.congr_receiver rfl hrp (Or.inr hap)
  have henc := h.back.encodes k List.mem_cons_self
  unfold Encodes at henc
  cases hi : k.idx with
  | none =>
      rw [hi] at henc
      obtain ⟨r, hr, hb⟩ := henc
      rw [Side.receive_pureAck now hr hb h.back.receives.wraps]
      exact ⟨hs₁, h.right, hout₁, hback₁.lose (List.sublist_cons_self _ _) (List.Sublist.refl _)⟩
  | some i =>
      rw [hi] at henc
      obtain ⟨seq, f, hf, hseq, hdata, hb⟩ := henc
      obtain ⟨hback₂, hle⟩ := hback₁.afterData hi hseq hf now
      rw [Side.receive_data now hseq hdata hb]
      exact ⟨hs₁.afterData hle, h.right, hout₁.congr_sender rfl rfl rfl, hback₂⟩

end IrohBle.Reliable
