import IrohBle.Conns

/-! # Transport.Recv: packets handed to iroh

`BleEndpoint::poll_recv` moves packets from the transport's channel into the slots that iroh
offers: a buffer, a `RecvMeta` and a `RecvInfo` each. A packet that is larger than the buffer of
the next slot is dropped, and the slot stays free.

* `Taken`: what is taken out of the channel is reported in the next slot, or too large for it.
* `loses_nothing_iff`: one call reports everything it takes out and does not drop for its size,
  exactly if it does not come to the end of a closed channel with some slots filled and others
  not.
* `closed_after_fill`: it loses what it has filled otherwise.
-/

namespace IrohBle

open Lib Reliable

/-! ## The call -/

/-- A received datagram with where it is from. -/
structure IncomingPacket where
  deviceId : DeviceId
  stableConnId : StableConnId
  data : Bytes
deriving DecidableEq

/-- The fields of a `RecvMeta` that the call writes. -/
structure RecvMeta where
  len : ℕ := 0
  stride : ℕ := 0
deriving DecidableEq, Repr

/-- What is told of a packet beside its bytes. -/
structure RecvInfo where
  remoteAddr : Path
  localAddr : Option Path := none
deriving DecidableEq, Repr

/-- The token that is never minted for a peer. -/
def localAddrToken : ℕ := 0

/-- The address of a stable id. -/
def tokenCustomAddr (token : ℕ) : Path := .ble token

/-- The own address, which is the same for all packets. -/
def localCustomAddr : Path := tokenCustomAddr localAddrToken

/-- The three slices of a call. -/
structure Slots where
  bufs : List Bytes
  metas : List RecvMeta
  recvInfos : List RecvInfo
deriving DecidableEq

namespace Slots

/-- How many slots are offered: the shortest of the three lists. -/
def count (s : Slots) : ℕ := min (min s.bufs.length s.metas.length) s.recvInfos.length

/-- How long the buffer of a slot is. -/
def capacity (s : Slots) (i : ℕ) : ℕ := (s.bufs[i]?.getD []).length

/-- A packet is put into a slot. -/
def fill (i : ℕ) (p : IncomingPacket) (s : Slots) : Slots where
  bufs := s.bufs.modify i fun buf => p.data ++ buf.drop p.data.length
  metas := s.metas.set i ⟨p.data.length, p.data.length⟩
  recvInfos := s.recvInfos.set i ⟨tokenCustomAddr p.stableConnId.raw, some localCustomAddr⟩

/-- The slot holds the packet's bytes, their number and the token of its pipe. -/
structure Reports (s : Slots) (i : ℕ) (p : IncomingPacket) : Prop where
  bytes : s.bufs[i]?.map (List.take p.data.length) = some p.data
  size : s.metas[i]? = some ⟨p.data.length, p.data.length⟩
  info : s.recvInfos[i]? = some ⟨tokenCustomAddr p.stableConnId.raw, some localCustomAddr⟩

end Slots

/-- What `poll_recv` returns. -/
inductive PollRecv where
  | pending
  | ok (filled : ℕ)
  | err (text : String)
deriving DecidableEq, Repr

/-- The number of slots that the caller is told to read. -/
def PollRecv.reported : PollRecv → ℕ
  | .ok filled => filled
  | _ => 0

/-- What it returns when the channel is gone. -/
def channelClosed : PollRecv := .err "BLE transport channel closed"

/-- What is returned after the loop. -/
def PollRecv.done (filled : ℕ) : PollRecv := if 0 < filled then .ok filled else .pending

/-- The receiving end: the channel and the count of received bytes. -/
structure BleEndpoint where
  /-- What the receiver has not been polled for yet. -/
  queue : List IncomingPacket
  /-- Every sender of the channel is gone. -/
  closed : Bool := false
  rxBytes : ℕ := 0

namespace BleEndpoint

/-- The loop, with `filled` slots filled. -/
def recvLoop (n : ℕ) (closed : Bool) : List IncomingPacket → ℕ → Slots → ℕ →
    PollRecv × Slots × BleEndpoint
  | [], filled, slots, rxBytes =>
    if filled < n then
      -- `Ready(None)`, or `Pending`
      if closed then (channelClosed, slots, ⟨[], closed, rxBytes⟩)
      else (.done filled, slots, ⟨[], closed, rxBytes⟩)
    else (.done filled, slots, ⟨[], closed, rxBytes⟩)
  | p :: queue, filled, slots, rxBytes =>
    if filled < n then
      if slots.capacity filled < p.data.length then recvLoop n closed queue filled slots rxBytes
      else
        recvLoop n closed queue (filled + 1) (slots.fill filled p) (rxBytes + p.data.length)
    else (.done filled, slots, ⟨p :: queue, closed, rxBytes⟩)

/-- `poll_recv`. -/
def pollRecv (slots : Slots) (e : BleEndpoint) : PollRecv × Slots × BleEndpoint :=
  if slots.count = 0 then (.ok 0, slots, e)
  else recvLoop slots.count e.closed e.queue 0 slots e.rxBytes

end BleEndpoint

/-! ## What is taken out of the channel -/

section Taken

variable (capacity : ℕ → ℕ)

/-- From slot `i` on: each packet is reported in the next slot, or larger than its buffer. -/
inductive Taken : ℕ → List IncomingPacket → List IncomingPacket → Prop where
  | nil {i : ℕ} : Taken i [] []
  | drops {i : ℕ} {p : IncomingPacket} {removed reported : List IncomingPacket}
      (hlarge : capacity i < p.data.length) (h : Taken i removed reported) :
      Taken i (p :: removed) reported
  | puts {i : ℕ} {p : IncomingPacket} {removed reported : List IncomingPacket}
      (hfits : p.data.length ≤ capacity i) (h : Taken (i + 1) removed reported) :
      Taken i (p :: removed) (p :: reported)

/-- The packets fit the slots from `i` on, one each. -/
def FitSlots : ℕ → List IncomingPacket → Prop
  | _, [] => True
  | i, p :: ps => p.data.length ≤ capacity i ∧ FitSlots (i + 1) ps

end Taken

namespace Taken

variable {capacity : ℕ → ℕ} {i : ℕ} {removed reported : List IncomingPacket}

/-- What is reported was taken out, in order. -/
theorem sublist (h : Taken capacity i removed reported) : reported.Sublist removed := by
  induction h with
  | nil => exact List.Sublist.refl _
  | drops _ _ ih => exact ih.cons _
  | puts _ _ ih => exact ih.cons_cons _

/-- What is reported fits its slot. -/
theorem fits (h : Taken capacity i removed reported) : FitSlots capacity i reported := by
  induction h with
  | nil => exact trivial
  | drops _ _ ih => exact ih
  | puts hfits _ ih => exact ⟨hfits, ih⟩

/-- If nothing is reported, every packet is too large for the slot. -/
theorem large (h : Taken capacity i removed []) : ∀ p ∈ removed, capacity i < p.data.length := by
  intro p hp
  induction removed with
  | nil => cases hp
  | cons q removed ih =>
      cases h with
      | drops hlarge h =>
          rcases List.mem_cons.mp hp with rfl | hp
          · exact hlarge
          · exact ih h hp

/-- Taking each packet that fits fills as many slots as any choice of packets does. -/
theorem longest (h : Taken capacity i removed reported) {ps : List IncomingPacket}
    (hsub : ps.Sublist removed) (hps : FitSlots capacity i ps) : ps.length ≤ reported.length := by
  induction h generalizing ps with
  | nil =>
      rw [List.sublist_nil.mp hsub]
  | drops hlarge _ ih =>
      rcases List.sublist_cons_iff.mp hsub with hsub | ⟨ps', rfl, _⟩
      · exact ih hsub hps
      · exact absurd hps.1 (Nat.not_le.mpr hlarge)
  | puts hfits _ ih =>
      -- the first slot is used by this packet or by a later one
      cases ps with
      | nil => exact Nat.zero_le _
      | cons q ps =>
          have htail : ps.Sublist _ := (List.sublist_cons_iff.mp hsub).elim
            (fun hsub => (List.sublist_cons_self q ps).trans hsub)
            (fun ⟨ps', heq, hsub⟩ => (List.cons.inj heq).2 ▸ hsub)
          have hlen := ih htail hps.2
          rw [List.length_cons, List.length_cons]
          omega

end Taken

/-! ## Filling a slot -/

namespace Slots

variable {s : Slots} {i j : ℕ} {p q : IncomingPacket}

theorem count_fill : (s.fill i p).count = s.count := by
  simp only [count, fill, List.length_modify, List.length_set]

/-- A packet that fits leaves the size of each buffer. -/
theorem capacity_fill (hfits : p.data.length ≤ s.capacity i) :
    (s.fill i p).capacity = s.capacity := by
  funext k
  simp only [capacity, fill, List.getElem?_modify] at hfits ⊢
  cases hk : s.bufs[k]? with
  | none => rfl
  | some buf =>
      by_cases hik : i = k
      · subst hik
        simp only [hk, Option.getD_some] at hfits
        simp [hfits]
      · simp [hik]

/-- A filled slot reports its packet. -/
theorem reports_fill (hi : i < s.count) : (s.fill i p).Reports i p := by
  have hbufs : i < s.bufs.length := by grind [count]
  have hmetas : i < s.metas.length := by grind [count]
  have hinfos : i < s.recvInfos.length := by grind [count]
  constructor
  · simp [fill, hbufs]
  · simp [fill, hmetas]
  · simp [fill, hinfos]

theorem Reports.fill (h : s.Reports j q) (hij : i ≠ j) : (s.fill i p).Reports j q := by
  constructor
  · simpa [Slots.fill, List.getElem?_modify, hij] using h.bytes
  · simpa [Slots.fill, hij] using h.size
  · simpa [Slots.fill, hij] using h.info

end Slots

/-! ## One call -/

namespace BleEndpoint

/-- What the loop does from `filled` on, with what it takes out and what of it it reports. -/
structure Fills (n : ℕ) (closed : Bool) (queue : List IncomingPacket) (filled : ℕ) (slots : Slots)
    (out : PollRecv × Slots × BleEndpoint) (removed reported : List IncomingPacket) : Prop where
  split : queue = removed ++ out.2.2.queue
  taken : Taken slots.capacity filled removed reported
  reports : ∀ k p, reported[k]? = some p → out.2.1.Reports (filled + k) p
  keeps : ∀ i < filled, ∀ p, slots.Reports i p → out.2.1.Reports i p
  idle : reported = [] → out.2.1 = slots
  ends : filled + reported.length = n ∧ out.1 = .done n ∨
    out.2.2.queue = [] ∧ filled + reported.length < n ∧
      out.1 = if closed then channelClosed else .done (filled + reported.length)

variable {n : ℕ} {closed : Bool} {filled : ℕ} {slots : Slots} {e : BleEndpoint}

/-- With all slots filled the loop ends. -/
theorem Fills.full (queue : List IncomingPacket) (e : BleEndpoint) (hq : e.queue = queue) :
    Fills n closed queue n slots (.done n, slots, e) [] [] where
  split := hq.symm
  taken := .nil
  reports := fun k p h => by simp at h
  keeps := fun _ _ _ h => h
  idle := fun _ => rfl
  ends := .inl ⟨rfl, rfl⟩

/-- What the loop takes out, reports and leaves. -/
theorem recvLoop_fills (queue : List IncomingPacket) (rxBytes : ℕ) (hn : n ≤ slots.count)
    (hfilled : filled ≤ n) : ∃ removed reported, Fills n closed queue filled slots
      (recvLoop n closed queue filled slots rxBytes) removed reported := by
  induction queue generalizing filled slots rxBytes with
  | nil =>
      -- there is nothing more to take, with a slot left or with none
      rcases Nat.lt_or_eq_of_le hfilled with hlt | rfl
      · refine ⟨[], [], ?_⟩
        constructor
        · simp only [recvLoop, hlt, if_true]
          cases closed <;> rfl
        · exact .nil
        · intro k p h
          simp at h
        · intro i _ p h
          simp only [recvLoop, hlt, if_true]
          cases closed <;> exact h
        · intro _
          simp only [recvLoop, hlt, if_true]
          cases closed <;> rfl
        · right
          simp only [recvLoop, hlt, if_true]
          cases closed <;> exact ⟨rfl, hlt, rfl⟩
      · refine ⟨[], [], ?_⟩
        simp only [recvLoop, Nat.lt_irrefl, if_false]
        exact Fills.full [] _ rfl
  | cons p queue ih =>
      rcases Nat.lt_or_eq_of_le hfilled with hlt | rfl
      · simp only [recvLoop, hlt, if_true]
        by_cases hlarge : slots.capacity filled < p.data.length
        · -- dropped: the slot is offered to the next packet
          simp only [hlarge, if_true]
          obtain ⟨removed, reported, h⟩ := ih rxBytes hn hfilled
          refine ⟨p :: removed, reported, ?_⟩
          exact { h with
            split := congrArg (p :: ·) h.split
            taken := .drops hlarge h.taken }
        · -- put into the slot, which the rest of the loop leaves as it is
          simp only [hlarge, if_false]
          have hfits := Nat.not_lt.mp hlarge
          have hn' : n ≤ (slots.fill filled p).count := hn.trans_eq Slots.count_fill.symm
          obtain ⟨removed, reported, h⟩ := ih (rxBytes + p.data.length) hn' hlt
          have hreport : (slots.fill filled p).Reports filled p := Slots.reports_fill (by omega)
          refine ⟨p :: removed, p :: reported, ?_⟩
          constructor
          · exact congrArg (p :: ·) h.split
          · exact .puts hfits (Slots.capacity_fill hfits ▸ h.taken)
          · intro k q hk
            cases k with
            | zero =>
                rw [List.getElem?_cons_zero, Option.some.injEq] at hk
                exact hk ▸ h.keeps filled (Nat.lt_succ_self _) p hreport
            | succ k =>
                rw [List.getElem?_cons_succ] at hk
                rw [Nat.add_comm k 1, ← Nat.add_assoc]
                exact h.reports k q hk
          · intro i hi q hq
            exact h.keeps i (by omega) q (hq.fill (by omega))
          · intro hnil
            cases hnil
          · rw [List.length_cons, Nat.add_comm reported.length 1, ← Nat.add_assoc]
            exact h.ends
      · refine ⟨[], [], ?_⟩
        simp only [recvLoop, Nat.lt_irrefl, if_false]
        exact Fills.full (p :: queue) _ rfl

/-- What the call takes out of the channel is reported in the slots, in order, or too large for
the buffer that it was offered; and a call that fails has filled no slot. -/
structure LosesNothing (slots : Slots) (e : BleEndpoint) (removed reported : List IncomingPacket) :
    Prop where
  split : e.queue = removed ++ (e.pollRecv slots).2.2.queue
  taken : Taken slots.capacity 0 removed reported
  count : (e.pollRecv slots).1.reported = reported.length
  reports : ∀ i p, reported[i]? = some p → (e.pollRecv slots).2.1.Reports i p
  idle : ∀ text, (e.pollRecv slots).1 = .err text → (e.pollRecv slots).2.1 = slots

theorem pollRecv_fills (h0 : slots.count ≠ 0) : ∃ removed reported,
    Fills slots.count e.closed e.queue 0 slots (e.pollRecv slots) removed reported := by
  rw [pollRecv, if_neg h0]
  exact recvLoop_fills e.queue e.rxBytes (Nat.le_refl _) (Nat.zero_le _)

/-- How many packets a call reports. -/
theorem reported_done (k : ℕ) : (PollRecv.done k).reported = k := by
  unfold PollRecv.done
  split
  · rfl
  · exact (Nat.eq_zero_of_not_pos ‹_›).symm

theorem done_ne_err (k : ℕ) (text : String) : PollRecv.done k ≠ .err text := by
  unfold PollRecv.done
  split <;> exact PollRecv.noConfusion

/-- The channel has been closed, and what is in it fills some of the slots, but not all. -/
def Strands (slots : Slots) (e : BleEndpoint) : Prop :=
  e.closed = true ∧ (∃ p ∈ e.queue, p.data.length ≤ slots.capacity 0) ∧
    ∀ ps : List IncomingPacket, ps.Sublist e.queue → FitSlots slots.capacity 0 ps →
      ps.length ≠ slots.count

/-- Without slots nothing is taken out. -/
theorem losesNothing_of_count_eq_zero (h0 : slots.count = 0) : LosesNothing slots e [] [] := by
  have heq : e.pollRecv slots = (.ok 0, slots, e) := by rw [pollRecv, if_pos h0]
  constructor
  · rw [heq]
    rfl
  · exact .nil
  · rw [heq]
    rfl
  · intro i p h
    simp at h
  · intro text _
    rw [heq]

/-- The loop does not come to the end of a closed channel with a slot filled. -/
theorem Fills.losesNothing {removed reported : List IncomingPacket}
    (h : Fills slots.count e.closed e.queue 0 slots (e.pollRecv slots) removed reported)
    (hs : ¬ Strands slots e) : LosesNothing slots e removed reported := by
  have hsub : reported.Sublist e.queue :=
    h.taken.sublist.trans (h.split ▸ List.sublist_append_left _ _)
  -- all slots are full, or the channel has been emptied
  have hdone : (e.pollRecv slots).1 = .done reported.length ∨
      reported = [] ∧ (e.pollRecv slots).1 = channelClosed := by
    rcases h.ends with ⟨hfull, hout⟩ | ⟨hrest, hlt, hout⟩
    · rw [Nat.zero_add] at hfull
      exact .inl (hfull ▸ hout)
    · rw [Nat.zero_add] at hlt hout
      cases hclosed : e.closed with
      | false => exact .inl (by rwa [hclosed] at hout)
      -- the end of a closed channel is told only where no slot was filled
      | true =>
          refine .inr ⟨?_, by rwa [hclosed] at hout⟩
          by_contra hne
          obtain ⟨p, ps, rfl⟩ := List.exists_cons_of_ne_nil hne
          apply hs
          refine ⟨hclosed, ⟨p, hsub.mem List.mem_cons_self, h.taken.fits.1⟩, ?_⟩
          intro ps' hps' hfits
          rw [h.split, hrest, List.append_nil] at hps'
          exact Nat.ne_of_lt ((h.taken.longest hps' hfits).trans_lt hlt)
  constructor
  · exact h.split
  · exact h.taken
  · rcases hdone with hout | ⟨hnil, hout⟩
    · rw [hout, reported_done]
    · rw [hout, hnil]
      rfl
  · intro i p hi
    exact Nat.zero_add i ▸ h.reports i p hi
  · intro text herr
    rcases hdone with hout | ⟨hnil, _⟩
    · exact absurd (hout ▸ herr) (done_ne_err _ _)
    · exact h.idle hnil

/-- A call that comes to the end of the channel with some slots filled loses them. -/
theorem Strands.loses (hs : Strands slots e) {removed reported : List IncomingPacket}
    (h : LosesNothing slots e removed reported) : False := by
  obtain ⟨hclosed, ⟨p, hp, hfits⟩, hshort⟩ := hs
  have h0 : slots.count ≠ 0 := (hshort [] (List.nil_sublist _) trivial).symm
  obtain ⟨removed', reported', hf⟩ := pollRecv_fills (e := e) h0
  rcases hf.ends with ⟨hfull, _⟩ | ⟨hrest, _, hout⟩
  · have hsub : reported'.Sublist e.queue :=
      hf.taken.sublist.trans (hf.split ▸ List.sublist_append_left _ _)
    exact hshort reported' hsub hf.taken.fits ((Nat.zero_add _).symm.trans hfull)
  · -- the call has emptied the channel and fails, so it reports nothing
    have hnone : reported = [] := by
      have hcount := h.count
      rw [hout, hclosed, if_pos rfl] at hcount
      exact List.eq_nil_of_length_eq_zero hcount.symm
    have hall : e.queue = removed := by
      rw [h.split, hrest, List.append_nil]
    subst hnone
    exact absurd hfits (Nat.not_le.mpr (h.taken.large p (hall ▸ hp)))

/-- A call takes nothing out of the channel that it neither reports nor finds too large, exactly
if what is left of a closed channel fills all of the slots or none. -/
theorem loses_nothing_iff (slots : Slots) (e : BleEndpoint) :
    (∃ removed reported, LosesNothing slots e removed reported) ↔ ¬ Strands slots e := by
  constructor
  · rintro ⟨removed, reported, h⟩ hs
    exact hs.loses h
  · intro hs
    by_cases h0 : slots.count = 0
    · exact ⟨[], [], losesNothing_of_count_eq_zero h0⟩
    · obtain ⟨removed, reported, h⟩ := pollRecv_fills (e := e) h0
      exact ⟨removed, reported, h.losesNothing hs⟩

/-- Two slots of two bytes. -/
def twoSlots : Slots where
  bufs := [[0, 0], [0, 0]]
  metas := [{}, {}]
  recvInfos := [⟨.other, none⟩, ⟨.other, none⟩]

/-- A closed channel with one packet left. -/
def lastPacket : BleEndpoint where
  queue := [⟨"a", ⟨1⟩, [7]⟩]
  closed := true

/-- The last packet of a closed channel goes into the first of two slots, and the call fails. -/
theorem closed_after_fill :
    (lastPacket.pollRecv twoSlots).1 = channelClosed ∧
      (lastPacket.pollRecv twoSlots).2.2.queue = [] ∧
      (lastPacket.pollRecv twoSlots).2.1 ≠ twoSlots ∧
      ¬ ∃ removed reported, LosesNothing twoSlots lastPacket removed reported := by
  refine ⟨rfl, rfl, by decide, ?_⟩
  rintro ⟨removed, reported, h⟩
  have hs : Strands twoSlots lastPacket := by
    refine ⟨rfl, ⟨_, List.mem_cons_self, by decide⟩, ?_⟩
    intro ps hsub _ hlen
    exact absurd hsub.length_le (by rw [hlen]; decide)
  exact hs.loses h

end BleEndpoint

end IrohBle
