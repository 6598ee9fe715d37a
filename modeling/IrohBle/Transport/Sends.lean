import IrohBle.Lib.LittleEndian
import IrohBle.Routing.Hints
import IrohBle.Tombstones.Stages

/-! # Transport.Sends: where a transmit goes

`BleSender::poll_send` is handed an address. It reads a stable id from it, and looks for the pipe
of that id, for a reservation with that id, and for the tombstone of a pipe that had it. Each of
these takes the table's lock on its own, so the other tasks move in between.

* `CustomAddr`: the format of the addresses, and which of them are read as ids.
* `Senders`: any number of calls under way, each between two of its lookups.
* `Holds`: what is true of the id when a call has its answer.
* `poll_send_answers`: every answer of every call is true.
* `refused_while_opening`: an id that is being opened is refused as unknown.
-/

namespace IrohBle

open Lib Reliable

/-! ## Addresses -/

/-- An address of a custom transport. -/
structure CustomAddr where
  id : ℕ
  data : Bytes
deriving DecidableEq, Repr

/-- The `io::Error` of an address or a lookup. -/
inductive SendError where
  | other (text : String)
  | notFound (text : String)
deriving DecidableEq, Repr

/-- The id of this transport in a custom address. -/
def bleTransportId : ℕ := 0x424C45

/-- The data of an address is a token of eight bytes. -/
def tokenLen : ℕ := 8

namespace CustomAddr

/-- `token_custom_addr`. -/
def tokenCustomAddr (token : ℕ) : CustomAddr := ⟨bleTransportId, LittleEndian.encode tokenLen token⟩

/-- `parse_token_addr`. -/
def parseTokenAddr (addr : CustomAddr) : Except SendError ℕ :=
  if addr.id ≠ bleTransportId then .error (.other "not a BLE transport address")
  else if addr.data.length ≠ tokenLen then .error (.other "BLE custom addr has wrong length")
  else .ok (LittleEndian.decode addr.data)

/-- `is_valid_send_addr`. -/
def isValidSendAddr (addr : CustomAddr) : Bool :=
  addr.id == bleTransportId && addr.data.length == tokenLen

/-- The addresses that are read as ids are those of the ids below `2 ^ 64`. -/
theorem parseTokenAddr_eq_ok {addr : CustomAddr} {token : ℕ} :
    addr.parseTokenAddr = .ok token ↔ token < 2 ^ 64 ∧ addr = tokenCustomAddr token := by
  constructor
  · intro h
    unfold parseTokenAddr at h
    split at h
    · cases h
    · rename_i hid
      split at h
      · cases h
      · rename_i hlen
        obtain rfl := Except.ok.inj h
        have hlen' := not_not.mp hlen
        have hlt := LittleEndian.decode_lt addr.data
        have hback := LittleEndian.encode_decode addr.data
        rw [hlen'] at hlt hback
        refine ⟨hlt, ?_⟩
        obtain ⟨id, data⟩ := addr
        obtain rfl := not_not.mp hid
        rw [tokenCustomAddr, hback]
  · rintro ⟨hlt, rfl⟩
    have hlen : (LittleEndian.encode tokenLen token).length = tokenLen :=
      LittleEndian.length_encode tokenLen token
    have hback : LittleEndian.decode (LittleEndian.encode tokenLen token) = token :=
      LittleEndian.decode_encode hlt
    simp only [parseTokenAddr, tokenCustomAddr, hlen, hback, ne_eq, not_true, if_false]

/-- Exactly the addresses that iroh is told are valid can be read. -/
theorem isValidSendAddr_iff {addr : CustomAddr} :
    addr.isValidSendAddr = true ↔ ∃ token, addr.parseTokenAddr = .ok token := by
  unfold isValidSendAddr parseTokenAddr
  rw [Bool.and_eq_true, beq_iff_eq, beq_iff_eq]
  constructor
  · rintro ⟨hid, hlen⟩
    exact ⟨_, by rw [if_neg (not_not.mpr hid), if_neg (not_not.mpr hlen)]⟩
  · rintro ⟨token, h⟩
    split at h
    · cases h
    · rename_i hid
      split at h
      · cases h
      · rename_i hlen
        exact ⟨not_not.mp hid, not_not.mp hlen⟩

end CustomAddr

/-! ## The calls -/

/-- What the lookups of a call come to. -/
inductive Routed where
  /-- The command that `poll_send` goes on with is a `SendDatagram` for this device. -/
  | sendDatagram (device : DeviceId) (target : Option EndpointId)
  /-- The pipe was evicted lately: the transmit is dropped and reported as sent. -/
  | dropped (transmit : TombstonedTransmit)
  | refused (error : SendError)
deriving DecidableEq

/-- What is answered where a reservation has lost its hint. -/
def noScanHint : SendError := .notFound "BLE peer reservation has no live scan hint"

/-- What is answered to an id nobody knows. -/
def unknownToken : SendError := .notFound "unknown BLE stable-conn token"

/-- Where a call is. -/
inductive Asking where
  /-- About to ask `device_for_pipe`. -/
  | start (id : StableConnId)
  /-- About to ask `reservation_target`. -/
  | pipeless (id : StableConnId)
  /-- About to ask `scan_hint_for_prefix`. -/
  | reserved (id : StableConnId) (endpoint : EndpointId) (keyPrefix : KeyPrefix)
  /-- About to call `note_tombstoned_transmit`. -/
  | unreserved (id : StableConnId)
  | answered (result : Routed)
deriving DecidableEq

/-- A call starts with the id it reads, or is answered already. -/
def Asking.ofAddr (dst : CustomAddr) : Asking :=
  match dst.parseTokenAddr with
  | .ok token => .start ⟨token⟩
  | .error e => .answered (.refused e)

/-- The tables with the calls under way. -/
structure Senders where
  memories : Memories
  calls : List Asking := []

/-- A new call, the next lookup of one, or any other operation. -/
inductive SendersLabel where
  | poll (dst : CustomAddr)
  /-- The next lookup of a call. -/
  | ask (call now : ℕ)
  | other (l : MemoryLabel)

/-- Only `poll_send` counts late transmits. -/
def MemoryLabel.isTransmit : MemoryLabel → Bool
  | .noteTombstonedTransmit _ _ => true
  | _ => false

namespace Senders

open Routing Router

/-- The next lookup of a call, and what the call does then. -/
def lookup (now : ℕ) (c : Asking) (s : Memories) : Option (Memories × Asking) :=
  match c with
  | .start id =>
    -- a live pipe takes the datagram, whoever is at the other end
    match s.router.routing.deviceForPipe id with
    | some device => some (s, .answered (.sendDatagram device none))
    | none => some (s, .pipeless id)
  | .pipeless id =>
    -- no pipe: a reservation with this id
    match s.router.routing.reservationTarget id with
    | some (endpoint, keyPrefix) => some (s, .reserved id endpoint keyPrefix)
    | none => some (s, .unreserved id)
  | .reserved _ endpoint keyPrefix =>
    -- dialled where the prefix was last seen, if it was seen at all
    match s.router.routing.scanHintForPrefix keyPrefix with
    | some device => some (s, .answered (.sendDatagram device (some endpoint)))
    | none => some (s, .answered (.refused noScanHint))
  | .unreserved id =>
    (Memories.system.step (.noteTombstonedTransmit now id) s).map fun s' =>
      -- dropped without an error if the pipe went away lately
      match (s.router.routing.noteTombstonedTransmit now id).2 with
      | some transmit => (s', .answered (.dropped transmit))
      | none => (s', .answered (.refused unknownToken))
  | .answered _ => none

/-- One step. -/
def step : SendersLabel → Senders → Option Senders
  | .poll dst, s => some { s with calls := s.calls ++ [.ofAddr dst] }
  | .ask i now, s =>
    match s.calls[i]? with
    | none => none
    | some c => (lookup now c s.memories).map fun x =>
        { memories := x.1, calls := s.calls.set i x.2 }
  | .other l, s =>
    -- transmits come from the calls only
    if l.isTransmit then none
    else (Memories.system.step l s.memories).map fun m => { s with memories := m }

/-- The calls as a transition system. -/
def system : System Senders SendersLabel where
  Init s := ∃ self, s = { memories := { router := { self := self } } }
  step := step

/-- The resolver reserves an id only where it knows a device to dial. -/
def Hinted (s : Senders) : SendersLabel → Prop
  | .other (.routing (.reserveOutbound _ e)) =>
    s.memories.router.routing.scanHintForPrefix (prefixFromEndpoint e) ≠ none
  | _ => True

/-- Where an id is. -/
def standing (id : StableConnId) (s : Senders) : Standing := s.memories.standing id

/-- Some state since the call began, up to the present one. -/
def Met (k : List (Senders × SendersLabel)) (s : Senders) (P : Senders → Prop) : Prop :=
  (∃ y ∈ k, P y.1) ∨ P s

/-- What is true of an id when a call has its answer. `k` is what has happened since the call
began, and `s` the present state. -/
inductive Holds (k : List (Senders × SendersLabel)) (s : Senders) (id : StableConnId) :
    Routed → Prop where
  /-- The id was live on this device. -/
  | live {device : DeviceId} (pipe : Pipe) (device_eq : pipe.deviceId = device)
      (met : Met k s fun y => y.standing id = .live pipe) : Holds k s id (.sendDatagram device none)
  /-- The id was reserved for this endpoint, and then the device was the hint of its prefix. -/
  | target {device : DeviceId} {e : EndpointId} (x : Reservation) (endpoint : x.endpointId = e)
      (met : Met k s fun y => y.standing id = .reserved x)
      (hinted : Met k s fun y =>
        y.memories.router.routing.scanHintForPrefix (prefixFromEndpoint e) = some device) :
      Holds k s id (.sendDatagram device (some e))
  | hintless (x : Reservation) (met : Met k s fun y => y.standing id = .reserved x)
      (unhinted : Met k s fun y =>
        y.memories.router.routing.scanHintForPrefix (prefixFromEndpoint x.endpointId) = none) :
      Holds k s id (.refused noScanHint)
  /-- The pipe of the id was evicted, and the transmit counted on its tombstone. -/
  | dropped {transmit : TombstonedTransmit} (t : PipeTombstone)
      (met : Met k s fun y => y.standing id = .buried t)
      (counted : transmit = ⟨{ t with droppedTransmits := t.droppedTransmits + 1 },
        t.droppedTransmits + 1⟩)
      (dead : 4 ≤ (s.standing id).rank) : Holds k s id (.dropped transmit)
  | gone (gone : s.standing id = .gone) : Holds k s id (.refused unknownToken)
  | unminted (met : Met k s fun y => y.standing id = .unminted) :
      Holds k s id (.refused unknownToken)
  /-- The driver had the reservation in hand. -/
  | opening (x : Reservation) (met : Met k s fun y => y.standing id = .opening x) :
      Holds k s id (.refused unknownToken)

/-! ## The tables under the calls -/

/-- What the tasks and the calls have done to the tables. -/
def memorySteps (h : List (Senders × SendersLabel)) : List (Memories × MemoryLabel) :=
  h.filterMap fun x =>
    match x.2 with
    | .other l => some (x.1.memories, l)
    | .ask i now =>
      match x.1.calls[i]? with
      | some (.unreserved id) => some (x.1.memories, .noteTombstonedTransmit now id)
      | _ => none
    | .poll _ => none

section Step

variable {h k : List (Senders × SendersLabel)} {s s' : Senders} {l : SendersLabel}
  {id : StableConnId}

theorem memorySteps_append (h : List (Senders × SendersLabel)) (x : Senders × SendersLabel) :
    memorySteps (h ++ [x]) = memorySteps h ++ memorySteps [x] := List.filterMap_append

/-- A lookup writes to no table, unless it counts a transmit. -/
theorem lookup_memories {now : ℕ} {c c' : Asking} {m m' : Memories}
    (hl : lookup now c m = some (m', c')) : (m' = m ∧ ∀ id, c ≠ .unreserved id) ∨
      ∃ id, c = .unreserved id ∧
        Memories.system.step (.noteTombstonedTransmit now id) m = some m' := by
  cases c with
  | start id =>
      refine .inl ⟨?_, fun id => by simp⟩
      simp only [lookup] at hl
      split at hl <;> (simp only [Option.some.injEq, Prod.mk.injEq] at hl; exact hl.1.symm)
  | pipeless id =>
      refine .inl ⟨?_, fun id => by simp⟩
      simp only [lookup] at hl
      split at hl <;> (simp only [Option.some.injEq, Prod.mk.injEq] at hl; exact hl.1.symm)
  | reserved id e p =>
      refine .inl ⟨?_, fun id => by simp⟩
      simp only [lookup] at hl
      split at hl <;> (simp only [Option.some.injEq, Prod.mk.injEq] at hl; exact hl.1.symm)
  | unreserved id =>
      refine .inr ⟨id, rfl, ?_⟩
      obtain ⟨m₁, hm₁, heq⟩ := Option.map_eq_some_iff.mp hl
      split at heq <;> (simp only [Prod.mk.injEq] at heq; exact heq.1 ▸ hm₁)
  | answered a => cases hl

/-- What a step does to the tables is nothing, or one of their own steps. -/
theorem memories_of_step (hs : system.step l s = some s') :
    (memorySteps [(s, l)] = [] ∧ s'.memories = s.memories) ∨
      ∃ ml, memorySteps [(s, l)] = [(s.memories, ml)] ∧
        Memories.system.step ml s.memories = some s'.memories := by
  cases l with
  | poll dst =>
      obtain rfl := Option.some.inj hs
      exact .inl ⟨rfl, rfl⟩
  | ask i now =>
      simp only [system, step] at hs
      cases hc : s.calls[i]? with
      | none =>
          rw [hc] at hs
          cases hs
      | some c =>
          rw [hc] at hs
          obtain ⟨⟨m, c'⟩, hl, rfl⟩ := Option.map_eq_some_iff.mp hs
          rcases lookup_memories hl with ⟨hm, hne⟩ | ⟨id, rfl, hm⟩
          · refine .inl ⟨?_, hm⟩
            cases c with
            | unreserved id => exact absurd rfl (hne id)
            | _ => simp [memorySteps, hc]
          · exact .inr ⟨_, by simp [memorySteps, hc], hm⟩
  | other ml =>
      simp only [system, step] at hs
      split at hs
      · cases hs
      · obtain ⟨m, hm, rfl⟩ := Option.map_eq_some_iff.mp hs
        exact .inr ⟨ml, rfl, hm⟩

/-- The steps of the tables are a run of theirs. -/
theorem memories_of_run (hrun : system.Run h s) : Memories.system.Run (memorySteps h) s.memories := by
  induction hrun with
  | init hs =>
      obtain ⟨self, rfl⟩ := hs
      exact .init ⟨self, rfl⟩
  | @step h s s' l _ hs ih =>
      rw [memorySteps_append]
      rcases memories_of_step hs with ⟨hnil, heq⟩ | ⟨ml, hone, hstep⟩
      · rw [hnil, List.append_nil, heq]
        exact ih
      · rw [hone]
        exact ih.step hstep

/-- The standing of an id is left as it is, or moves on. -/
theorem standing_of_step (hrun : system.Run h s) (hs : system.step l s = some s')
    (id : StableConnId) : s'.standing id = s.standing id ∨
      ∃ ml, Memories.Moves id s.memories ml s'.memories (s.standing id) (s'.standing id) := by
  rcases memories_of_step hs with ⟨-, heq⟩ | ⟨ml, -, hstep⟩
  · refine .inl ?_
    unfold standing
    rw [heq]
  · have ho := Memories.orderly_of_run (memories_of_run hrun)
    exact .inr ⟨ml, Memories.moves_of_step ho hstep id⟩

/-- An id does not go back. -/
theorem rank_le_of_step (hrun : system.Run h s) (hs : system.step l s = some s')
    (id : StableConnId) : (s.standing id).rank ≤ (s'.standing id).rank := by
  rcases standing_of_step hrun hs id with heq | ⟨ml, hmoves⟩
  · rw [heq]
  · exact hmoves.rank_le

/-- An id that is gone stays so. -/
theorem gone_of_step (hrun : system.Run h s) (hs : system.step l s = some s')
    (hgone : s.standing id = .gone) : s'.standing id = .gone := by
  rcases standing_of_step hrun hs id with heq | ⟨ml, hmoves⟩
  · exact heq.trans hgone
  · rw [hgone] at hmoves
    generalize s'.standing id = y at hmoves ⊢
    cases hmoves
    rfl

/-- A reserved id stays reserved, or is taken in hand. -/
theorem reserved_of_step (hrun : system.Run h s) (hs : system.step l s = some s') {x : Reservation}
    (hx : s.standing id = .reserved x) :
    s'.standing id = .reserved x ∨ s'.standing id = .opening x := by
  rcases standing_of_step hrun hs id with heq | ⟨ml, hmoves⟩
  · exact .inl (heq.trans hx)
  · rw [hx] at hmoves
    generalize s'.standing id = y at hmoves ⊢
    cases hmoves with
    | stays => exact .inl rfl
    | consume => exact .inr rfl

/-- What was met stays met. -/
theorem Met.step {P : Senders → Prop} (hm : Met k s P) : Met (k ++ [(s, l)]) s' P := by
  refine .inl ?_
  rcases hm with ⟨y, hy, hP⟩ | hP
  · exact ⟨y, List.mem_append_left _ hy, hP⟩
  · exact ⟨(s, l), List.mem_append_right _ (List.mem_singleton_self _), hP⟩

theorem Met.now {P : Senders → Prop} (hP : P s) : Met k s P := .inr hP

end Step

/-! ## What a call has learned -/

/-- The id was not live at some moment since the call began, and is not now, unless it was opened
in the meantime. -/
def Pipeless (k : List (Senders × SendersLabel)) (s : Senders) (id : StableConnId) : Prop :=
  Met k s (fun y => y.standing id = .unminted) ∨
    (∃ x, Met k s fun y => y.standing id = .opening x) ∨
    (∃ x, s.standing id = .reserved x) ∨ 4 ≤ (s.standing id).rank

/-- It was not reserved either. -/
def Unreserved (k : List (Senders × SendersLabel)) (s : Senders) (id : StableConnId) : Prop :=
  Met k s (fun y => y.standing id = .unminted) ∨
    (∃ x, Met k s fun y => y.standing id = .opening x) ∨ 4 ≤ (s.standing id).rank

/-- What a call knows of its id. -/
def Knows (k : List (Senders × SendersLabel)) (s : Senders) (id : StableConnId) : Asking → Prop
  | .start id' => id' = id
  | .pipeless id' => id' = id ∧ Pipeless k s id
  | .reserved id' e p => id' = id ∧ p = prefixFromEndpoint e ∧
    ∃ x, x.endpointId = e ∧ Met k s fun y => y.standing id = .reserved x
  | .unreserved id' => id' = id ∧ Unreserved k s id
  | .answered a => Holds k s id a

section Knows

variable {h k : List (Senders × SendersLabel)} {s s' : Senders} {l : SendersLabel}
  {id : StableConnId}

/-- An answer that held goes on to hold. -/
theorem Holds.step (hrun : system.Run h s) (hs : system.step l s = some s') {a : Routed}
    (hh : Holds k s id a) : Holds (k ++ [(s, l)]) s' id a := by
  cases hh with
  | live pipe hdevice hmet => exact .live pipe hdevice hmet.step
  | target x he hmet hhinted => exact .target x he hmet.step hhinted.step
  | hintless x hmet hunhinted => exact .hintless x hmet.step hunhinted.step
  | dropped t hmet hcounted hdead =>
      exact .dropped t hmet.step hcounted (hdead.trans (rank_le_of_step hrun hs id))
  | gone hgone => exact .gone (gone_of_step hrun hs hgone)
  | unminted hmet => exact .unminted hmet.step
  | opening x hmet => exact .opening x hmet.step

/-- What a call knows stays true while the others move. -/
theorem Knows.step (hrun : system.Run h s) (hs : system.step l s = some s') {c : Asking}
    (hk : Knows k s id c) : Knows (k ++ [(s, l)]) s' id c := by
  have hrank := rank_le_of_step hrun hs id
  cases c with
  | start id' => exact hk
  | pipeless id' =>
      obtain ⟨hid, hless⟩ := hk
      refine ⟨hid, ?_⟩
      rcases hless with hmet | ⟨x, hmet⟩ | ⟨x, hx⟩ | hdead
      · exact .inl hmet.step
      · exact .inr (.inl ⟨x, hmet.step⟩)
      · rcases reserved_of_step hrun hs hx with hsame | hopening
        · exact .inr (.inr (.inl ⟨x, hsame⟩))
        · exact .inr (.inl ⟨x, .now hopening⟩)
      · exact .inr (.inr (.inr (hdead.trans hrank)))
  | reserved id' e p =>
      obtain ⟨hid, hp, x, he, hmet⟩ := hk
      exact ⟨hid, hp, x, he, hmet.step⟩
  | unreserved id' =>
      obtain ⟨hid, hmet | ⟨x, hmet⟩ | hdead⟩ := hk
      · exact ⟨hid, .inl hmet.step⟩
      · exact ⟨hid, .inr (.inl ⟨x, hmet.step⟩)⟩
      · exact ⟨hid, .inr (.inr (hdead.trans hrank))⟩
  | answered a => exact Holds.step hrun hs hk

theorem orderly_memories (hrun : system.Run h s) :
    Memories.Orderly (memorySteps h) s.memories :=
  Memories.orderly_of_run (memories_of_run hrun)

/-- What a call learns from a lookup that writes to no table. -/
theorem Knows.lookup (hrun : system.Run h s) {c c' : Asking} {m : Memories} {now : ℕ}
    (hl : lookup now c s.memories = some (m, c')) (hc : ∀ id, c ≠ .unreserved id)
    (hk : Knows k s id c) : Knows k s id c' := by
  have ho := orderly_memories hrun
  cases c with
  | start id' =>
      obtain rfl : id' = id := hk
      simp only [Senders.lookup, Routing.deviceForPipe] at hl
      -- the first lookup finds a pipe, or leaves the id in one of the four other standings
      cases hpipe : s.memories.router.routing.pipes.lookup id' with
      | some pipe =>
          rw [hpipe] at hl
          simp only [Option.map_some, Option.some.injEq, Prod.mk.injEq] at hl
          obtain ⟨-, rfl⟩ := hl
          exact .live pipe rfl (.now ((Memories.stands_iff ho).mp (.live hpipe)))
      | none =>
          rw [hpipe] at hl
          simp only [Option.map_none, Option.some.injEq, Prod.mk.injEq] at hl
          obtain ⟨-, rfl⟩ := hl
          refine ⟨rfl, ?_⟩
          have hstands := Memories.stands_standing ho id'
          unfold Pipeless
          cases hst : s.standing id' with
          | unminted => exact .inl (.now hst)
          | reserved x => exact .inr (.inr (.inl ⟨x, rfl⟩))
          | opening x => exact .inr (.inl ⟨x, .now hst⟩)
          | live pipe =>
              rw [show s.memories.standing id' = _ from hst] at hstands
              cases hstands with
              | live hlive =>
                  rw [hpipe] at hlive
                  cases hlive
          | buried t => exact .inr (.inr (.inr (Nat.le_refl 4)))
          | gone => exact .inr (.inr (.inr (Nat.le_succ 4)))
  | pipeless id' =>
      obtain ⟨rfl, hless⟩ := hk
      have hinv := ho.kept.disciplined.inverse
      simp only [Senders.lookup, Routing.reservationTarget] at hl
      cases hkey : s.memories.router.routing.reservedStableIds.lookup id' with
      | some e =>
          obtain ⟨x, hx, hid⟩ := (hinv e id').mpr hkey
          rw [hkey] at hl
          simp only [hx, Option.map_some, Option.some.injEq, Prod.mk.injEq] at hl
          obtain ⟨-, rfl⟩ := hl
          refine ⟨rfl, (ho.placed.reserved e x hx).2.symm, x, rfl, .now ?_⟩
          exact (Memories.stands_iff ho).mp (.reserved hx hid)
      | none =>
          rw [hkey] at hl
          simp only [Option.some.injEq, Prod.mk.injEq] at hl
          obtain ⟨-, rfl⟩ := hl
          refine ⟨rfl, ?_⟩
          rcases hless with hmet | hopening | ⟨x, hx⟩ | hdead
          · exact .inl hmet
          · exact .inr (.inl hopening)
          · -- it is not reserved
            have hstands := (Memories.stands_iff ho).mpr hx
            cases hstands with
            | @reserved e _ hfound hid =>
                rw [(hinv e id').mp ⟨x, hfound, hid⟩] at hkey
                cases hkey
          · exact .inr (.inr hdead)
  | reserved id' e p =>
      obtain ⟨rfl, rfl, x, rfl, hmet⟩ := hk
      simp only [Senders.lookup] at hl
      cases hhint : s.memories.router.routing.scanHintForPrefix
          (prefixFromEndpoint x.endpointId) with
      | some device =>
          rw [hhint] at hl
          simp only [Option.some.injEq, Prod.mk.injEq] at hl
          obtain ⟨-, rfl⟩ := hl
          exact .target x rfl hmet (.now hhint)
      | none =>
          rw [hhint] at hl
          simp only [Option.some.injEq, Prod.mk.injEq] at hl
          obtain ⟨-, rfl⟩ := hl
          exact .hintless x hmet (.now hhint)
  | unreserved id' => exact absurd rfl (hc id')
  | answered a => cases hl

/-- What it learns from the tombstones, which it prunes. -/
theorem Knows.noteTransmit (hrun : system.Run h s) (hs : system.step l s = some s')
    {id' : StableConnId} {c' : Asking} {now : ℕ}
    (hl : Senders.lookup now (.unreserved id') s.memories = some (s'.memories, c'))
    (hk : Knows k s id (.unreserved id')) : Knows (k ++ [(s, l)]) s' id c' := by
  have ho := orderly_memories hrun
  have ho' := orderly_memories (hrun.step hs)
  have hrank := rank_le_of_step hrun hs id
  obtain ⟨rfl, hless⟩ := hk
  obtain ⟨m, hm, heq⟩ := Option.map_eq_some_iff.mp hl
  obtain ⟨a, ha, hrouter, -, -, -⟩ := Memories.act_of_step hm
  obtain rfl := Option.some.inj ha
  unfold Routing.noteTombstonedTransmit at heq hrouter
  dsimp only at heq hrouter
  split at heq
  · rename_i transmit hsome
    simp only [Prod.mk.injEq] at heq
    obtain ⟨rfl, rfl⟩ := heq
    split at hsome
    · cases hsome
    · rename_i t ht
      -- the tombstone was there before the others were pruned
      have hfound : s.memories.tombstones.lookup id' = some t := Map.lookup_of_prune ht
      have hburied : s.standing id' = .buried t := (Memories.stands_iff ho).mp (.buried hfound)
      refine Holds.step hrun hs (.dropped t (.now hburied) (Option.some.inj hsome).symm ?_)
      rw [hburied]
      exact Nat.le_refl 4
  · rename_i hnone
    simp only [Prod.mk.injEq] at heq
    obtain ⟨rfl, rfl⟩ := heq
    split at hnone
    · rename_i hforgotten
      rcases hless with hmet | ⟨x, hmet⟩ | hdead
      · exact .unminted hmet.step
      · exact .opening x hmet.step
      · refine .gone ?_
        have hdead' := hdead.trans hrank
        have hstands := Memories.stands_standing ho' id'
        unfold standing at hdead' ⊢
        generalize s'.memories.standing id' = y at hdead' hstands ⊢
        cases hstands with
        | gone => rfl
        | buried hfound =>
            unfold Memories.tombstones at hfound
            rw [hrouter] at hfound
            split at hfound
            · exact absurd (hforgotten.symm.trans hfound) (by simp)
            · rename_i t ht
              rw [hforgotten] at ht
              cases ht
        | _ => simp [Standing.rank] at hdead'
    · cases hnone

/-- A step of any kind leaves each call where it was, or is the next lookup of this one. -/
theorem call_of_step (hrun : system.Run h s) (hs : system.step l s = some s') {i : ℕ} {c : Asking}
    (hc : s.calls[i]? = some c) (hk : Knows k s id c) :
    ∃ c', s'.calls[i]? = some c' ∧ Knows (k ++ [(s, l)]) s' id c' := by
  cases l with
  -- a new call comes behind the others
  | poll dst =>
      have hmemories := hs
      obtain rfl := Option.some.inj hs
      refine ⟨c, ?_, Knows.step hrun hmemories hk⟩
      have hlt : i < s.calls.length := (List.getElem?_eq_some_iff.mp hc).1
      rw [List.getElem?_append_left hlt]
      exact hc
  | ask j now =>
      have hstep := hs
      simp only [system, step] at hs
      cases hj : s.calls[j]? with
      | none =>
          rw [hj] at hs
          cases hs
      | some d =>
          rw [hj] at hs
          obtain ⟨⟨m, c'⟩, hl, rfl⟩ := Option.map_eq_some_iff.mp hs
          -- the lookup of this call, or of another one
          by_cases hij : j = i
          · subst hij
            obtain rfl := Option.some.inj (hc.symm.trans hj)
            have hlt : j < s.calls.length := (List.getElem?_eq_some_iff.mp hc).1
            refine ⟨c', List.getElem?_set_self hlt, ?_⟩
            by_cases hun : ∃ id', c = .unreserved id'
            · obtain ⟨id', rfl⟩ := hun
              exact Knows.noteTransmit hrun hstep hl hk
            · have hne : ∀ id', c ≠ .unreserved id' := fun id' heq => hun ⟨id', heq⟩
              exact Knows.step hrun hstep (Knows.lookup hrun hl hne hk)
          · refine ⟨c, ?_, Knows.step hrun hstep hk⟩
            rw [List.getElem?_set_ne hij]
            exact hc
  | other ml =>
      have hstep := hs
      simp only [system, step] at hs
      split at hs
      · cases hs
      · obtain ⟨m, -, rfl⟩ := Option.map_eq_some_iff.mp hs
        exact ⟨c, hc, Knows.step hrun hstep hk⟩

end Knows

/-! ## Where the resolver has reserved -/

/-- A hint may be replaced, but does not go away. -/
theorem hint_of_routerStep {r r' : Router} {rl : RouterLabel}
    (hs : Router.system.step rl r = some r') {e : KeyPrefix}
    (he : r.routing.scanHintForPrefix e ≠ none) : r'.routing.scanHintForPrefix e ≠ none := by
  unfold Routing.scanHintForPrefix at he ⊢
  rcases Router.scanHint_of_step hs e with hsame | ⟨d, -, hnoted⟩
  · rw [hsame]
    exact he
  · rw [hnoted]
    exact Option.some_ne_none d

/-- Whatever is reserved has a hint, and so has what a call found reserved. -/
structure HintKept (s : Senders) : Prop where
  reserved : ∀ e x, s.memories.router.routing.reservations.lookup e = some x →
    s.memories.router.routing.scanHintForPrefix e ≠ none
  asked : ∀ (i : ℕ) id e p, s.calls[i]? = some (.reserved id e p) →
    s.memories.router.routing.scanHintForPrefix p ≠ none
  answered : ∀ i : ℕ, s.calls[i]? ≠ some (.answered (.refused noScanHint))

section HintKept

variable {h : List (Senders × SendersLabel)} {s s' : Senders} {l : SendersLabel}

/-- The tables keep their hints, and reserve nothing without one. -/
theorem reserved_hinted (hrun : system.Run h s) (hk : HintKept s) (hhinted : Hinted s l)
    (hs : system.step l s = some s') :
    (∀ e, s.memories.router.routing.scanHintForPrefix e ≠ none →
      s'.memories.router.routing.scanHintForPrefix e ≠ none) ∧
    ∀ e x, s'.memories.router.routing.reservations.lookup e = some x →
      s'.memories.router.routing.scanHintForPrefix e ≠ none := by
  have ho := orderly_memories hrun
  rcases memories_of_step hs with ⟨-, heq⟩ | ⟨ml, hone, hstep⟩
  · rw [heq]
    exact ⟨fun e he => he, hk.reserved⟩
  · have hkeeps : ∀ e, s.memories.router.routing.scanHintForPrefix e ≠ none →
        s'.memories.router.routing.scanHintForPrefix e ≠ none := by
      intro e he
      rcases Memories.router_of_step hstep with ⟨rl, -, hrouter⟩ | ⟨-, -, -, hrest⟩
      · exact hint_of_routerStep hrouter he
      · have hhint : s'.memories.router.routing.scanHint = s.memories.router.routing.scanHint :=
          (congrArg Routing.scanHint hrest :)
        unfold Routing.scanHintForPrefix
        rw [hhint]
        exact he
    refine ⟨hkeeps, ?_⟩
    intro e x hx
    apply hkeeps
    rcases Memories.reservation_of_shifts (Memories.shifts_of_step ho.kept hstep) hx with
      hold | ⟨now, endpoint, rfl, rfl, -, -⟩
    · exact hk.reserved e x hold
    · -- only a step of another task reserves
      cases l with
      | poll dst => simp [memorySteps] at hone
      | ask i now' =>
          simp only [memorySteps, List.filterMap_cons, List.filterMap_nil] at hone
          split at hone
          · cases hone
          · rename_i y hy
            split at hy
            · cases hy
              cases hone
            · cases hy
      | other ml =>
          have hml : ml = .routing (.reserveOutbound now endpoint) := by
            simpa [memorySteps] using hone
          subst hml
          exact hhinted

theorem HintKept.step (hrun : system.Run h s) (hk : HintKept s) (hhinted : Hinted s l)
    (hs : system.step l s = some s') : HintKept s' := by
  obtain ⟨hkeeps, hreserved⟩ := reserved_hinted hrun hk hhinted hs
  -- a call that is not looked up stays where it is
  have hold : ∀ i : ℕ, s'.calls[i]? = s.calls[i]? ∨
      (∃ dst, s'.calls[i]? = some (.ofAddr dst)) ∨
      ∃ now c c' m, s.calls[i]? = some c ∧ lookup now c s.memories = some (m, c') ∧
        s'.calls[i]? = some c' := by
    intro i
    cases l with
    | poll dst =>
        obtain rfl := Option.some.inj hs
        dsimp only
        by_cases hlt : i < s.calls.length
        · exact .inl (List.getElem?_append_left hlt)
        · rw [List.getElem?_append_right (Nat.le_of_not_lt hlt)]
          by_cases hi : i - s.calls.length = 0
          · rw [hi]
            exact .inr (.inl ⟨dst, rfl⟩)
          · refine .inl ?_
            rw [List.getElem?_eq_none (Nat.le_of_not_lt hlt)]
            apply List.getElem?_eq_none
            rw [List.length_singleton]
            omega
    | ask j now =>
        simp only [system, Senders.step] at hs
        cases hj : s.calls[j]? with
        | none =>
            rw [hj] at hs
            cases hs
        | some c =>
            rw [hj] at hs
            obtain ⟨⟨m, c'⟩, hl, rfl⟩ := Option.map_eq_some_iff.mp hs
            by_cases hij : j = i
            · subst hij
              have hlt : j < s.calls.length := (List.getElem?_eq_some_iff.mp hj).1
              exact .inr (.inr ⟨now, c, c', m, hj, hl, List.getElem?_set_self hlt⟩)
            · exact .inl (List.getElem?_set_ne hij)
    | other ml =>
        simp only [system, Senders.step] at hs
        split at hs
        · cases hs
        · obtain ⟨m, -, rfl⟩ := Option.map_eq_some_iff.mp hs
          exact .inl rfl
  have hofAddr : ∀ dst, (∃ id, Asking.ofAddr dst = .start id) ∨
      ∃ text, Asking.ofAddr dst = .answered (.refused (.other text)) := by
    intro dst
    unfold Asking.ofAddr CustomAddr.parseTokenAddr
    split
    · exact .inl ⟨_, rfl⟩
    · rename_i e he
      refine .inr ?_
      split at he
      · obtain rfl := Except.error.inj he
        exact ⟨_, rfl⟩
      · split at he
        · obtain rfl := Except.error.inj he
          exact ⟨_, rfl⟩
        · cases he
  constructor
  · exact hreserved
  · intro i id e p hi
    apply hkeeps
    rcases hold i with hsame | ⟨dst, hnew⟩ | ⟨now, c, c', m, hc, hl, hc'⟩
    · exact hk.asked i id e p (hsame.symm.trans hi)
    · have heq := Option.some.inj (hnew.symm.trans hi)
      rcases hofAddr dst with ⟨id', hstart⟩ | ⟨text, herror⟩
      · rw [hstart] at heq
        cases heq
      · rw [herror] at heq
        cases heq
    · obtain rfl := Option.some.inj (hc'.symm.trans hi)
      cases c with
      | pipeless id' =>
          simp only [lookup, Routing.reservationTarget] at hl
          cases hkey : s.memories.router.routing.reservedStableIds.lookup id' with
          | none =>
              rw [hkey] at hl
              cases hl
          | some q =>
              rw [hkey] at hl
              cases hx : s.memories.router.routing.reservations.lookup q with
              | none =>
                  simp only [hx, Option.map_none] at hl
                  cases hl
              | some x =>
                  simp only [hx, Option.map_some, Option.some.injEq, Prod.mk.injEq,
                    Asking.reserved.injEq] at hl
                  obtain ⟨-, -, -, rfl⟩ := hl
                  exact hk.reserved q x hx
      | start id' =>
          simp only [lookup] at hl
          split at hl <;> cases hl
      | reserved id' e' p' =>
          simp only [lookup] at hl
          split at hl <;> cases hl
      | unreserved id' =>
          obtain ⟨m', -, heq⟩ := Option.map_eq_some_iff.mp hl
          split at heq <;> cases heq
      | answered a => cases hl
  · intro i hi
    rcases hold i with hsame | ⟨dst, hnew⟩ | ⟨now, c, c', m, hc, hl, hc'⟩
    · exact hk.answered i (hsame.symm.trans hi)
    · have heq := Option.some.inj (hnew.symm.trans hi)
      rcases hofAddr dst with ⟨id', hstart⟩ | ⟨text, herror⟩
      · rw [hstart] at heq
        cases heq
      · rw [herror] at heq
        cases heq
    · obtain rfl := Option.some.inj (hc'.symm.trans hi)
      cases c with
      | reserved id' e p =>
          have hhint := hk.asked i id' e p hc
          simp only [lookup] at hl
          split at hl
          · cases hl
          · rename_i hnone
            exact hhint hnone
      | start id' =>
          simp only [lookup] at hl
          split at hl <;> cases hl
      | pipeless id' =>
          simp only [lookup] at hl
          split at hl <;> cases hl
      | unreserved id' =>
          obtain ⟨m', -, heq⟩ := Option.map_eq_some_iff.mp hl
          split at heq
          · cases heq
          · simp [noScanHint, unknownToken] at heq
      | answered a => cases hl

theorem hintKept_of_run (hrun : system.Run h s) (hhinted : System.Meets Hinted h) :
    HintKept s := by
  induction hrun with
  | init hs =>
      obtain ⟨self, rfl⟩ := hs
      constructor
      · intro e x hx
        cases hx
      · intro i id e p hi
        simp at hi
      · intro i hi
        simp at hi
  | step hrun hs ih =>
      rw [System.meets_append, System.meets_singleton] at hhinted
      exact (ih hhinted.1).step hrun hhinted.2 hs

end HintKept

/-! ## Every answer -/

/-- Every answer of every call of `poll_send` is true, whatever the other tasks do between its
lookups: a call for a live id goes to the device of its pipe; a call for a reserved id goes to the
device that was last seen with the prefix of the endpoint that the id is reserved for; a transmit
is dropped only if the pipe of its id was evicted; an id is refused as unknown only if it was not
minted when the call began, is gone by now, or was being opened during the call. If ids are
reserved only for prefixes with a hint, no call is refused for want of one. -/
theorem poll_send_answers {h₁ h₂ : List (Senders × SendersLabel)} {x : Senders} {dst : CustomAddr}
    {s : Senders} (hrun : system.Run (h₁ ++ (x, .poll dst) :: h₂) s) {token : ℕ}
    (hdst : dst.parseTokenAddr = .ok token) {a : Routed}
    (ha : s.calls[x.calls.length]? = some (.answered a)) :
    Holds ((x, .poll dst) :: h₂) s ⟨token⟩ a ∧
      (System.Meets Hinted (h₁ ++ (x, .poll dst) :: h₂) → a ≠ .refused noScanHint) := by
  constructor
  · have hknows := hrun.since_step (C := fun _ _ => True) (P := fun k s =>
        ∃ c, s.calls[x.calls.length]? = some c ∧ Knows k s ⟨token⟩ c) (fun _ _ => trivial)
      (fun s hr hs => ?_) (fun k s l s' hr _ hP hs => ?_)
    · obtain ⟨c, hc, hk⟩ := hknows
      obtain rfl := Option.some.inj (ha.symm.trans hc)
      exact hk
    · obtain rfl := Option.some.inj hs
      refine ⟨.start ⟨token⟩, ?_, rfl⟩
      dsimp only
      rw [List.getElem?_append_right (Nat.le_refl _), Nat.sub_self]
      unfold Asking.ofAddr
      rw [hdst]
      rfl
    · obtain ⟨c, hc, hk⟩ := hP
      exact call_of_step hr hs hc hk
  · rintro hhinted rfl
    exact (hintKept_of_run hrun hhinted).answered _ ha

theorem init_new (self : EndpointId) : system.Init { memories := { router := { self := self } } } :=
  ⟨self, rfl⟩

/-- An id is reserved for a device that has been seen. -/
def reserves : List SendersLabel :=
  [.other (.routing (.noteScanHint (prefixFromEndpoint peerEndpoint) "peer")),
    .other (.routing (.reserveOutbound 1 peerEndpoint))]

/-- The driver has its reservation in hand during a call, and registers the pipe after it. -/
def opensMeanwhile : List SendersLabel :=
  [.ask 0 2, .other (.routing (.startPipe "peer" .central (some peerEndpoint))), .ask 0 3,
    .ask 0 4, .other (.routing (.register 5)), .poll (CustomAddr.tokenCustomAddr 1), .ask 1 6]

/-- Then the first call is refused for an unknown id, and the next one is sent. -/
theorem refused_while_opening : ∃ h₁ x h₂ s,
    system.Run (h₁ ++ (x, .poll (CustomAddr.tokenCustomAddr 1)) :: h₂) s ∧
    h₁.map Prod.snd = reserves ∧ h₂.map Prod.snd = opensMeanwhile ∧
    s.calls = [.answered (.refused unknownToken), .answered (.sendDatagram "peer" none)] ∧
    Holds ((x, .poll (CustomAddr.tokenCustomAddr 1)) :: h₂) s ⟨1⟩ (.refused unknownToken) ∧
    s.standing ⟨1⟩ = .live ⟨⟨1⟩, "peer", .outbound, 5⟩ := by
  obtain ⟨h₁, x, hrun, hreserves, hempty, hrest⟩ := System.Run.of_exec (P := fun x : Senders =>
      x.calls.length = 0 ∧ ((system.exec
        (.poll (CustomAddr.tokenCustomAddr 1) :: opensMeanwhile) x).map fun s =>
          decide (s.calls =
            [.answered (.refused unknownToken), .answered (.sendDatagram "peer" none)] ∧
            s.standing ⟨1⟩ = .live ⟨⟨1⟩, "peer", .outbound, 5⟩)) = some true)
    reserves (init_new localEndpoint) (by decide +kernel)
  obtain ⟨s, hexec, hs⟩ := Option.map_eq_some_iff.mp hrest
  obtain ⟨t, ht, hexec⟩ := Option.bind_eq_some_iff.mp hexec
  obtain ⟨h₂, hrun, hlabels⟩ := System.Run.extend opensMeanwhile (hrun.step ht) hexec
  rw [List.append_assoc, List.singleton_append] at hrun
  obtain ⟨hcalls, hlive⟩ := of_decide_eq_true hs
  refine ⟨h₁, x, h₂, s, hrun, hreserves, hlabels, hcalls, ?_, hlive⟩
  refine (poll_send_answers hrun (by decide) ?_).1
  rw [hempty, hcalls]
  rfl

end Senders

end IrohBle
