import IrohBle.Pipe.Framing
import IrohBle.Pipe.L2cap
import IrohBle.Reliable.Lossless

/-! # Pipe.Carriage: what GATT and L2CAP make of the same datagrams

Both transports are meant to carry the datagrams of length `1..=MAX_DATAGRAM_SIZE`. They drop
the others in different places. Over GATT every datagram is cut and sent, and the receiver
discards what is empty or too long after it has reassembled it. Over L2CAP the worker skips
an empty datagram, and one that is too long makes `write_framed_datagram` fail, which ends the
send task: what comes after it is not written.

* `written_run`: however worker and send task are scheduled, the send task writes what
  `sendTask` says, and all of it once nothing is left to write.
* `l2capPath_eq`: L2CAP delivers what is carried of the datagrams before the first that is
  too long, however the stream is cut into reads.
* `carriage_agrees_iff`: the two transports deliver the same, and all that is carried, exactly
  if no datagram that is too long comes before one that is carried.
-/

namespace IrohBle.L2cap

open Lib Reliable

/-! ## The L2CAP path -/

/-- `run_l2cap_pipe`: what it forwards to the send task. -/
def forwarded (ds : List Bytes) : List Bytes := ds.filter fun d => !d.isEmpty

/-- The send task: it writes datagrams until one is refused. -/
def sendTask (writer : Bytes) : List Bytes → Bytes
  | [] => writer
  | d :: ds =>
    match writeFramedDatagram writer d with
    | .ok writer => sendTask writer ds
    | .error _ => writer

/-- The receive task: it hands on what it reads, empty frames apart, until the stream ends or
fails. -/
def recvTask (reader : Source UInt8) : List Bytes := (readAll reader).1.filter fun d => !d.isEmpty

/-- A datagram that fits a frame. -/
def fits (d : Bytes) : Bool := d.length ≤ maxDatagramSize

/-- The send task writes frames up to the first datagram that is too long. -/
theorem sendTask_eq (writer : Bytes) (ds : List Bytes) :
    sendTask writer ds = writer ++ (ds.takeWhile fits).flatMap frame := by
  induction ds generalizing writer with
  | nil => simp [sendTask]
  | cons d ds ih =>
      by_cases hd : d.length ≤ maxDatagramSize
      · rw [sendTask, writeFramedDatagram_ok hd, List.takeWhile_cons_of_pos (by simpa [fits] using hd),
          List.flatMap_cons, ← List.append_assoc]
        exact ih (writer ++ frame d)
      · have herror : writeFramedDatagram writer d =
            .error (.invalidInput "datagram exceeds MAX_DATAGRAM_SIZE") := by
          unfold writeFramedDatagram
          rw [if_pos (by omega)]
        rw [sendTask, herror, List.takeWhile_cons_of_neg (by simpa [fits] using hd)]
        simp

/-! ## Runs of the worker and the send task -/

/-- What the send task has taken and not yet written. -/
def SendTask.held : SendTask → List Bytes
  | .writing d => [d]
  | _ => []

/-- What the worker has taken and not yet forwarded. -/
def Worker.held : Worker → List Bytes
  | .forward d => [d]
  | _ => []

namespace Pipe

/-- The datagram a step hands to the worker. -/
def handed : Label → Option Bytes
  | .enqueue d => some d
  | _ => none

/-- The datagrams handed to the worker, in order. -/
def outboundOf (h : List (Pipe × Label)) : List Bytes := h.filterMap fun x => handed x.2

/-- The datagram whose frame a step has written. -/
def wrote (p : Pipe) : Label → Option Bytes
  | .wrote true =>
    match p.sendTask with
    | .writing d => some d
    | _ => none
  | _ => none

/-- The datagrams written, in order. -/
def written (h : List (Pipe × Label)) : List Bytes := h.filterMap fun x => x.1.wrote x.2

/-- The writer fails on nothing but a datagram that is refused. -/
def LossFree (p : Pipe) : Label → Prop
  | .wrote false => ∀ d, p.sendTask = .writing d → ¬ d.length ≤ maxDatagramSize
  | _ => True

/-- What is still to be written. -/
def toWrite (p : Pipe) : List Bytes :=
  p.sendTask.held ++ p.l2capTx ++ p.worker.held ++ L2cap.forwarded p.outbound

/-- The send task is where `sendTask` is after what has been written: `rest` is to come, or a
refused datagram is at the head of it. -/
structure SendInv (p : Pipe) (handed written : List Bytes) : Prop where
  fit : ∀ d ∈ written, d.length ≤ maxDatagramSize
  running : p.sendTask ≠ .exited → L2cap.forwarded handed = written ++ p.toWrite
  exited : p.sendTask = .exited → ∃ d rest, L2cap.forwarded handed = written ++ d :: rest ∧
    ¬ d.length ≤ maxDatagramSize

/-- A step that moves datagrams on, or none. -/
theorem SendInv.move {p p' : Pipe} {ds ws : List Bytes} (h : p.SendInv ds ws)
    (hsend : p'.sendTask = .exited ↔ p.sendTask = .exited)
    (hto : p.sendTask ≠ .exited → p'.toWrite = p.toWrite) : p'.SendInv ds ws where
  fit := h.fit
  running := by
    intro hrun
    have hrun' : p.sendTask ≠ .exited := fun he => hrun (hsend.mpr he)
    rw [hto hrun']
    exact h.running hrun'
  exited := fun he => h.exited (hsend.mp he)

theorem toWrite_endRecv (p : Pipe) : p.endRecv.toWrite = p.toWrite := by
  cases hw : p.worker with
  | top | select _ _ | forward _ | stopped _ => simp [toWrite, endRecv, Worker.held, hw]

/-- Taking a datagram off the channel skips it if it is empty. -/
theorem SendInv.takeOutbound {p p' : Pipe} {ds ws : List Bytes} {a b : Bool} (h : p.SendInv ds ws)
    (hw : p.worker = .select a b) (hs : p.takeOutbound = some p') : p'.SendInv ds ws := by
  unfold Pipe.takeOutbound at hs
  split at hs
  · split at hs
    · obtain rfl := Option.some.inj hs
      exact h.move Iff.rfl fun _ => by simp [toWrite, stop, Worker.held, hw]
    · cases hs
  · rename_i d rest hout
    split at hs
    · rename_i hempty
      obtain rfl := Option.some.inj hs
      refine h.move Iff.rfl fun _ => ?_
      simp [toWrite, Worker.held, hw, hout, L2cap.forwarded, hempty]
    · rename_i hempty
      obtain rfl := Option.some.inj hs
      refine h.move Iff.rfl fun _ => ?_
      simp [toWrite, Worker.held, hw, hout, L2cap.forwarded, hempty]

/-- Handing one to the send task keeps the order. -/
theorem SendInv.forward {p p' : Pipe} {ds ws : List Bytes} {d : Bytes} (h : p.SendInv ds ws)
    (hw : p.worker = .forward d) (hs : p.forward d = some p') : p'.SendInv ds ws := by
  unfold Pipe.forward at hs
  split at hs
  · rename_i hexited
    obtain rfl := Option.some.inj hs
    exact h.move Iff.rfl fun hrun => absurd hexited hrun
  · split at hs
    · obtain rfl := Option.some.inj hs
      exact h.move Iff.rfl fun _ => by simp [toWrite, Worker.held, hw]
    · cases hs

theorem SendInv.takeWrite {p p' : Pipe} {ds ws : List Bytes} (h : p.SendInv ds ws)
    (hs : system.step .takeWrite p = some p') : p'.SendInv ds ws := by
  simp only [system, step] at hs
  split at hs
  · rename_i d rest hidle htx
    obtain rfl := Option.some.inj hs
    refine h.move (by simp [hidle]) fun _ => ?_
    simp [toWrite, SendTask.held, hidle, htx]
  · cases hs

/-- The write that ends decides: a frame more, or the end of the send task. -/
theorem SendInv.wrote {p p' : Pipe} {ds ws : List Bytes} {ok : Bool} (h : p.SendInv ds ws)
    (hfree : p.LossFree (.wrote ok)) (hs : system.step (.wrote ok) p = some p') :
    p'.SendInv ds (ws ++ (p.wrote (.wrote ok)).toList) := by
  change (match p.sendTask with
    | .writing d =>
      if ok ∧ d.length ≤ maxDatagramSize then some { p with sendTask := .idle }
      else if ok then none
      else some p.endSend
    | _ => none) = some p' at hs
  split at hs
  · rename_i d hwriting
    -- what is in the writer's hand was the first to be written
    have hto : p.toWrite = d :: (p.l2capTx ++ p.worker.held ++ L2cap.forwarded p.outbound) := by
      simp [toWrite, SendTask.held, hwriting]
    have hds := h.running (by simp [hwriting])
    rw [hto] at hds
    cases ok with
    -- the frame is written, which the datagram was short enough for
    | true =>
        split at hs
        · rename_i hok
          obtain rfl := Option.some.inj hs
          have hwrote : p.wrote (.wrote true) = some d := by simp [Pipe.wrote, hwriting]
          rw [hwrote]
          constructor
          · intro e he
            rcases List.mem_append.mp he with he | he
            · exact h.fit e he
            · rw [Option.toList_some, List.mem_singleton] at he
              rw [he]
              exact hok.2
          · intro _
            rw [hds]
            simp [toWrite, SendTask.held]
          · intro he
            cases he
        · simp at hs
    | false =>
        simp only [Bool.false_eq_true, false_and, if_false, Option.some.injEq] at hs
        rw [← hs]
        have hwrote : p.wrote (.wrote false) = none := rfl
        rw [hwrote, Option.toList_none, List.append_nil]
        exact ⟨h.fit, fun he => absurd rfl he, fun _ => ⟨d, _, hds, hfree d hwriting⟩⟩
  · cases hs

/-- A datagram handed over is the last of those to be written. -/
theorem SendInv.enqueue {p : Pipe} {ds ws : List Bytes} (h : p.SendInv ds ws) (d : Bytes) :
    SendInv { p with outbound := p.outbound ++ [d] } (ds ++ [d]) ws where
  fit := h.fit
  running := by
    intro hrun
    have := h.running hrun
    simp only [toWrite, L2cap.forwarded, List.filter_append, List.append_assoc] at this ⊢
    rw [this]
    simp only [List.append_assoc]
  exited := by
    intro he
    obtain ⟨e, rest, heq, hlen⟩ := h.exited he
    unfold L2cap.forwarded at *
    exact ⟨e, rest ++ [d].filter fun d => !d.isEmpty, by simp [List.filter_append, heq], hlen⟩

theorem SendInv.step {p p' : Pipe} {l : Label} {ds ws : List Bytes} (h : p.SendInv ds ws)
    (hfree : p.LossFree l) (hs : system.step l p = some p') :
    p'.SendInv (ds ++ (handed l).toList) (ws ++ (p.wrote l).toList) := by
  -- only `enqueue` hands a datagram over and only `wrote` writes one
  cases l with
  | enqueue d =>
      change (if _ ∧ _ then _ else none) = some p' at hs
      split at hs
      · obtain rfl := Option.some.inj hs
        simp only [handed, Pipe.wrote, Option.toList_some, Option.toList_none, List.append_nil]
        exact h.enqueue d
      · cases hs
  | wrote ok =>
      simp only [handed, Option.toList_none, List.append_nil]
      exact h.wrote hfree hs
  | takeWrite =>
      simp only [handed, Pipe.wrote, Option.toList_none, List.append_nil]
      exact h.takeWrite hs
  | close =>
      simp only [handed, Pipe.wrote, Option.toList_none, List.append_nil]
      obtain rfl := Option.some.inj hs
      exact h.move Iff.rfl fun _ => rfl
  | enterSelect =>
      simp only [handed, Pipe.wrote, Option.toList_none, List.append_nil]
      change (if p.worker = .top then _ else none) = some p' at hs
      split at hs
      · rename_i htop
        obtain rfl := Option.some.inj hs
        have hto : toWrite { p with worker := .select false false } = p.toWrite := by
          simp [toWrite, Worker.held, htop]
        exact h.move Iff.rfl fun _ => hto
      · cases hs
  | takeOutbound =>
      simp only [handed, Pipe.wrote, Option.toList_none, List.append_nil]
      cases hw : p.worker with
      | select a b =>
          have hs' : p.takeOutbound = some p' := by simpa [system, Pipe.step, hw] using hs
          exact h.takeOutbound hw hs'
      | top | forward _ | stopped _ => simp [system, Pipe.step, hw] at hs
  | takeDone =>
      simp only [handed, Pipe.wrote, Option.toList_none, List.append_nil]
      cases hw : p.worker with
      | select a b =>
          have hs' : (if a || b then some (p.stop true) else none) = some p' := by
            simpa [system, Pipe.step, hw] using hs
          split at hs'
          · obtain rfl := Option.some.inj hs'
            have hto : (p.stop true).toWrite = p.toWrite := by
              simp [toWrite, stop, Worker.held, hw]
            exact h.move Iff.rfl fun _ => hto
          · cases hs'
      | top | forward _ | stopped _ => simp [system, Pipe.step, hw] at hs
  | forwarded =>
      simp only [handed, Pipe.wrote, Option.toList_none, List.append_nil]
      cases hw : p.worker with
      | forward d =>
          have hs' : p.forward d = some p' := by simpa [system, Pipe.step, hw] using hs
          exact h.forward hw hs'
      | top | select _ _ | stopped _ => simp [system, Pipe.step, hw] at hs
  | readFrame d =>
      simp only [handed, Pipe.wrote, Option.toList_none, List.append_nil]
      have hkeep : p'.sendTask = p.sendTask ∧ p'.toWrite = p.toWrite := by
        change (if _ ∧ _ then (if d.isEmpty then _ else _) else none) = some p' at hs
        split at hs
        · split at hs
          · obtain rfl := Option.some.inj hs
            exact ⟨rfl, rfl⟩
          · obtain rfl := Option.some.inj hs
            exact ⟨rfl, rfl⟩
        · cases hs
      exact h.move (by rw [hkeep.1]) fun _ => hkeep.2
  | readEnd =>
      simp only [handed, Pipe.wrote, Option.toList_none, List.append_nil]
      change (if _ then some p.endRecv else none) = some p' at hs
      split at hs
      · obtain rfl := Option.some.inj hs
        exact h.move Iff.rfl fun _ => toWrite_endRecv p
      · cases hs
  | delivered ok =>
      simp only [handed, Pipe.wrote, Option.toList_none, List.append_nil]
      cases hr : p.recvTask with
      | delivering d =>
          have hs' : (if ok then some { p with recvTask := .reading, incoming := p.incoming ++ [d] }
              else some p.endRecv) = some p' := by
            simpa [system, Pipe.step, hr] using hs
          split at hs'
          · obtain rfl := Option.some.inj hs'
            exact h.move Iff.rfl fun _ => rfl
          · obtain rfl := Option.some.inj hs'
            exact h.move Iff.rfl fun _ => toWrite_endRecv p
      | reading | exited => simp [system, Pipe.step, hr] at hs

/-- Along every run without loss, what has been written and what is to be written make up what was
handed over. -/
theorem sendInv_run {h : List (Pipe × Label)} {p : Pipe} (hrun : system.Run h p)
    (hfree : System.Meets LossFree h) : p.SendInv (outboundOf h) (written h) := by
  induction hrun with
  | init hp =>
      obtain rfl := hp
      constructor
      · intro d hd
        cases hd
      · intro _
        rfl
      · intro he
        cases he
  | @step h p p' l _ hs ih =>
      rw [System.meets_append, System.meets_singleton] at hfree
      have hnext := (ih hfree.1).step hfree.2 hs
      have hhanded : outboundOf (h ++ [(p, l)]) = outboundOf h ++ (handed l).toList := by
        rw [outboundOf, outboundOf, List.filterMap_append]
        cases hl : handed l <;> simp [hl]
      have hwritten : written (h ++ [(p, l)]) = written h ++ (p.wrote l).toList := by
        rw [written, written, List.filterMap_append]
        cases hl : p.wrote l <;> simp [hl]
      rw [hhanded, hwritten]
      exact hnext

/-- Nothing is left that the send task could write. -/
def Flushed (p : Pipe) : Prop := p.sendTask = .exited ∨ p.toWrite = []

/-- In every run of the worker and the send task the frames written are a first part of what
`sendTask` writes of the datagrams handed over, and all of it once nothing is left. -/
theorem written_run {h : List (Pipe × Label)} {p : Pipe} (hrun : system.Run h p)
    (hfree : System.Meets LossFree h) :
    (written h).flatMap frame <+: L2cap.sendTask [] (L2cap.forwarded (outboundOf h)) ∧
      (p.Flushed →
        (written h).flatMap frame = L2cap.sendTask [] (L2cap.forwarded (outboundOf h))) := by
  have hinv := sendInv_run hrun hfree
  have hall : ∀ d ∈ written h, fits d = true := by
    intro d hd
    simpa [fits] using hinv.fit d hd
  rw [sendTask_eq, List.nil_append]
  by_cases he : p.sendTask = .exited
  · obtain ⟨d, rest, heq, hd⟩ := hinv.exited he
    have htake : (L2cap.forwarded (outboundOf h)).takeWhile fits = written h := by
      rw [heq, List.takeWhile_append_of_pos hall,
        List.takeWhile_cons_of_neg (by simpa [fits] using hd), List.append_nil]
    rw [htake]
    exact ⟨List.prefix_rfl, fun _ => rfl⟩
  · have heq := hinv.running he
    rw [heq, List.takeWhile_append_of_pos hall, List.flatMap_append]
    constructor
    · exact List.prefix_append _ _
    · intro hflushed
      have hnil : p.toWrite = [] := hflushed.resolve_left he
      rw [hnil]
      simp

end Pipe

/-! ## What L2CAP delivers -/

/-- What is carried of a list of datagrams. -/
def carried (ds : List Bytes) : List Bytes := ds.filter fun d => decide (Carried d)

/-- Empty datagrams do not end the send task. -/
theorem takeWhile_forwarded (ds : List Bytes) :
    (forwarded ds).takeWhile fits = forwarded (ds.takeWhile fits) := by
  induction ds with
  | nil => rfl
  | cons d ds ih =>
      unfold forwarded at ih ⊢
      cases d with
      | nil =>
          -- an empty datagram is skipped before its length is looked at
          rw [List.takeWhile_cons_of_pos (by rfl), List.filter_cons_of_neg (by simp),
            List.filter_cons_of_neg (by simp), ih]
      | cons b bs =>
          rw [List.filter_cons_of_pos (by simp)]
          by_cases hd : fits (b :: bs) = true
          · rw [List.takeWhile_cons_of_pos hd, List.takeWhile_cons_of_pos hd,
              List.filter_cons_of_pos (by simp), ih]
          · rw [List.takeWhile_cons_of_neg hd, List.takeWhile_cons_of_neg hd, List.filter_nil]

/-- What comes before the first datagram that is too long is not too long. -/
theorem length_of_mem_takeWhile {d : Bytes} {ds : List Bytes} (h : d ∈ ds.takeWhile fits) :
    d.length ≤ maxDatagramSize := by
  have hall : (ds.takeWhile fits).all fits = true := List.all_takeWhile
  have := List.all_eq_true.mp hall d h
  simpa [fits] using this

/-- Of those before the first that is too long, the ones forwarded are the ones carried. -/
theorem forwarded_takeWhile (ds : List Bytes) :
    forwarded (ds.takeWhile fits) = carried (ds.takeWhile fits) := by
  unfold forwarded carried
  apply List.filter_congr
  intro d hd
  have hfits : d.length ≤ maxDatagramSize := length_of_mem_takeWhile hd
  cases d with
  | nil => simp [Carried]
  | cons b bs =>
      have hcarried : Carried (b :: bs) := ⟨by simp, hfits⟩
      simp [hcarried]

/-- What comes out of the L2CAP path, however the stream is cut into reads. -/
def L2capDelivers (ds out : List Bytes) : Prop :=
  ∃ reader : Source UInt8, reader.content = sendTask [] (forwarded ds) ∧ recvTask reader = out

/-- L2CAP delivers what is carried of the datagrams before the first that is too long. -/
theorem l2capPath_eq {ds out : List Bytes} (h : L2capDelivers ds out) :
    out = carried (ds.takeWhile fits) := by
  obtain ⟨reader, hcontent, rfl⟩ := h
  rw [sendTask_eq, List.nil_append, takeWhile_forwarded] at hcontent
  have hfit : ∀ p ∈ forwarded (ds.takeWhile fits), p.length ≤ maxDatagramSize := by
    intro p hp
    exact length_of_mem_takeWhile (List.mem_filter.mp hp).1
  have hframes : reader.content = (forwarded (ds.takeWhile fits)).flatMap frame ++ [] := by
    rw [List.append_nil]
    exact hcontent
  obtain ⟨rest, hrest, hall⟩ := readAll_frames hfit hframes
  unfold recvTask
  rw [hall, readAll_end hrest, List.append_nil, ← forwarded_takeWhile]
  -- nothing empty was written, so the receive filter drops nothing
  unfold forwarded
  rw [List.filter_filter]
  simp

theorem l2capPath_exists (ds : List Bytes) : ∃ out, L2capDelivers ds out :=
  ⟨_, Source.whole (sendTask [] (forwarded ds)), Source.content_whole _, rfl⟩

/-! ## Both paths -/

/-- What comes out of the GATT path when nothing is lost and no queue overflows. -/
def GattDelivers (ds out : List Bytes) : Prop :=
  ∃ h s, Duplex.system.Run h s ∧ System.Meets Duplex.LossFree h ∧ Duplex.outbound h = ds ∧
    s.Idle ∧ (s.side .b).ch.datagramTx = out

theorem gattPath_eq {ds out : List Bytes} (h : GattDelivers ds out) : out = carried ds := by
  obtain ⟨h, s, hrun, hfree, rfl, hidle, rfl⟩ := h
  exact Duplex.delivered_all hrun hfree hidle

theorem gattPath_exists {c : ℕ} (hc : 4 ≤ c) (ds : List Bytes) : ∃ out, GattDelivers ds out := by
  obtain ⟨h, s, hrun, hfree, hds, hidle, -⟩ := Duplex.run_delivers hc ds
  exact ⟨_, h, s, hrun, hfree, hds, hidle, rfl⟩

/-- No datagram that is too long comes before one that is carried. -/
def Undisturbed (ds : List Bytes) : Prop :=
  ds.Pairwise fun d e => ¬ (maxDatagramSize < d.length ∧ Carried e)

instance (ds : List Bytes) : Decidable (Undisturbed ds) :=
  inferInstanceAs (Decidable (List.Pairwise _ _))

/-- Nothing carried is lost exactly where no datagram that is too long comes before one that is
carried. -/
theorem carried_takeWhile_eq_iff (ds : List Bytes) :
    carried (ds.takeWhile fits) = carried ds ↔ Undisturbed ds := by
  induction ds with
  | nil => exact iff_of_true rfl List.Pairwise.nil
  | cons d ds ih =>
      unfold Undisturbed at ih ⊢
      rw [List.pairwise_cons]
      by_cases hd : d.length ≤ maxDatagramSize
      · have hfirst : ∀ e ∈ ds, ¬ (maxDatagramSize < d.length ∧ Carried e) := by
          intro e _ he
          omega
        rw [List.takeWhile_cons_of_pos (by simpa [fits] using hd)]
        unfold carried at ih ⊢
        by_cases hcarried : Carried d
        · rw [List.filter_cons_of_pos (by simpa using hcarried),
            List.filter_cons_of_pos (by simpa using hcarried), List.cons.injEq]
          rw [ih]
          exact ⟨fun h => ⟨hfirst, h.2⟩, fun h => ⟨rfl, h.2⟩⟩
        · rw [List.filter_cons_of_neg (by simpa using hcarried),
            List.filter_cons_of_neg (by simpa using hcarried), ih]
          exact ⟨fun h => ⟨hfirst, h⟩, fun h => h.2⟩
      · -- the send task ends here: nothing after it may be carried
        have hnot : ¬ Carried d := fun hc => hd hc.2
        rw [List.takeWhile_cons_of_neg (by simpa [fits] using hd)]
        unfold carried
        rw [List.filter_cons_of_neg (by simpa using hnot), List.filter_nil, eq_comm,
          List.filter_eq_nil_iff]
        constructor
        · intro hnone
          have hall : ∀ e ∈ ds, ¬ Carried e := by
            intro e he
            simpa using hnone e he
          refine ⟨fun e he h => hall e he h.2, ?_⟩
          apply List.Pairwise.imp_of_mem (R := fun _ _ => True)
          · intro a b _ hb _ h
            exact hall b hb h.2
          · exact List.pairwise_of_forall fun _ _ => trivial
        · rintro ⟨hfirst, -⟩ e he
          have := hfirst e he
          simp only [decide_eq_true_eq]
          intro hc
          exact this ⟨by omega, hc⟩

/-- GATT and L2CAP deliver the same datagrams, namely all that are carried, exactly if no
datagram that is too long comes before one that is carried. -/
theorem carriage_agrees_iff (ds : List Bytes) :
    (∀ g l, GattDelivers ds g → L2capDelivers ds l → g = l ∧ g = carried ds ∧ l = carried ds) ↔
      Undisturbed ds := by
  rw [← carried_takeWhile_eq_iff]
  constructor
  · intro h
    obtain ⟨g, hg⟩ := gattPath_exists (le_refl 4) ds
    obtain ⟨l, hl⟩ := l2capPath_exists ds
    obtain ⟨-, -, hcarried⟩ := h g l hg hl
    rw [← l2capPath_eq hl]
    exact hcarried
  · intro heq g l hg hl
    have hgatt := gattPath_eq hg
    have hl2cap := l2capPath_eq hl
    rw [heq] at hl2cap
    exact ⟨hgatt.trans hl2cap.symm, hgatt, hl2cap⟩

/-- After an over-long datagram GATT delivers what L2CAP does not. -/
theorem delivers_after_oversize {d e : Bytes} (hd : maxDatagramSize < d.length) (he : Carried e) :
    GattDelivers [d, e] [e] ∧ L2capDelivers [d, e] [] := by
  have hnot : ¬ Carried d := fun hc => by
    have := hc.2
    omega
  have hcarried : carried [d, e] = [e] := by
    unfold carried
    rw [List.filter_cons_of_neg (by simpa using hnot), List.filter_cons_of_pos (by simpa using he),
      List.filter_nil]
  have hnofit : ¬ fits d = true := by
    simp only [fits, decide_eq_true_eq]
    omega
  constructor
  · obtain ⟨g, hg⟩ := gattPath_exists (le_refl 4) [d, e]
    have hg' : g = [e] := (gattPath_eq hg).trans hcarried
    rw [hg'] at hg
    exact hg
  · obtain ⟨l, hl⟩ := l2capPath_exists [d, e]
    have hl' := l2capPath_eq hl
    rw [List.takeWhile_cons_of_neg hnofit] at hl'
    have hnil : l = [] := hl'
    rw [hnil] at hl
    exact hl

/-- A datagram of `MAX_DATAGRAM_SIZE + 1` bytes and then one of a single byte: GATT delivers
the second, L2CAP nothing. -/
theorem carriage_after_oversize :
    GattDelivers [List.replicate (maxDatagramSize + 1) 0, [1]] [[1]] ∧
      L2capDelivers [List.replicate (maxDatagramSize + 1) 0, [1]] [] := by
  apply delivers_after_oversize
  · rw [List.length_replicate]
    omega
  · exact ⟨by simp, by simp [maxDatagramSize]⟩

end IrohBle.L2cap
