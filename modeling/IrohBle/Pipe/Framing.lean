import IrohBle.Lib.LittleEndian
import IrohBle.Lib.Stream
import IrohBle.Reliable.Channel

/-! # Pipe.Framing: datagrams on an L2CAP stream

`write_framed_datagram` and `read_framed_datagram` of `transport/l2cap.rs`. A datagram is
a length of two bytes, least significant first, and then its bytes. The reader of the
stream is a `Lib.Source`: it gets the bytes in whatever pieces the socket hands out.

* `readFramedDatagram_frame`: a frame at the head of the stream is read back.
* `readFramedDatagram_malformed`: a stream that ends inside a frame, or announces a frame
  that is too long, is an error.
* `framing_bijective`: reading to the end inverts writing, in both directions.
-/

namespace IrohBle.L2cap

open Lib Reliable

/-- The errors of the two functions, with the texts of the source. -/
inductive IoError where
  | invalidInput (text : String)
  | invalidData (text : String)
  /-- `read_exact` at the end of the stream. -/
  | unexpectedEof
deriving DecidableEq, Repr

/-- A frame that announces more than a datagram may have. -/
def frameTooLong (len : ℕ) : IoError :=
  .invalidData s!"frame length {len} exceeds MAX_DATAGRAM_SIZE"

/-- `write_framed_datagram`: what the writer holds afterwards. -/
def writeFramedDatagram (writer payload : Bytes) : Except IoError Bytes :=
  if maxDatagramSize < payload.length then
    .error (.invalidInput "datagram exceeds MAX_DATAGRAM_SIZE")
  else .ok (writer ++ LittleEndian.encode 2 payload.length ++ payload)

/-- `read_framed_datagram`: `none` at the end of the stream, else a datagram and the stream
that is left. -/
def readFramedDatagram (reader : Source UInt8) :
    Except IoError (Option (Bytes × Source UInt8)) :=
  -- the first byte is read on its own, so that the end of the stream is seen
  let (first, reader) := reader.read 0
  if first.isEmpty then .ok none
  else
    match reader.readExact 1 with
    | none => .error .unexpectedEof
    | some (second, reader) =>
      let len := LittleEndian.decode (first ++ second)
      if maxDatagramSize < len then .error (frameTooLong len)
      else
        match reader.readExact len with
        | none => .error .unexpectedEof
        | some (buf, reader) => .ok (some (buf, reader))

/-! ## One frame -/

/-- The bytes of a datagram on the stream. -/
def frame (payload : Bytes) : Bytes := LittleEndian.encode 2 payload.length ++ payload

theorem writeFramedDatagram_ok {payload : Bytes} (h : payload.length ≤ maxDatagramSize)
    (writer : Bytes) : writeFramedDatagram writer payload = .ok (writer ++ frame payload) := by
  unfold writeFramedDatagram frame
  rw [if_neg (by omega), List.append_assoc]

/-- What was written was not too long, and is a frame behind the rest. -/
theorem writeFramedDatagram_eq_ok {writer payload writer' : Bytes}
    (h : writeFramedDatagram writer payload = .ok writer') :
    payload.length ≤ maxDatagramSize ∧ writer' = writer ++ frame payload := by
  unfold writeFramedDatagram at h
  split at h
  · cases h
  · rename_i hle
    rw [Except.ok.injEq] at h
    rw [← h, frame, List.append_assoc]
    exact ⟨by omega, rfl⟩

/-- A first byte, however the stream arrives. -/
theorem read_first {reader : Source UInt8} {b : UInt8} {bs : Bytes} (h : reader.content = b :: bs) :
    ∃ rest, reader.read 0 = ([b], rest) ∧ rest.content = bs := by
  obtain ⟨happ, hlen, hnil⟩ := reader.read_spec 0
  rw [h] at happ hnil
  generalize hgot : (reader.read 0).1 = got at happ hlen hnil
  generalize hrest : (reader.read 0).2 = rest at happ
  have hread : reader.read 0 = (got, rest) := by rw [← hgot, ← hrest]
  match got with
  | [] => exact absurd (hnil.mp rfl) (List.cons_ne_nil b bs)
  | x :: y :: zs =>
      simp only [List.length_cons] at hlen
      omega
  | [x] =>
      rw [List.singleton_append, List.cons.injEq] at happ
      rw [hread, happ.1]
      exact ⟨rest, rfl, happ.2.symm⟩

theorem read_end {reader : Source UInt8} (h : reader.content = []) :
    (reader.read 0).1 = [] :=
  (reader.read_spec 0).2.2.mpr h

theorem readFramedDatagram_end {reader : Source UInt8} (h : reader.content = []) :
    readFramedDatagram reader = .ok none := by
  simp [readFramedDatagram, read_end h]

/-- A stream with two bytes at its head: the announced length decides. -/
theorem readFramedDatagram_header {reader : Source UInt8} {lo hi : UInt8} {bs : Bytes}
    (h : reader.content = lo :: hi :: bs) :
    ∃ rest : Source UInt8, rest.content = bs ∧
      readFramedDatagram reader =
        if maxDatagramSize < LittleEndian.decode [lo, hi] then
          .error (frameTooLong (LittleEndian.decode [lo, hi]))
        else
          match rest.readExact (LittleEndian.decode [lo, hi]) with
          | none => .error .unexpectedEof
          | some (buf, rest') => .ok (some (buf, rest')) := by
  obtain ⟨rest₁, hfirst, hrest₁⟩ := read_first h
  have hcons : rest₁.content = [hi] ++ bs := hrest₁
  obtain ⟨rest₂, hsecond, hrest₂⟩ := Source.readExact_append hcons
  refine ⟨rest₂, hrest₂, ?_⟩
  rw [List.length_singleton] at hsecond
  simp only [readFramedDatagram, hfirst, hsecond, List.isEmpty_cons, Bool.false_eq_true, if_false,
    List.singleton_append]

/-- A frame at the head of the stream is read back. -/
theorem readFramedDatagram_frame {reader : Source UInt8} {payload bs : Bytes}
    (hlen : payload.length ≤ maxDatagramSize) (h : reader.content = frame payload ++ bs) :
    ∃ rest, readFramedDatagram reader = .ok (some (payload, rest)) ∧ rest.content = bs := by
  have hle : LittleEndian.decode (LittleEndian.encode 2 payload.length) = payload.length := by
    apply LittleEndian.decode_encode
    unfold maxDatagramSize at hlen
    omega
  unfold frame at h
  rw [List.append_assoc] at h
  obtain ⟨rest₁, hrest₁, hread⟩ := readFramedDatagram_header h
  have hbody : rest₁.content = payload ++ bs := hrest₁
  obtain ⟨rest, hexact, hrest⟩ := Source.readExact_append hbody
  rw [LittleEndian.encode, LittleEndian.encode, LittleEndian.encode] at hle
  rw [hread, hle, if_neg (by omega), hexact]
  exact ⟨rest, rfl, hrest⟩

/-- What is read was a frame. -/
theorem frame_of_readFramedDatagram {reader rest : Source UInt8} {payload : Bytes}
    (h : readFramedDatagram reader = .ok (some (payload, rest))) :
    reader.content = frame payload ++ rest.content ∧ payload.length ≤ maxDatagramSize := by
  -- a stream shorter than a length cannot have held a frame
  match hcontent : reader.content with
  | [] =>
      rw [readFramedDatagram_end hcontent] at h
      cases h
  | [b] =>
      obtain ⟨rest₁, hfirst, hrest₁⟩ := read_first hcontent
      have hshort : rest₁.readExact 1 = none := Source.readExact_short (by simp [hrest₁])
      simp [readFramedDatagram, hfirst, hshort] at h
  | lo :: hi :: bs =>
      obtain ⟨rest₁, hrest₁, hread⟩ := readFramedDatagram_header hcontent
      rw [hread] at h
      -- a length above the maximum is an error, not a frame
      split at h
      · cases h
      · rename_i hle
        cases hexact : rest₁.readExact (LittleEndian.decode [lo, hi]) with
        | none =>
            rw [hexact] at h
            cases h
        | some x =>
            obtain ⟨buf, rest₂⟩ := x
            rw [hexact] at h
            simp only [Except.ok.injEq, Option.some.injEq, Prod.mk.injEq] at h
            obtain ⟨rfl, rfl⟩ := h
            obtain ⟨hbs, hlength⟩ := Source.content_of_readExact hexact
            rw [hrest₁] at hbs
            constructor
            · have hheader : LittleEndian.encode 2 (LittleEndian.decode [lo, hi]) = [lo, hi] :=
                LittleEndian.encode_decode [lo, hi]
              rw [frame, hlength, hheader, hbs]
              rfl
            · omega

/-! ## Malformed ends -/

/-- The end of a stream that is no frame, with the error it gives. -/
inductive Malformed : Bytes → IoError → Prop where
  /-- The stream ends inside a length. -/
  | length (b : UInt8) : Malformed [b] .unexpectedEof
  /-- The stream ends inside a payload. -/
  | payload {lo hi : UInt8} {bs : Bytes} : LittleEndian.decode [lo, hi] ≤ maxDatagramSize →
      bs.length < LittleEndian.decode [lo, hi] → Malformed (lo :: hi :: bs) .unexpectedEof
  /-- A frame longer than the maximum is announced. -/
  | tooLong {lo hi : UInt8} (bs : Bytes) : maxDatagramSize < LittleEndian.decode [lo, hi] →
      Malformed (lo :: hi :: bs) (frameTooLong (LittleEndian.decode [lo, hi]))

/-- A stream whose next frame is malformed is an error. -/
theorem readFramedDatagram_malformed {reader : Source UInt8} {e : IoError}
    (h : Malformed reader.content e) : readFramedDatagram reader = .error e := by
  generalize hcontent : reader.content = bytes at h
  cases h with
  | length b =>
      obtain ⟨rest, hfirst, hrest⟩ := read_first hcontent
      have hshort : rest.readExact 1 = none := Source.readExact_short (by simp [hrest])
      simp [readFramedDatagram, hfirst, hshort]
  | payload hle hshort =>
      obtain ⟨rest, hrest, hread⟩ := readFramedDatagram_header hcontent
      rw [← hrest] at hshort
      rw [hread, if_neg (by omega), Source.readExact_short hshort]
  | tooLong bs hlong =>
      obtain ⟨rest, -, hread⟩ := readFramedDatagram_header hcontent
      rw [hread, if_pos hlong]

/-! ## The whole stream -/

/-- Each frame takes at least its length off the stream. -/
theorem content_lt_of_readFramedDatagram {reader rest : Source UInt8} {payload : Bytes}
    (h : readFramedDatagram reader = .ok (some (payload, rest))) :
    rest.content.length < reader.content.length := by
  obtain ⟨hcontent, -⟩ := frame_of_readFramedDatagram h
  rw [hcontent, frame, List.length_append, List.length_append, LittleEndian.length_encode]
  omega

/-- Write datagrams one after another, up to the first error. -/
def writeAll (writer : Bytes) : List Bytes → Except IoError Bytes
  | [] => .ok writer
  | payload :: payloads => do
    let writer ← writeFramedDatagram writer payload
    writeAll writer payloads

/-- Read datagrams until the stream ends or an error stops it: the datagrams, and which of
the two it was. -/
def readAll (reader : Source UInt8) : List Bytes × Except IoError Unit :=
  match h : readFramedDatagram reader with
  | .error e => ([], .error e)
  | .ok none => ([], .ok ())
  | .ok (some (payload, rest)) =>
    have := content_lt_of_readFramedDatagram h
    let r := readAll rest
    (payload :: r.1, r.2)
termination_by reader.content.length

/-- Datagrams that are not too long are written as one frame each. -/
theorem writeAll_ok {payloads : List Bytes} (h : ∀ p ∈ payloads, p.length ≤ maxDatagramSize)
    (writer : Bytes) : writeAll writer payloads = .ok (writer ++ payloads.flatMap frame) := by
  induction payloads generalizing writer with
  | nil => simp [writeAll]
  | cons p ps ih =>
      have hp : p.length ≤ maxDatagramSize := h p List.mem_cons_self
      have hps : ∀ q ∈ ps, q.length ≤ maxDatagramSize := by
        intro q hq
        exact h q (List.mem_cons_of_mem p hq)
      rw [writeAll, writeFramedDatagram_ok hp, List.flatMap_cons, ← List.append_assoc]
      exact ih hps (writer ++ frame p)

/-- What was written is one frame for each datagram, none of them too long. -/
theorem writeAll_eq_ok {payloads : List Bytes} {writer bytes : Bytes}
    (h : writeAll writer payloads = .ok bytes) :
    (∀ p ∈ payloads, p.length ≤ maxDatagramSize) ∧ bytes = writer ++ payloads.flatMap frame := by
  induction payloads generalizing writer with
  | nil =>
      rw [writeAll, Except.ok.injEq] at h
      simp [h]
  | cons p ps ih =>
      cases hwrite : writeFramedDatagram writer p with
      | error e =>
          rw [writeAll, hwrite] at h
          cases h
      | ok writer' =>
          obtain ⟨hp, rfl⟩ := writeFramedDatagram_eq_ok hwrite
          rw [writeAll, hwrite] at h
          obtain ⟨hps, rfl⟩ := ih h
          constructor
          · intro q hq
            rcases List.mem_cons.mp hq with rfl | hq
            · exact hp
            · exact hps q hq
          · rw [List.flatMap_cons, List.append_assoc]

/-- Reading to the end of an empty stream gives nothing. -/
theorem readAll_end {reader : Source UInt8} (h : reader.content = []) :
    readAll reader = ([], .ok ()) := by
  rw [readAll]
  split
  · rename_i heq
    rw [readFramedDatagram_end h] at heq
    cases heq
  · rfl
  · rename_i heq
    rw [readFramedDatagram_end h] at heq
    cases heq

/-- A malformed frame ends the reading with an error. -/
theorem readAll_malformed {reader : Source UInt8} {e : IoError} (h : Malformed reader.content e) :
    readAll reader = ([], .error e) := by
  have hread := readFramedDatagram_malformed h
  rw [readAll]
  split
  · rename_i heq
    rw [hread, Except.error.injEq] at heq
    rw [heq]
  · rename_i heq
    rw [hread] at heq
    cases heq
  · rename_i heq
    rw [hread] at heq
    cases heq

/-- Reading to the end gives the next datagram, and then the rest. -/
theorem readAll_cons {reader rest : Source UInt8} {payload : Bytes}
    (h : readFramedDatagram reader = .ok (some (payload, rest))) :
    readAll reader = (payload :: (readAll rest).1, (readAll rest).2) := by
  rw [readAll]
  split
  · rename_i heq
    rw [h] at heq
    cases heq
  · rename_i heq
    rw [h] at heq
    cases heq
  · rename_i payload' rest' heq
    rw [h] at heq
    simp only [Except.ok.injEq, Option.some.injEq, Prod.mk.injEq] at heq
    rw [heq.1, heq.2]

/-- Frames at the head of a stream are read, whatever follows them. -/
theorem readAll_frames {payloads : List Bytes} (hps : ∀ p ∈ payloads, p.length ≤ maxDatagramSize)
    {reader : Source UInt8} {bs : Bytes} (h : reader.content = payloads.flatMap frame ++ bs) :
    ∃ rest : Source UInt8, rest.content = bs ∧
      readAll reader = (payloads ++ (readAll rest).1, (readAll rest).2) := by
  induction payloads generalizing reader with
  | nil => exact ⟨reader, by simpa using h, rfl⟩
  | cons p ps ih =>
      rw [List.flatMap_cons, List.append_assoc] at h
      obtain ⟨rest₁, hread, hrest₁⟩ := readFramedDatagram_frame (hps p List.mem_cons_self) h
      have hps' : ∀ q ∈ ps, q.length ≤ maxDatagramSize := by
        intro q hq
        exact hps q (List.mem_cons_of_mem p hq)
      obtain ⟨rest, hrest, hall⟩ := ih hps' hrest₁
      refine ⟨rest, hrest, ?_⟩
      rw [readAll_cons hread, hall]
      rfl

/-- What is read up to the end of the stream is what the stream encodes. -/
theorem content_of_readAll {reader : Source UInt8} (h : (readAll reader).2 = .ok ()) :
    reader.content = (readAll reader).1.flatMap frame ∧
      ∀ p ∈ (readAll reader).1, p.length ≤ maxDatagramSize := by
  induction hlen : reader.content.length using Nat.strongRecOn generalizing reader with
  | ind n ih =>
      cases hread : readFramedDatagram reader with
      | error e =>
          rw [readAll] at h
          split at h
          · cases h
          · rename_i heq
            rw [hread] at heq
            cases heq
          · rename_i heq
            rw [hread] at heq
            cases heq
      | ok o =>
          cases o with
          | none =>
              -- the end is seen only where nothing is left
              have hnil : reader.content = [] := by
                cases hcontent : reader.content with
                | nil => rfl
                | cons b bs =>
                    obtain ⟨rest, hfirst, -⟩ := read_first hcontent
                    simp only [readFramedDatagram, hfirst] at hread
                    simp only [List.isEmpty_cons, Bool.false_eq_true, if_false] at hread
                    repeat' split at hread
                    all_goals cases hread
              rw [readAll_end hnil]
              exact ⟨hnil, List.forall_mem_nil _⟩
          | some x =>
              obtain ⟨payload, rest⟩ := x
              obtain ⟨hcontent, hple⟩ := frame_of_readFramedDatagram hread
              have hlt := content_lt_of_readFramedDatagram hread
              rw [readAll_cons hread] at h ⊢
              obtain ⟨hrest, hall⟩ := ih rest.content.length (by omega) h rfl
              constructor
              · rw [hcontent, List.flatMap_cons, ← hrest]
              · intro p hp
                rcases List.mem_cons.mp hp with rfl | hp
                · exact hple
                · exact hall p hp

/-- Framing is a bijection between lists of datagrams that fit a frame and streams that are
read to their end; a malformed end is an error. None of it depends on the pieces in which
the stream arrives. -/
theorem framing_bijective :
    (∀ payloads : List Bytes, (∀ p ∈ payloads, p.length ≤ maxDatagramSize) →
      ∃ bytes, writeAll [] payloads = .ok bytes ∧
        ∀ reader : Source UInt8, reader.content = bytes → readAll reader = (payloads, .ok ())) ∧
    (∀ (reader : Source UInt8) (payloads : List Bytes), readAll reader = (payloads, .ok ()) →
      writeAll [] payloads = .ok reader.content) ∧
    (∀ (payloads : List Bytes) (bytes tail : Bytes) (e : IoError),
      writeAll [] payloads = .ok bytes → Malformed tail e →
        ∀ reader : Source UInt8, reader.content = bytes ++ tail →
          readAll reader = (payloads, .error e)) := by
  refine ⟨?_, ?_, ?_⟩
  · intro payloads hps
    refine ⟨_, writeAll_ok hps [], ?_⟩
    intro reader hcontent
    have hframes : reader.content = payloads.flatMap frame ++ [] := by simpa using hcontent
    obtain ⟨rest, hrest, hall⟩ := readAll_frames hps hframes
    rw [hall, readAll_end hrest, List.append_nil]
  · intro reader payloads hread
    have hok : (readAll reader).2 = .ok () := by rw [hread]
    obtain ⟨hcontent, hps⟩ := content_of_readAll hok
    rw [hread] at hcontent hps
    rw [hcontent]
    exact writeAll_ok hps []
  · intro payloads bytes tail e hwrite hmal reader hcontent
    obtain ⟨hps, rfl⟩ := writeAll_eq_ok hwrite
    obtain ⟨rest, rfl, hall⟩ := readAll_frames hps hcontent
    rw [hall, readAll_malformed hmal, List.append_nil]

/-- Two datagrams, one of them empty, byte by byte; and a stream that ends inside its second
payload. -/
theorem framing_bijective_trickle :
    readAll (Source.trickle [2, 0, 7, 8, 0, 0]) = ([[7, 8], []], .ok ()) ∧
    writeAll [] [[7, 8], []] = .ok [2, 0, 7, 8, 0, 0] ∧
    readAll (Source.trickle [0, 0, 3, 0, 9]) = ([[]], .error .unexpectedEof) := by
  obtain ⟨hwritten, hread, hmalformed⟩ := framing_bijective
  obtain ⟨bytes, hbytes, hall⟩ := hwritten [[7, 8], []] (by decide)
  have heq : bytes = [2, 0, 7, 8, 0, 0] := (Except.ok.inj hbytes).symm
  have hfirst := hall (Source.trickle [2, 0, 7, 8, 0, 0]) (by rw [heq, Source.content_trickle])
  have hback := hread _ _ hfirst
  rw [Source.content_trickle] at hback
  refine ⟨hfirst, hback, ?_⟩
  have hshort : Malformed [3, 0, 9] .unexpectedEof := .payload (by decide) (by decide)
  exact hmalformed [[]] [0, 0] [3, 0, 9] .unexpectedEof rfl hshort
    (Source.trickle [0, 0, 3, 0, 9]) (Source.content_trickle _)

end IrohBle.L2cap
