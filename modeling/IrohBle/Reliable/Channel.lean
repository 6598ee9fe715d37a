import Mathlib.Data.List.Basic

/-! # Reliable.Channel: the selective-repeat channel over GATT

Executable model of `transport/reliable.rs`: the wire format, `ChannelState`
and the operations of `ReliableChannel`.

* Sequence numbers and header bytes are `UInt8`, as in the source; counters
  wrap modulo `seqModulus`.
* An `Instant` or a `Duration` is a number of nanoseconds. Operations that read
  the clock take the reading as an argument.
* The effects of an operation are fields of `ReliableChannel`: `datagramTx` is
  the list of everything handed to `datagram_tx`, and `wake` is the permit that
  `Notify::notify_one` stores. `send_waker` only wakes tasks outside the channel
  and is left out.
-/

namespace IrohBle.Reliable

/-- The payload of a message. -/
abbrev Bytes := List UInt8

/-- `Duration::from_millis`. -/
def millis (n : ℕ) : ℕ := n * 1000000

/-! ## Constants -/

/-- The header has two bytes: sequence number with FIRST and LAST, and the ACK. -/
def headerSize : ℕ := 2

/-- Trailer byte of every data fragment. -/
def fragmentCanary : UInt8 := 0x5A

/-- The low four bits of the first byte are the sequence number. -/
def seqMask : UInt8 := 0x0F

/-- The fragment is the first of its datagram. -/
def flagFirst : UInt8 := 0x10

/-- The fragment is the last of its datagram. -/
def flagLast : UInt8 := 0x20

/-- The low four bits of the second byte are the acknowledged number. -/
def ackSeqMask : UInt8 := 0x0F

/-- The second byte holds an acknowledgement. -/
def flagAck : UInt8 := 0x10

/-- Sequence numbers have four bits. -/
def seqModulus : UInt8 := 16

/-- At most six fragments are in flight. -/
def windowSize : UInt8 := 6

/-- The time between two fragments. -/
def interFrameGap : ℕ := millis 3

/-- The time without progress after which the head of the window is sent again. -/
def ackTimeout : ℕ := millis 300

/-- The bound of the backoff of that time. -/
def ackTimeoutMax : ℕ := millis 5000

/-- An acknowledgement waits so long for a fragment to ride on. -/
def ackDelay : ℕ := millis 15

/-- The time without progress after which the link is given up. -/
def linkDeadDeadline : ℕ := millis 6000

/-- So many datagrams are accepted ahead of what has been cut. -/
def sendQueueCapacity : ℕ := 32

/-- `mtu::MAX_DATAGRAM_SIZE`. -/
def maxDatagramSize : ℕ := 1472

/-! ## Header -/

/-- `make_header`: no acknowledgement yet. -/
def makeHeader (seq : UInt8) (first last : Bool) : Bytes :=
  [(seq &&& seqMask) ||| (if first then flagFirst else 0) ||| (if last then flagLast else 0), 0]

/-- `set_ack`. -/
def setAck (header : Bytes) (ackSeq : UInt8) : Bytes :=
  header.set 1 ((ackSeq &&& ackSeqMask) ||| flagAck)

/-- `seq_dist`: how far `b` is ahead of `a`. -/
def seqDist (a b : UInt8) : UInt8 := (b - a) % seqModulus

/-! ## State -/

/-- A message that has been sent and not been acknowledged. -/
structure InFlightFragment where
  seq : UInt8
  wireMsg : Bytes
deriving DecidableEq, Repr

/-- A fragment that waits for a sequence number. -/
structure FragmentEntry where
  payload : Bytes
  first : Bool
  last : Bool
deriving DecidableEq, Repr

/-- A fragment that has arrived ahead of its turn. -/
structure BufferedFragment where
  seq : UInt8
  first : Bool
  last : Bool
  payload : Bytes
deriving DecidableEq, Repr

/-- The part of the channel behind its lock. -/
structure ChannelState where
  sendQueue : List Bytes
  fragQueue : List FragmentEntry
  sendNext : UInt8
  sendBase : UInt8
  inFlight : List InFlightFragment
  recvNext : UInt8
  reassembly : Bytes
  reassemblyOverflow : Bool
  recvBuf : List BufferedFragment
  ackPending : Option UInt8
  ackDeadline : Option ℕ
  lastProgressAt : ℕ
  linkDead : Bool
deriving DecidableEq, Repr

namespace ChannelState

/-- So many numbers are in flight. -/
def inFlightCount (s : ChannelState) : UInt8 := seqDist s.sendBase s.sendNext

/-- Whether the window has room. -/
def canSend (s : ChannelState) : Bool := s.inFlightCount < windowSize

/-- Whether a number lies in the window of the receiver. -/
def inRecvWindow (s : ChannelState) (seq : UInt8) : Bool := seqDist s.recvNext seq < windowSize

/-- Whether a number has arrived already. -/
def isBuffered (s : ChannelState) (seq : UInt8) : Bool := s.recvBuf.any (·.seq == seq)

/-- `schedule_ack`: the deadline of the first unsent acknowledgement stands. -/
def scheduleAck (now : ℕ) (seq : UInt8) (s : ChannelState) : ChannelState :=
  { s with
    ackPending := some seq
    ackDeadline := if s.ackDeadline.isNone then some (now + ackDelay) else s.ackDeadline }

/-- The acknowledgement is returned by reading `ackPending` before the call. -/
def takeAck (s : ChannelState) : ChannelState :=
  { s with ackDeadline := none, ackPending := none }

end ChannelState

/-- The channel: the locked state, the wake permit, what it has delivered, and its counters. -/
structure ReliableChannel where
  state : ChannelState
  wake : Bool
  datagramTx : List Bytes
  chunkSize : ℕ
  retransmitCounter : ℕ
  truncationCounter : ℕ
deriving DecidableEq, Repr

namespace ReliableChannel

/-- `ReliableChannel::new` at clock reading `now`. -/
def new (chunkSize : ℕ) (now : ℕ) : ReliableChannel where
  state :=
    { sendQueue := [], fragQueue := [], sendNext := 0, sendBase := 0, inFlight := []
      recvNext := 0, reassembly := [], reassemblyOverflow := false, recvBuf := []
      ackPending := none, ackDeadline := none, lastProgressAt := now, linkDead := false }
  wake := false
  datagramTx := []
  chunkSize := chunkSize
  retransmitCounter := 0
  truncationCounter := 0

/-- `set_chunk_size`. -/
def setChunkSize (n : ℕ) (ch : ReliableChannel) : ReliableChannel :=
  { ch with chunkSize := n }

/-- `self.wake.notify_one()`. -/
def notifyOne (ch : ReliableChannel) : ReliableChannel := { ch with wake := true }

/-- `mark_dead`. -/
def markDead (ch : ReliableChannel) : ReliableChannel :=
  notifyOne { ch with state := { ch.state with linkDead := true } }

/-- `enqueue_datagram`; `try_enqueue_datagram` is the same once it has the lock. -/
def enqueueDatagram (data : Bytes) (ch : ReliableChannel) : ReliableChannel × Bool :=
  if sendQueueCapacity ≤ ch.state.sendQueue.length + ch.state.fragQueue.length then
    (ch, false)
  else
    (notifyOne { ch with state := { ch.state with sendQueue := ch.state.sendQueue ++ [data] } },
      true)

/-! ## Receiving -/

/-- `accept_and_deliver`: one fragment in turn joins the reassembly, and the last one delivers it.
-/
def acceptAndDeliver (now : ℕ) (first last : Bool) (payload : Bytes)
    (ch : ReliableChannel) : ReliableChannel :=
  let s := ch.state
  -- a first fragment drops what was left of an earlier datagram
  let s := if first then { s with reassembly := [], reassemblyOverflow := false } else s
  let s :=
    -- too long already, or with this fragment: the rest is dropped too
    if s.reassemblyOverflow then s
    else if maxDatagramSize < (s.reassembly ++ payload).length then
      { s with reassembly := [], reassemblyOverflow := true }
    else { s with reassembly := s.reassembly ++ payload }
  let complete := s.reassembly
  -- an empty datagram is not delivered
  let tx := if last && !complete.isEmpty then ch.datagramTx ++ [complete] else ch.datagramTx
  let s := if last then { s with reassembly := [], reassemblyOverflow := false } else s
  let recvNext := (s.recvNext + 1) % seqModulus
  -- the fragment before the one that is waited for
  let ackSeq := (recvNext + seqModulus - 1) % seqModulus
  notifyOne
    { ch with
      state := ({ s with recvNext := recvNext }).scheduleAck now ackSeq
      datagramTx := tx }

/-- The loop of `drain_recv_buf`. Every pass removes one buffered fragment, so
as many passes as there are fragments are enough. -/
def drainLoop (now : ℕ) : ℕ → ReliableChannel → ReliableChannel
  | 0, ch => ch
  | n + 1, ch =>
    match ch.state.recvBuf.find? (·.seq == ch.state.recvNext) with
    | none => ch
    | some frag =>
      let s := { ch.state with
        recvBuf := ch.state.recvBuf.eraseP (·.seq == ch.state.recvNext) }
      drainLoop now n (acceptAndDeliver now frag.first frag.last frag.payload { ch with state := s })

/-- `drain_recv_buf`. -/
def drainRecvBuf (now : ℕ) (ch : ReliableChannel) : ReliableChannel :=
  drainLoop now ch.state.recvBuf.length ch

/-- The `if has_ack` block of `receive_fragment`. -/
def receiveAck (now : ℕ) (ackSeq : UInt8) (ch : ReliableChannel) : ReliableChannel :=
  let s := ch.state
  let ackedCount := seqDist s.sendBase ((ackSeq + 1) % seqModulus)
  -- only a number within the window counts
  if 0 < ackedCount ∧ ackedCount ≤ windowSize ∧ ackedCount ≤ s.inFlightCount then
    notifyOne
      { ch with
        state := { s with
          inFlight := s.inFlight.drop (min ackedCount.toNat s.inFlight.length)
          sendBase := (ackSeq + 1) % seqModulus
          lastProgressAt := now } }
  else ch

/-- `(state.recv_next + SEQ_MODULUS - 1) % SEQ_MODULUS`, acknowledged again when
a fragment arrives out of order or twice. -/
def reAck (now : ℕ) (ch : ReliableChannel) : ReliableChannel :=
  notifyOne { ch with state :=
    ch.state.scheduleAck now ((ch.state.recvNext + seqModulus - 1) % seqModulus) }

/-- The `if has_data` block of `receive_fragment`. -/
def receiveData (now : ℕ) (seq : UInt8) (first last : Bool) (payload : Bytes)
    (ch : ReliableChannel) : ReliableChannel :=
  if seq = ch.state.recvNext then
    drainRecvBuf now (acceptAndDeliver now first last payload ch)
  else if ch.state.inRecvWindow seq && !ch.state.isBuffered seq then
    reAck now { ch with state := { ch.state with
      recvBuf := ch.state.recvBuf ++ [⟨seq, first, last, payload⟩] } }
  else if !ch.state.inRecvWindow seq then reAck now ch
  else ch

/-- `receive_fragment` once the canary is off: header, acknowledgement, data. -/
def receiveBody (now : ℕ) (b0 b1 : UInt8) (payload : Bytes)
    (ch : ReliableChannel) : ReliableChannel :=
  let first := (b0 &&& flagFirst) != 0
  let last := (b0 &&& flagLast) != 0
  let ch := if (b1 &&& flagAck) != 0 then receiveAck now (b1 &&& ackSeqMask) ch else ch
  if first || last || !payload.isEmpty then
    receiveData now (b0 &&& seqMask) first last payload ch
  else ch

/-- `receive_fragment`. -/
def receiveFragment (now : ℕ) (value : Bytes) (ch : ReliableChannel) : ReliableChannel :=
  match value with
  | [] | [_] => ch
  | [b0, b1] => receiveBody now b0 b1 [] ch
  | b0 :: b1 :: rest =>
    -- longer than a header: the last byte must be the canary
    if rest.getLast? ≠ some fragmentCanary then
      { ch with truncationCounter := ch.truncationCounter + 1 }
    else receiveBody now b0 b1 rest.dropLast ch

/-! ## Sending -/

/-- What `next_send_action` asks its caller to do. -/
inductive SendAction where
  | send (msg : Bytes)
  | wait
  | dead
deriving DecidableEq, Repr

/-- `slice::chunks`; the fuel is the length, as every chunk is non-empty. -/
def chunksAux (n : ℕ) : ℕ → Bytes → List Bytes
  | 0, _ => []
  | _ + 1, [] => []
  | f + 1, b :: bs => (b :: bs).take n :: chunksAux n f ((b :: bs).drop n)

/-- `slice::chunks`. -/
def chunks (n : ℕ) (data : Bytes) : List Bytes := chunksAux n data.length data

/-- The fragments `fragment_into` appends to `frag_queue`. -/
def fragments (chunkSize : ℕ) (datagram : Bytes) : List FragmentEntry :=
  let maxPayload := chunkSize - headerSize - 1
  if datagram.length ≤ maxPayload then [⟨datagram, true, true⟩]
  else
    let cs := chunks maxPayload datagram
    let lastIdx := cs.length - 1
    cs.mapIdx fun i chunk => ⟨chunk, i == 0, i == lastIdx⟩

/-- A datagram is cut, and its fragments queue for a number. -/
def fragmentInto (datagram : Bytes) (ch : ReliableChannel) : ReliableChannel :=
  { ch with state := { ch.state with
    fragQueue := ch.state.fragQueue ++ fragments ch.chunkSize datagram } }

/-- Refill `frag_queue` from `send_queue` when it has run dry. -/
def refill (ch : ReliableChannel) : ReliableChannel :=
  match ch.state.fragQueue, ch.state.sendQueue with
  | [], datagram :: rest =>
    fragmentInto datagram { ch with state := { ch.state with sendQueue := rest } }
  | _, _ => ch

/-- Build the message for the fragment at the head of `frag_queue`, put it in
`in_flight` and return it. -/
def sendFragment (now : ℕ) (frag : FragmentEntry) (rest : List FragmentEntry)
    (ch : ReliableChannel) : ReliableChannel × SendAction :=
  let s := { ch.state with fragQueue := rest }
  let seq := s.sendNext
  let hdr := makeHeader seq frag.first frag.last
  let hdr := match s.ackPending with
    | some ackSeq => setAck hdr ackSeq
    | none => hdr
  let s := s.takeAck
  let msg := hdr ++ frag.payload ++ [fragmentCanary]
  -- idle → busy: the liveness window starts afresh
  let s := if s.inFlight.isEmpty then { s with lastProgressAt := now } else s
  let s := { s with
    inFlight := s.inFlight ++ [⟨seq, msg⟩]
    sendNext := (s.sendNext + 1) % seqModulus }
  ({ ch with state := s }, .send msg)

/-- The tail of `next_send_action`: a pure ACK once its delay has expired. -/
def sendPureAck (now : ℕ) (ch : ReliableChannel) : ReliableChannel × SendAction :=
  match ch.state.ackPending with
  | some ackSeq =>
    if ch.state.ackDeadline.all (· ≤ now) then
      ({ ch with state := ch.state.takeAck }, .send (setAck [0, 0] ackSeq))
    else (ch, .wait)
  | none => (ch, .wait)

/-- `next_send_action`. -/
def nextSendAction (now : ℕ) (ch : ReliableChannel) : ReliableChannel × SendAction :=
  if ch.state.linkDead then (ch, .dead)
  else
    let ch := refill ch
    if ch.state.canSend then
      -- the window leaves room: cut another datagram if there is none cut
      let ch := refill ch
      match ch.state.fragQueue with
      | frag :: rest => sendFragment now frag rest ch
      | [] => sendPureAck now ch
    -- no room: acknowledgements still go out
    else sendPureAck now ch

/-- The retransmission step of `run_send_loop`: a copy of the oldest in-flight
message, its ACK byte overwritten only when an acknowledgement is pending. -/
def resendFront (ch : ReliableChannel) : ReliableChannel × Option Bytes :=
  match ch.state.inFlight with
  | [] => (ch, none)
  | front :: _ =>
    let msg := match ch.state.ackPending with
      -- the copy carries a fresh acknowledgement where one is due
      | some ackSeq =>
        if headerSize ≤ front.wireMsg.length then setAck front.wireMsg ackSeq else front.wireMsg
      | none => front.wireMsg
    ({ ch with
       state := ch.state.takeAck
       retransmitCounter := ch.retransmitCounter + 1 }, some msg)

end ReliableChannel

end IrohBle.Reliable
