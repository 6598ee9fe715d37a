import IrohBle.Lib.System
import IrohBle.Peer
import IrohBle.Reliable.Mtu
import IrohBle.Reliable.Suspend

/-! # Pipe.Gatt: the GATT worker and its datagram channel

`run_gatt_pipe` is one loop. It feeds inbound fragments to `receive_fragment`, which hands the
reassembled datagrams to a channel of 64 slots, and it is the loop itself that empties this
channel. `receive_fragment` awaits every `datagram_tx.send` inside the loop, with the state of the
channel locked.

* `select!` takes any branch that is ready; `takeInbound` runs `receive_fragment` up to its first
  `send`, `sent` from one `send` to the next.
* `stuck_step`: a worker that waits for a full datagram channel waits for itself. Nothing but an
  abort from outside ends this.
* `never_waits_for_itself`: it does not come to that in the runs in which the inbound branch is
  taken only while the channel has room for every datagram the fragment completes.
  `comes_to_wait`: whenever it is taken with less room, it does.
-/

namespace IrohBle.Gatt

open Lib Reliable ReliableChannel

/-- Where the loop of `run_gatt_pipe` is. -/
inductive Worker where
  | select
  /-- Suspended in `datagram_tx.send`, inside `receive_fragment`. -/
  | receiving (complete : Bytes)
  /-- Suspended in `incoming_tx.send`. -/
  | delivering (data : Bytes)
  | stopped
deriving DecidableEq, Repr

/-- The worker with its channels and the reliable channel it feeds. -/
structure Pipe where
  worker : Worker
  channel : ReliableChannel
  /-- `datagram_rx`. -/
  datagramRx : List Bytes
  /-- `outbound_rx` and `inbound_rx`, and whether their senders are gone. -/
  outbound : List Bytes
  outboundClosed : Bool
  inbound : List Bytes
  inboundClosed : Bool
  shutdown : Bool
  /-- `run_send_loop` has returned. -/
  sendLoopDone : Bool
  /-- Handed to `incoming_tx`. -/
  incoming : List Bytes
  /-- `Stalled` commands sent to the registry. -/
  stalled : ℕ
deriving DecidableEq, Repr

/-- The steps of the worker, of its send loop, and of those around it. -/
inductive Label where
  /-- The supervisor forwards a datagram, a fragment. -/
  | enqueue (d : Bytes)
  | arrive (value : Bytes)
  /-- The supervisor drops its senders, or asks the worker to quiesce. -/
  | closeOutbound
  | closeInbound
  | shutdown
  /-- The MTU resolver lands. -/
  | setChunkSize (n : ℕ)
  /-- The send loop, when it has the lock. -/
  | nextSend (now : ℕ)
  | resend
  | sendLoopEnds
  /-- The branches of the `select!`. -/
  | takeOutbound
  | takeInbound (now : ℕ)
  | takeDatagram
  | takeShutdown
  | takeJoin
  /-- `datagram_tx.send` completes. -/
  | sent (now : ℕ)
  /-- `incoming_tx.send` completes. -/
  | delivered
  /-- The supervisor aborts the task. -/
  | abort
deriving DecidableEq, Repr

namespace Pipe

/-- The channel from `receive_fragment` to the loop, and the one the supervisor forwards fragments
on. -/
def datagramCapacity : ℕ := 64
def inboundCapacity : ℕ := 64

/-- A pipe as the worker sets it up. -/
def start (now : ℕ) : Pipe :=
  ⟨.select, ReliableChannel.new initialChunkSize now, [], [], false, [], false, false, false, [], 0⟩

/-- The state of the channel is locked across an await only inside `receive_fragment`. -/
def locked (p : Pipe) : Bool :=
  match p.worker with
  | .receiving _ => true
  | _ => false

/-- `break`: the send loop is told to end, unless it has. -/
def stop (p : Pipe) : Pipe :=
  { p with
    worker := .stopped
    channel := if p.sendLoopDone then p.channel else markDead p.channel }

/-- Where a call of `receive_fragment` has come to: its next `send`, or its end. -/
def proceed (r : ReliableChannel × Option Bytes) (p : Pipe) : Pipe :=
  { p with
    channel := r.1
    worker := match r.2 with
      | some d => .receiving d
      | none => .select }

/-- The `outbound_rx.recv()` branch. -/
def takeOutbound (p : Pipe) : Option Pipe :=
  match p.outbound with
  | [] => if p.outboundClosed then some p.stop else none
  | d :: rest => some { p with outbound := rest, channel := (enqueueDatagram d p.channel).1 }

/-- `receive_fragment` begins. -/
def receive (now : ℕ) (value : Bytes) (rest : List Bytes) (p : Pipe) : Pipe :=
  proceed (beginReceive now value p.channel) { p with inbound := rest }

/-- The `inbound_rx.recv()` branch. -/
def takeInbound (now : ℕ) (p : Pipe) : Option Pipe :=
  match p.inbound with
  | [] => if p.inboundClosed then some p.stop else none
  | value :: rest => some (p.receive now value rest)

/-- `receive_fragment` goes on: the datagram is in the channel. -/
def goOn (now : ℕ) (d : Bytes) (p : Pipe) : Pipe :=
  proceed (resume now d p.channel) { p with datagramRx := p.datagramRx ++ [d] }

/-- The `send` completes once there is room. -/
def sent (now : ℕ) (d : Bytes) (p : Pipe) : Option Pipe :=
  if p.datagramRx.length < datagramCapacity then some (p.goOn now d) else none

/-- One step; while the channel's state is locked, only the worker and those outside move. -/
def step : Label → Pipe → Option Pipe
  -- the supervisor's `try_send`s: a full channel drops
  | .enqueue d, p =>
    if p.outbound.length < forwardCapacity ∧ p.outboundClosed = false then
      some { p with outbound := p.outbound ++ [d] }
    else none
  | .arrive value, p =>
    if p.inbound.length < inboundCapacity ∧ p.inboundClosed = false then
      some { p with inbound := p.inbound ++ [value] }
    else none
  | .closeOutbound, p => some { p with outboundClosed := true }
  | .closeInbound, p => some { p with inboundClosed := true }
  | .shutdown, p => some { p with shutdown := true }
  | .setChunkSize n, p => some { p with channel := p.channel.setChunkSize n }
  -- the send loop takes the lock of the channel for each call
  | .nextSend now, p =>
    if p.locked = false ∧ p.sendLoopDone = false then
      some { p with channel := (nextSendAction now p.channel).1 }
    else none
  | .resend, p =>
    if p.locked = false ∧ p.sendLoopDone = false then
      some { p with channel := (resendFront p.channel).1 }
    else none
  -- `run_send_loop` returns: the link is marked dead
  | .sendLoopEnds, p =>
    if p.locked = false ∧ p.sendLoopDone = false then
      some { p with
        sendLoopDone := true
        channel := { p.channel with state := { p.channel.state with linkDead := true } } }
    else none
  | .takeOutbound, p => if p.worker = .select then p.takeOutbound else none
  | .takeInbound now, p => if p.worker = .select then p.takeInbound now else none
  | .takeDatagram, p =>
    if p.worker = .select then
      match p.datagramRx with
      | [] => none
      | d :: rest => some { p with datagramRx := rest, worker := .delivering d }
    else none
  | .takeShutdown, p =>
    if p.worker = .select ∧ p.shutdown = true then some p.stop else none
  | .takeJoin, p =>
    if p.worker = .select ∧ p.sendLoopDone = true then
      some { p.stop with stalled := p.stalled + 1 }
    else none
  | .sent now, p =>
    match p.worker with
    | .receiving d => p.sent now d
    | _ => none
  | .delivered, p =>
    match p.worker with
    | .delivering d => some { p with worker := .select, incoming := p.incoming ++ [d] }
    | _ => none
  | .abort, p => some { p with worker := .stopped }

/-- The GATT pipe as a transition system. -/
def system : System Pipe Label where
  Init p := ∃ now, p = start now
  step := step

/-! ## Everything a step can do to the worker -/

/-- What a step is to the worker and its datagram channel. -/
inductive Moves (p : Pipe) : Label → Pipe → Prop where
  /-- The worker does not move; a call it is in the middle of finds what it left. -/
  | beside {l : Label} {p' : Pipe} : p'.worker = p.worker → p'.datagramRx = p.datagramRx →
      (p.locked = true → recvPart p'.channel = recvPart p.channel) → Moves p l p'
  /-- The worker moves, but not in a call. -/
  | outside {l : Label} {p' : Pipe} : (p.locked = true → l = .abort) → p'.locked = false →
      p'.datagramRx.length ≤ p.datagramRx.length → Moves p l p'
  | receive {now : ℕ} {value : Bytes} {rest : List Bytes} : p.worker = .select →
      p.inbound = value :: rest →
      Moves p (.takeInbound now) (p.receive now value rest)
  | sent {now : ℕ} {d : Bytes} : p.worker = .receiving d → p.datagramRx.length < datagramCapacity →
      Moves p (.sent now) (p.goOn now d)

theorem locked_select {p : Pipe} (h : p.worker = .select) : p.locked = false := by
  rw [locked, h]

theorem locked_receiving {p : Pipe} {d : Bytes} (h : p.worker = .receiving d) : p.locked = true := by
  rw [locked, h]

/-- A branch of the `select!` other than the inbound one. -/
theorem Moves.branch {p p' : Pipe} {l : Label} (hw : p.worker = .select) (hp' : p'.locked = false)
    (hrx : p'.datagramRx.length ≤ p.datagramRx.length) : Moves p l p' := by
  apply Moves.outside
  · intro hlocked
    rw [locked_select hw] at hlocked
    cases hlocked
  · exact hp'
  · exact hrx

/-- The send loop, which needs the lock. -/
theorem Moves.unlocked {p p' : Pipe} {l : Label} (h : p.locked = false)
    (hw : p'.worker = p.worker) (hrx : p'.datagramRx = p.datagramRx) : Moves p l p' := by
  refine Moves.beside hw hrx fun hlocked => ?_
  rw [h] at hlocked
  cases hlocked

theorem moves_of_step {p p' : Pipe} {l : Label} (hs : system.step l p = some p') : Moves p l p' := by
  cases l with
  | enqueue d =>
      change (if _ then _ else none) = some p' at hs
      split at hs
      · obtain rfl := Option.some.inj hs
        exact Moves.beside rfl rfl fun _ => rfl
      · cases hs
  | arrive value =>
      change (if _ then _ else none) = some p' at hs
      split at hs
      · obtain rfl := Option.some.inj hs
        exact Moves.beside rfl rfl fun _ => rfl
      · cases hs
  -- closing an end, asking for the end and a new chunk size change nothing here
  | closeOutbound | closeInbound | shutdown | setChunkSize _ =>
      obtain rfl := Option.some.inj hs
      exact Moves.beside rfl rfl fun _ => rfl
  | nextSend now =>
      -- the send loop takes the lock for each of its two calls
      change (if _ ∧ _ then _ else none) = some p' at hs
      split at hs
      · rename_i h
        obtain rfl := Option.some.inj hs
        exact Moves.unlocked h.1 rfl rfl
      · cases hs
  | resend =>
      change (if _ ∧ _ then _ else none) = some p' at hs
      split at hs
      · rename_i h
        obtain rfl := Option.some.inj hs
        exact Moves.unlocked h.1 rfl rfl
      · cases hs
  | sendLoopEnds =>
      change (if _ ∧ _ then _ else none) = some p' at hs
      split at hs
      · rename_i h
        obtain rfl := Option.some.inj hs
        exact Moves.unlocked h.1 rfl rfl
      · cases hs
  | takeOutbound =>
      change (if p.worker = .select then p.takeOutbound else none) = some p' at hs
      split at hs
      · rename_i hw
        unfold Pipe.takeOutbound at hs
        split at hs
        · split at hs
          · obtain rfl := Option.some.inj hs
            exact Moves.branch hw rfl (le_refl _)
          · cases hs
        · obtain rfl := Option.some.inj hs
          exact Moves.unlocked (locked_select hw) rfl rfl
      · cases hs
  | takeInbound now =>
      change (if p.worker = .select then p.takeInbound now else none) = some p' at hs
      split at hs
      · rename_i hw
        unfold Pipe.takeInbound at hs
        split at hs
        · split at hs
          · obtain rfl := Option.some.inj hs
            exact Moves.branch hw rfl (le_refl _)
          · cases hs
        · rename_i value rest hin
          obtain rfl := Option.some.inj hs
          exact Moves.receive hw hin
      · cases hs
  | takeDatagram =>
      change (if p.worker = .select then _ else none) = some p' at hs
      split at hs
      · rename_i hw
        split at hs
        · cases hs
        · rename_i d rest hrx
          obtain rfl := Option.some.inj hs
          exact Moves.branch hw rfl (by rw [hrx]; exact Nat.le_succ _)
      · cases hs
  | takeShutdown =>
      change (if _ ∧ _ then _ else none) = some p' at hs
      split at hs
      · rename_i h
        obtain rfl := Option.some.inj hs
        exact Moves.branch h.1 rfl (le_refl _)
      · cases hs
  | takeJoin =>
      change (if _ ∧ _ then _ else none) = some p' at hs
      split at hs
      · rename_i h
        obtain rfl := Option.some.inj hs
        exact Moves.branch h.1 rfl (le_refl _)
      · cases hs
  | sent now =>
      change (match p.worker with
        | .receiving d => p.sent now d
        | _ => none) = some p' at hs
      split at hs
      · rename_i d hw
        unfold Pipe.sent at hs
        split at hs
        · rename_i hroom
          obtain rfl := Option.some.inj hs
          exact Moves.sent hw hroom
        · cases hs
      · cases hs
  | delivered =>
      change (match p.worker with
        | .delivering d => some { p with worker := .select, incoming := p.incoming ++ [d] }
        | _ => none) = some p' at hs
      split at hs
      · rename_i d hw
        obtain rfl := Option.some.inj hs
        refine Moves.outside (fun hlocked => ?_) rfl (le_refl _)
        rw [locked, hw] at hlocked
        cases hlocked
      · cases hs
  | abort =>
      obtain rfl := Option.some.inj hs
      exact Moves.outside (fun _ => rfl) rfl (le_refl _)

/-! ## Waiting for itself -/

/-- The worker is suspended inside `receive_fragment`, and the channel that it alone empties is
full. -/
def Stuck (p : Pipe) : Prop := p.locked = true ∧ datagramCapacity ≤ p.datagramRx.length

instance (p : Pipe) : Decidable p.Stuck := inferInstanceAs (Decidable (_ ∧ _))

/-- Nothing the pipe does ends the wait: not the send loop, which has no lock, not the `select!`,
which is not reached. -/
theorem stuck_step {p p' : Pipe} {l : Label} (h : p.Stuck) (hs : system.step l p = some p')
    (hl : l ≠ .abort) : p'.Stuck := by
  obtain ⟨hlocked, hfull⟩ := h
  cases moves_of_step hs with
  | beside hw hrx _ =>
      constructor
      · rw [locked, hw]
        exact hlocked
      · rw [hrx]
        exact hfull
  | outside habort _ _ => exact absurd (habort hlocked) hl
  | receive hw _ =>
      rw [locked_select hw] at hlocked
      cases hlocked
  | sent _ hroom => omega

/-- How much the call in progress will have sent when it ends. -/
def outcome (p : Pipe) : List Bytes :=
  match p.worker with
  | .receiving d => total (p.channel, some d)
  | _ => p.channel.datagramTx

/-- Only there it does. -/
theorem receiving_of_locked {p : Pipe} (h : p.locked = true) : ∃ d, p.worker = .receiving d := by
  unfold locked at h
  split at h
  · exact ⟨_, by assumption⟩
  · cases h

/-- Only a worker inside a call has something left to send. -/
theorem locked_of_outcome {p : Pipe} (h : p.channel.datagramTx.length < p.outcome.length) :
    p.locked = true := by
  unfold outcome at h
  unfold locked
  cases hw : p.worker with
  | receiving d => rfl
  | select | delivering _ | stopped =>
      rw [hw] at h
      exact absurd h (lt_irrefl _)

/-- There is room for what the call in progress has still to send. -/
def Roomy (p : Pipe) : Prop :=
  p.locked = true →
    p.outcome.length + p.datagramRx.length ≤ datagramCapacity + p.channel.datagramTx.length

/-- The inbound branch is taken only while the datagram channel has room for every datagram that
the fragment completes. -/
def HasRoom (p : Pipe) : Label → Prop
  | .takeInbound _ => ∀ value ∈ p.inbound.head?,
      p.datagramRx.length + completes value p.channel ≤ datagramCapacity
  | _ => True

instance (p : Pipe) (l : Label) : Decidable (p.HasRoom l) :=
  match l with
  | .takeInbound _ => inferInstanceAs (Decidable (∀ value ∈ p.inbound.head?, _))
  | .enqueue _ | .arrive _ | .closeOutbound | .closeInbound | .shutdown | .setChunkSize _
  | .nextSend _ | .resend | .sendLoopEnds | .takeOutbound | .takeDatagram | .takeShutdown
  | .takeJoin | .sent _ | .delivered | .abort => inferInstanceAs (Decidable True)

/-- A worker with room is not stuck. -/
theorem not_stuck_of_roomy {p : Pipe} (h : p.Roomy) : ¬ p.Stuck := by
  rintro ⟨hlocked, hfull⟩
  have hroom := h hlocked
  unfold locked at hlocked
  unfold outcome at hroom
  split at hlocked
  · rename_i d hw
    rw [hw] at hroom
    have := length_total_some d p.channel
    dsimp only at hroom
    omega
  · cases hlocked

theorem outcome_proceed (r : ReliableChannel × Option Bytes) (p : Pipe) :
    (proceed r p).outcome = total r := by
  obtain ⟨ch, _ | d⟩ := r <;> rfl

theorem outcome_receiving {p : Pipe} {d : Bytes} (h : p.worker = .receiving d) :
    p.outcome = total (p.channel, some d) := by
  rw [outcome, h]

/-- A step that leaves the worker where it is leaves its call as it is. -/
theorem outcome_beside {p p' : Pipe} (hw : p'.worker = p.worker) (hlocked : p.locked = true)
    (hpart : recvPart p'.channel = recvPart p.channel) : p'.outcome = p.outcome := by
  unfold locked at hlocked
  split at hlocked
  · rename_i d hd
    rw [outcome_receiving hd, outcome_receiving (hw.trans hd)]
    exact total_congr hpart d
  · cases hlocked

/-- A fragment that is taken opens a call with as much to send as it completes. -/
theorem length_outcome_receive (now : ℕ) (value : Bytes) (p : Pipe) (rest : List Bytes) :
    (p.receive now value rest).outcome.length =
      (p.receive now value rest).channel.datagramTx.length + completes value p.channel := by
  obtain ⟨htotal, htx⟩ := total_beginReceive now value p.channel
  have hmono := (delivered_mono (asmOf p.channel) (released value p.channel)).length_le
  have hasm : (asmOf p.channel).delivered = p.channel.datagramTx := rfl
  rw [receive, outcome_proceed, htotal]
  change _ = (beginReceive now value p.channel).1.datagramTx.length + _
  rw [htx, completes]
  rw [hasm] at hmono
  omega

/-- A `send` that completes moves one datagram of the call into the channel. -/
theorem outcome_goOn {p : Pipe} {d : Bytes} (now : ℕ) (hw : p.worker = .receiving d) :
    (p.goOn now d).outcome = p.outcome ∧
      (p.goOn now d).datagramRx.length = p.datagramRx.length + 1 ∧
      (p.goOn now d).channel.datagramTx.length = p.channel.datagramTx.length + 1 := by
  refine ⟨?_, ?_, ?_⟩
  · rw [goOn, outcome_proceed, total_resume, outcome_receiving hw]
  · change (p.datagramRx ++ [d]).length = _
    simp
  · change (resume now d p.channel).1.datagramTx.length = _
    rw [resume_datagramTx]
    simp

/-- Taking the inbound branch only with enough room keeps the room. -/
theorem roomy_step {p p' : Pipe} {l : Label} (h : p.Roomy) (hroom : p.HasRoom l)
    (hs : system.step l p = some p') : p'.Roomy := by
  cases moves_of_step hs with
  -- what happens beside the worker leaves what it receives alone
  | beside hw hrx hpart =>
      intro hlocked
      have hlocked' : p.locked = true := by
        rw [locked, hw] at hlocked
        exact hlocked
      have hp := hpart hlocked'
      have htx : p'.channel.datagramTx = p.channel.datagramTx := congrArg RecvPart.datagramTx hp
      rw [outcome_beside hw hlocked' hp, hrx, htx]
      exact h hlocked'
  | outside _ hp' _ =>
      intro hlocked
      rw [hp'] at hlocked
      cases hlocked
  | @receive now value rest hw hin =>
      -- the fragment is counted with all that it completes
      intro _
      have hlen := length_outcome_receive now value p rest
      have hle : p.datagramRx.length + completes value p.channel ≤ datagramCapacity := by
        apply hroom value
        rw [hin]
        rfl
      rw [hlen]
      change _ + p.datagramRx.length ≤ _
      omega
  | @sent now d hw _ =>
      intro _
      obtain ⟨hout, hrx, htx⟩ := outcome_goOn now hw
      have hp := h (locked_receiving hw)
      rw [hout, hrx, htx]
      omega

theorem roomy_start (now : ℕ) : (start now).Roomy := by
  intro hlocked
  cases hlocked

/-- There is room along every run that meets the condition. -/
theorem roomy_run {h : List (Pipe × Label)} {p : Pipe} (hrun : system.Run h p)
    (hroom : System.Meets HasRoom h) : p.Roomy := by
  apply hrun.invariant _ _ hroom
  · rintro s ⟨now, rfl⟩
    exact roomy_start now
  · intro s l s' hI hC hs
    exact roomy_step hI hC hs

/-- The GATT worker does not wait for itself in any state of a run in which every fragment that is
taken finds room for the datagrams it completes. -/
theorem never_waits_for_itself {h : List (Pipe × Label)} {p : Pipe} (hrun : system.Run h p)
    (hroom : System.Meets HasRoom h) : System.Throughout (fun p => ¬ p.Stuck) h p := by
  constructor
  · intro x hx
    obtain ⟨k, hk, hrun'⟩ := hrun.prefix_run x hx
    exact not_stuck_of_roomy (roomy_run hrun' (hroom.mono_prefix hk))
  · exact not_stuck_of_roomy (roomy_run hrun hroom)

theorem init_start (now : ℕ) : system.Init (start now) := ⟨now, rfl⟩

/-- The fragment of a datagram of one byte, with sequence number `i` modulo 16. -/
def oneByte (i : ℕ) : Bytes := [UInt8.ofNat (0x30 + i % 16), 0, 7, 0x5A]

/-- `n` fragments arrive and are taken, each completing a datagram; the datagram branch is not
chosen. -/
def flood : ℕ → List Label
  | 0 => []
  | n + 1 => flood n ++ [.arrive (oneByte n), .takeInbound 0, .sent 0]

/-- Sixty-four datagrams fit; one is delivered before the next fragment is taken. -/
theorem never_waits_for_itself_relayed : ∃ h p, system.Run h p ∧ System.Meets HasRoom h ∧
    h.map Prod.snd = flood 64 ++ [.takeDatagram, .delivered, .arrive (oneByte 64), .takeInbound 0,
      .sent 0] ∧
    p.datagramRx.length = datagramCapacity ∧ System.Throughout (fun p => ¬ p.Stuck) h p := by
  obtain ⟨h, p, hrun, hroom, hlabels, hfull⟩ :=
    System.Run.of_execMeets (C := HasRoom) (P := fun p => p.datagramRx.length = datagramCapacity)
      (flood 64 ++ [.takeDatagram, .delivered, .arrive (oneByte 64), .takeInbound 0, .sent 0])
      (init_start 0) (by decide +kernel)
  exact ⟨h, p, hrun, hroom, hlabels, hfull, never_waits_for_itself hrun hroom⟩

/-- The sixty-fifth fragment is taken instead, and the worker waits for itself. -/
theorem waits_for_itself : ∃ h p, system.Run h p ∧
    h.map Prod.snd = flood 64 ++ [.arrive (oneByte 64), .takeInbound 0] ∧ p.Stuck :=
  System.Run.of_exec (flood 64 ++ [.arrive (oneByte 64), .takeInbound 0]) (init_start 0)
    (by decide +kernel)

/-! ## Too little room -/

/-- The datagram channel never holds more than its capacity. -/
theorem datagramRx_le {h : List (Pipe × Label)} {p : Pipe} (hrun : system.Run h p) :
    p.datagramRx.length ≤ datagramCapacity := by
  induction hrun with
  | init hs =>
      obtain ⟨now, rfl⟩ := hs
      exact Nat.zero_le _
  | step _ hs hle =>
      cases moves_of_step hs with
      | beside _ hrx _ =>
          rw [hrx]
          exact hle
      | outside _ _ hrx => omega
      | receive _ _ => exact hle
      | @sent now d hw hroom =>
          have hrx := (outcome_goOn now hw).2.1
          omega

/-- A call with more to send than there is room for fills the channel, and waits. -/
theorem stuck_of_overfull {n : ℕ} {p : Pipe} (hn : p.datagramRx.length + n = datagramCapacity)
    (hover : datagramCapacity + p.channel.datagramTx.length <
      p.outcome.length + p.datagramRx.length) (now : ℕ) :
    ∃ p', system.exec (List.replicate n (.sent now)) p = some p' ∧ p'.Stuck := by
  induction n generalizing p with
  | zero => exact ⟨p, rfl, locked_of_outcome (by omega), by omega⟩
  | succ n ih =>
      -- one `send` completes; what the call sends in all does not change
      obtain ⟨d, hw⟩ := receiving_of_locked (p := p) (locked_of_outcome (by omega))
      obtain ⟨hout, hrx, htx⟩ := outcome_goOn now hw
      have hstep : system.step (.sent now) p = some (p.goOn now d) := by
        change (match p.worker with
          | .receiving d => p.sent now d
          | _ => none) = _
        rw [hw]
        exact if_pos (by omega)
      have hmore : datagramCapacity + (p.goOn now d).channel.datagramTx.length <
          (p.goOn now d).outcome.length + (p.goOn now d).datagramRx.length := by
        rw [hout]
        omega
      obtain ⟨p', hexec, hstuck⟩ := ih (by omega) hmore
      refine ⟨p', ?_, hstuck⟩
      rw [List.replicate_succ, System.exec, hstep]
      exact hexec

/-- The inbound branch taken with too little room: the worker goes on to wait for itself. -/
theorem comes_to_wait {h : List (Pipe × Label)} {p : Pipe} (hrun : system.Run h p) {now : ℕ}
    (hw : p.worker = .select) (hroom : ¬ p.HasRoom (.takeInbound now)) :
    ∃ n p', system.exec (.takeInbound now :: List.replicate n (.sent now)) p = some p' ∧
      p'.Stuck := by
  have hle := datagramRx_le hrun
  cases hin : p.inbound with
  | nil =>
      -- nothing to take, so there is no fragment to be too much
      exact absurd (fun value hvalue => by rw [hin] at hvalue; cases hvalue) hroom
  | cons value rest =>
      have hmany : datagramCapacity < p.datagramRx.length + completes value p.channel := by
        by_contra hfew
        apply hroom
        intro v hv
        rw [hin] at hv
        obtain rfl : value = v := Option.some.inj hv
        omega
      have hlen := length_outcome_receive now value p rest
      have hstep : system.step (.takeInbound now) p = some (p.receive now value rest) := by
        change (if p.worker = .select then p.takeInbound now else none) = _
        rw [if_pos hw]
        unfold takeInbound
        rw [hin]
      have hrx : (p.receive now value rest).datagramRx.length +
          (datagramCapacity - p.datagramRx.length) = datagramCapacity := by
        change p.datagramRx.length + _ = _
        omega
      have hover : datagramCapacity + (p.receive now value rest).channel.datagramTx.length <
          (p.receive now value rest).outcome.length + (p.receive now value rest).datagramRx.length := by
        rw [hlen]
        change _ < _ + p.datagramRx.length
        omega
      obtain ⟨p', hexec, hstuck⟩ := stuck_of_overfull hrx hover now
      refine ⟨datagramCapacity - p.datagramRx.length, p', ?_, hstuck⟩
      rw [System.exec, hstep]
      exact hexec

end Pipe

end IrohBle.Gatt
