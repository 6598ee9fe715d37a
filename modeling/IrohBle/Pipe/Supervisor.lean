import IrohBle.Registry.Entry

/-! # Pipe.Supervisor: the data pipe and its workers

`transport/pipe.rs`: `run_data_pipe` owns the pipe's channels and up to two workers, one on
GATT and one on L2CAP, and hands outbound datagrams to one of them.

* A worker fails when its link dies; it then reports `Stalled` and returns, which closes its
  forwarding channel. What it does with its datagrams until then (`ReliableChannel`, the
  L2CAP I/O tasks) is left out, and so is what the GATT worker's forwarding channels hold: a
  full one drops the datagram.
* An L2CAP worker whose forwarding channel stays full is torn down and reported as
  `L2capHandoverTimeout`; that is the only report its end leads to.
* The supervisor returns when the registry has dropped the pipe's channels, or after an
  outbound datagram that leaves it without a worker.
* `Sound` is what the steps of one pipe keep: a supervisor that is about to return has a
  worker's report behind it, unless the pipe is one the registry no longer counts on.
-/

namespace IrohBle

open Reliable

/-- The task of a worker. -/
inductive Worker where
  | running
  /-- Its link died, and it is in `registry_tx.send(Stalled)`. -/
  | failing
  | ended
deriving DecidableEq, Repr

/-- Where the supervisor's loop is. -/
inductive Supervisor where
  /-- In its `select!`. -/
  | selecting
  /-- In `send_timeout` to the L2CAP worker. -/
  | offering (send : PendingSend)
  /-- Tearing down the L2CAP worker it took out of its set. -/
  | evicting (worker : Worker) (timedOut : Bool) (send : PendingSend)
  /-- In `registry_tx.send(L2capHandoverTimeout)`. -/
  | reporting (send : PendingSend)
  /-- About to offer the datagram to the GATT worker. -/
  | falling (send : PendingSend)
  /-- In `teardown_worker_set`. -/
  | tearingDown
  | exited
deriving DecidableEq, Repr

/-- A data pipe: its supervisor, its workers, and what their channels hold. -/
structure DataPipe where
  device : DeviceId
  txGen : ℕ
  /-- The path the pipe was started on. -/
  path : ConnectPath
  supervisor : Supervisor := .selecting
  gatt : Option Worker := none
  l2cap : Option Worker := none
  outbound : List PendingSend := []
  inbound : List Bytes := []
  addL2cap : List L2capChannel := []
  /-- The datagrams in the L2CAP worker's forwarding channel. -/
  forwarded : ℕ := 0
  /-- A worker has sent `Stalled`. -/
  reported : Bool := false
deriving DecidableEq

/-- How `send_timeout` ends. -/
inductive Offer where
  | ok
  | timeout
  | closed
deriving DecidableEq, Repr

/-- The steps of the workers and of the supervisor. -/
inductive PipeLabel where
  | gattFails
  | gattReports
  | l2capTakes
  | l2capFails
  | l2capReports
  | recvOutbound
  | offered (result : Offer)
  /-- The worker has ended or was aborted. -/
  | evicted
  | reportTimeout
  | fallBack
  | recvInbound
  | recvL2cap
  /-- A channel of the pipe is closed. -/
  | recvClosed
  | exit
deriving DecidableEq, Repr

namespace DataPipe

/-- A pipe as it is started, with the worker of its path; without a channel the L2CAP path has
none. -/
def start (device : DeviceId) (txGen : ℕ) (path : ConnectPath) (l2cap : Option L2capChannel) :
    DataPipe :=
  match path, l2cap with
  | .gatt, _ => { device, txGen, path, gatt := some .running }
  | .l2cap, some _ => { device, txGen, path, l2cap := some .running }
  | .l2cap, none => { device, txGen, path, supervisor := .exited }

@[simp] theorem start_device (d : DeviceId) (txGen : ℕ) (path : ConnectPath)
    (l2cap : Option L2capChannel) : (start d txGen path l2cap).device = d := by
  cases path <;> cases l2cap <;> rfl

@[simp] theorem start_txGen (d : DeviceId) (txGen : ℕ) (path : ConnectPath)
    (l2cap : Option L2capChannel) : (start d txGen path l2cap).txGen = txGen := by
  cases path <;> cases l2cap <;> rfl

@[simp] theorem start_reported (d : DeviceId) (txGen : ℕ) (path : ConnectPath)
    (l2cap : Option L2capChannel) : (start d txGen path l2cap).reported = false := by
  cases path <;> cases l2cap <;> rfl

/-- The L2CAP worker, in the set or being torn down. -/
def l2capWorker (p : DataPipe) : Option Worker :=
  match p.supervisor with
  | .evicting worker _ _ => some worker
  | _ => p.l2cap

/-- The L2CAP worker changes its state, in the set or while it is torn down. -/
def setL2capWorker (worker : Worker) (p : DataPipe) : DataPipe :=
  match p.supervisor with
  | .evicting _ timedOut send => { p with supervisor := .evicting worker timedOut send }
  | _ => { p with l2cap := some worker }

/-- After an outbound datagram: `break` when no worker is left. -/
def afterOutbound (p : DataPipe) : DataPipe :=
  { p with
    supervisor := if p.gatt.isNone && p.l2cap.isNone then .tearingDown else .selecting }

/-- A `try_send` to the GATT worker that finds its channel closed takes it out of the set. -/
def tryGatt (p : DataPipe) : DataPipe :=
  if p.gatt = some .ended then { p with gatt := none } else p

/-- What `send_timeout` to the L2CAP worker makes of the datagram in hand. -/
def offered (p : DataPipe) (send : PendingSend) (worker : Worker) : Offer → Option DataPipe
  -- there is room in the worker's channel
  | .ok =>
    if worker ≠ .ended ∧ p.forwarded < forwardCapacity then
      some ({ p with forwarded := p.forwarded + 1 } : DataPipe).afterOutbound
    else none
  -- it has stayed full for the whole timeout: the worker is taken down and the handover reported
  | .timeout =>
    if worker ≠ .ended ∧ p.forwarded = forwardCapacity then
      some { p with l2cap := none, supervisor := .evicting worker true send }
    else none
  -- the worker is gone already and has reported by itself
  | .closed =>
    if worker = .ended then some { p with l2cap := none, supervisor := .evicting worker false send }
    else none

/-- One step of the supervisor or of a worker, with the command it sends. `held` says whether
somebody still holds the sending ends of the pipe's channels. -/
def step (held : Bool) (l : PipeLabel) (p : DataPipe) : Option (DataPipe × Option PeerCommand) :=
  match l with
  | .gattFails => if p.gatt = some .running then some ({ p with gatt := some .failing }, none) else none
  | .gattReports =>
    if p.gatt = some .failing then
      some ({ p with gatt := some .ended, reported := true }, some (.stalled p.device .linkDead))
    else none
  | .l2capTakes =>
    if p.l2capWorker = some .running ∧ 0 < p.forwarded then
      some ({ p with forwarded := p.forwarded - 1 }, none)
    else none
  | .l2capFails =>
    if p.l2capWorker = some .running then some (p.setL2capWorker .failing, none) else none
  | .l2capReports =>
    if p.l2capWorker = some .failing then
      some ({ p.setL2capWorker .ended with reported := true }, some (.stalled p.device .linkDead))
    else none
  | .recvOutbound =>
    match p.supervisor, p.outbound with
    | .selecting, send :: outbound =>
      let next := if p.l2cap.isSome then .offering send else .falling send
      some ({ p with outbound, supervisor := next }, none)
    | _, _ => none
  | .offered result =>
    match p.supervisor, p.l2cap with
    | .offering send, some worker => (p.offered send worker result).map fun p => (p, none)
    | _, _ => none
  | .evicted =>
    match p.supervisor with
    | .evicting _ timedOut send =>
      some ({ p with supervisor := if timedOut then .reporting send else .falling send }, none)
    | _ => none
  | .reportTimeout =>
    match p.supervisor with
    | .reporting send =>
      some ({ p with supervisor := .falling send }, some (.l2capHandoverTimeout p.device))
    | _ => none
  | .fallBack =>
    match p.supervisor with
    | .falling _ => some (p.tryGatt.afterOutbound, none)
    | _ => none
  | .recvInbound =>
    match p.supervisor, p.inbound with
    | .selecting, _ :: inbound => some (({ p with inbound } : DataPipe).tryGatt, none)
    | _, _ => none
  | .recvL2cap =>
    match p.supervisor, p.addL2cap with
    | .selecting, _ :: addL2cap =>
      -- a redundant channel is ignored
      if p.l2cap.isSome then some ({ p with addL2cap }, none)
      else some ({ p with addL2cap, l2cap := some .running, forwarded := 0 }, none)
    | _, _ => none
  | .recvClosed =>
    if p.supervisor = .selecting ∧ held = false ∧ (p.outbound = [] ∨ p.inbound = []) then
      some ({ p with supervisor := .tearingDown }, none)
    else none
  | .exit =>
    if p.supervisor = .tearingDown then
      some ({ p with
        supervisor := .exited, gatt := none, l2cap := none, outbound := [], inbound := [],
        addL2cap := [] }, none)
    else none

/-! ## What a step can do -/

/-- The moves of a pipe, one constructor for each. -/
inductive Move (held : Bool) (p : DataPipe) : PipeLabel → DataPipe → Option PeerCommand → Prop where
  | gattFails (h : p.gatt = some .running) :
      Move held p .gattFails { p with gatt := some .failing } none
  | gattReports (h : p.gatt = some .failing) :
      Move held p .gattReports { p with gatt := some .ended, reported := true }
        (some (.stalled p.device .linkDead))
  | l2capTakes : Move held p .l2capTakes { p with forwarded := p.forwarded - 1 } none
  | l2capFails (h : p.l2capWorker = some .running) :
      Move held p .l2capFails (p.setL2capWorker .failing) none
  | l2capReports (h : p.l2capWorker = some .failing) :
      Move held p .l2capReports { p.setL2capWorker .ended with reported := true }
        (some (.stalled p.device .linkDead))
  | recvOutbound {send : PendingSend} {outbound : List PendingSend} {next : Supervisor}
      (h : p.supervisor = .selecting) (hnext : next = .offering send ∨ next = .falling send) :
      Move held p .recvOutbound { p with outbound, supervisor := next } none
  | accepted {send : PendingSend} {worker : Worker} (h : p.supervisor = .offering send)
      (hw : p.l2cap = some worker) :
      Move held p (.offered .ok) ({ p with forwarded := p.forwarded + 1 } : DataPipe).afterOutbound
        none
  | timedOut {send : PendingSend} {worker : Worker} (h : p.supervisor = .offering send)
      (hw : p.l2cap = some worker) :
      Move held p (.offered .timeout)
        { p with l2cap := none, supervisor := .evicting worker true send } none
  | foundClosed {send : PendingSend} (h : p.supervisor = .offering send)
      (hw : p.l2cap = some .ended) :
      Move held p (.offered .closed)
        { p with l2cap := none, supervisor := .evicting .ended false send } none
  | evicted {worker : Worker} {timedOut : Bool} {send : PendingSend} {next : Supervisor}
      (h : p.supervisor = .evicting worker timedOut send)
      (hnext : next = .reporting send ∨ next = .falling send) :
      Move held p .evicted { p with supervisor := next } none
  | reportTimeout {send : PendingSend} (h : p.supervisor = .reporting send) :
      Move held p .reportTimeout { p with supervisor := .falling send }
        (some (.l2capHandoverTimeout p.device))
  | fallBack {send : PendingSend} (h : p.supervisor = .falling send) :
      Move held p .fallBack p.tryGatt.afterOutbound none
  | recvInbound {inbound : List Bytes} (h : p.supervisor = .selecting) :
      Move held p .recvInbound ({ p with inbound } : DataPipe).tryGatt none
  | ignoreL2cap {addL2cap : List L2capChannel} (h : p.supervisor = .selecting) :
      Move held p .recvL2cap { p with addL2cap } none
  | addWorker {addL2cap : List L2capChannel} (h : p.supervisor = .selecting) :
      Move held p .recvL2cap { p with addL2cap, l2cap := some .running, forwarded := 0 } none
  | recvClosed (h : p.supervisor = .selecting) (hh : held = false) :
      Move held p .recvClosed { p with supervisor := .tearingDown } none
  | exit (h : p.supervisor = .tearingDown) :
      Move held p .exit { p with
        supervisor := .exited, gatt := none, l2cap := none, outbound := [], inbound := [],
        addL2cap := [] } none

theorem step_move {held : Bool} {l : PipeLabel} {p p' : DataPipe} {cmd : Option PeerCommand}
    (hs : p.step held l = some (p', cmd)) : Move held p l p' cmd := by
  cases l with
  | gattFails =>
      simp only [step] at hs
      split at hs
      · rename_i h
        cases hs
        exact .gattFails h
      · cases hs
  | gattReports =>
      simp only [step] at hs
      split at hs
      · rename_i h
        cases hs
        exact .gattReports h
      · cases hs
  | l2capTakes =>
      simp only [step] at hs
      split at hs
      · cases hs
        exact .l2capTakes
      · cases hs
  | l2capFails =>
      simp only [step] at hs
      split at hs
      · rename_i h
        cases hs
        exact .l2capFails h
      · cases hs
  | l2capReports =>
      simp only [step] at hs
      split at hs
      · rename_i h
        cases hs
        exact .l2capReports h
      · cases hs
  | recvOutbound =>
      simp only [step] at hs
      split at hs
      · rename_i send outbound h ho
        cases hs
        apply @Move.recvOutbound _ _ send _ _ h
        split
        · exact .inl rfl
        · exact .inr rfl
      · cases hs
  | offered result =>
      simp only [step] at hs
      split at hs
      · rename_i send worker h hw
        rcases Option.map_eq_some_iff.mp hs with ⟨q, hq, heq⟩
        cases heq
        cases result <;> simp only [DataPipe.offered] at hq <;> split at hq <;> cases hq
        · exact .accepted h hw
        · exact .timedOut h hw
        · rename_i hend
          rw [hend] at hw ⊢
          exact .foundClosed h hw
      · cases hs
  | evicted =>
      simp only [step] at hs
      split at hs
      · rename_i worker timedOut send h
        cases hs
        refine .evicted h ?_
        split
        · exact .inl rfl
        · exact .inr rfl
      · cases hs
  | reportTimeout =>
      simp only [step] at hs
      split at hs
      · rename_i send h
        cases hs
        exact .reportTimeout h
      · cases hs
  | fallBack =>
      simp only [step] at hs
      split at hs
      · rename_i send h
        cases hs
        exact .fallBack h
      · cases hs
  | recvInbound =>
      simp only [step] at hs
      split at hs
      · rename_i bytes inbound h hi
        cases hs
        exact .recvInbound h
      · cases hs
  | recvL2cap =>
      simp only [step] at hs
      split at hs
      · rename_i channel addL2cap h ha
        split at hs
        · cases hs
          exact .ignoreL2cap h
        · cases hs
          exact .addWorker h
      · cases hs
  | recvClosed =>
      simp only [step] at hs
      split at hs
      · rename_i h
        cases hs
        exact .recvClosed h.1 h.2.1
      · cases hs
  | exit =>
      simp only [step] at hs
      split at hs
      · rename_i h
        cases hs
        exact .exit h
      · cases hs

/-! ## What the steps keep -/

@[simp] theorem setL2capWorker_gatt (p : DataPipe) (worker : Worker) :
    (p.setL2capWorker worker).gatt = p.gatt := by
  unfold setL2capWorker
  split <;> rfl

@[simp] theorem setL2capWorker_reported (p : DataPipe) (worker : Worker) :
    (p.setL2capWorker worker).reported = p.reported := by
  unfold setL2capWorker
  split <;> rfl

@[simp] theorem tryGatt_reported (p : DataPipe) : p.tryGatt.reported = p.reported := by
  unfold tryGatt
  split <;> rfl

@[simp] theorem tryGatt_l2cap (p : DataPipe) : p.tryGatt.l2cap = p.l2cap := by
  unfold tryGatt
  split <;> rfl

@[simp] theorem tryGatt_supervisor (p : DataPipe) : p.tryGatt.supervisor = p.supervisor := by
  unfold tryGatt
  split <;> rfl

/-- Device, generation and path stay what they were. -/
structure SamePipe (p p' : DataPipe) : Prop where
  device : p'.device = p.device
  txGen : p'.txGen = p.txGen
  path : p'.path = p.path

theorem samePipe_setL2capWorker (p : DataPipe) (worker : Worker) :
    SamePipe p (p.setL2capWorker worker) := by
  unfold setL2capWorker
  split <;> exact ⟨rfl, rfl, rfl⟩

theorem samePipe_tryGatt (p : DataPipe) : SamePipe p p.tryGatt := by
  unfold tryGatt
  split <;> exact ⟨rfl, rfl, rfl⟩

variable {held : Bool} {l : PipeLabel} {p p' : DataPipe} {cmd : Option PeerCommand}

/-- No move changes device, generation or path. -/
theorem Move.samePipe (h : Move held p l p' cmd) : SamePipe p p' := by
  cases h with
  | l2capFails h => exact samePipe_setL2capWorker p .failing
  | l2capReports h =>
      have hset := samePipe_setL2capWorker p .ended
      exact ⟨hset.device, hset.txGen, hset.path⟩
  | fallBack h =>
      have htry := samePipe_tryGatt p
      exact ⟨htry.device, htry.txGen, htry.path⟩
  | @recvInbound inbound h =>
      have htry := samePipe_tryGatt ({ p with inbound } : DataPipe)
      exact ⟨htry.device, htry.txGen, htry.path⟩
  | _ => exact ⟨rfl, rfl, rfl⟩

/-- A supervisor that has returned stays so. -/
theorem Move.exited (h : Move held p l p' cmd) (he : p.supervisor = .exited) :
    p'.supervisor = .exited := by
  cases h with
  | gattFails h => exact he
  | gattReports h => exact he
  | l2capTakes => exact he
  | l2capFails h => simp [setL2capWorker, he]
  | l2capReports h => simp [setL2capWorker, he]
  | exit h => rfl
  | recvOutbound h => simp [he] at h
  | accepted h => simp [he] at h
  | timedOut h => simp [he] at h
  | foundClosed h => simp [he] at h
  | evicted h => simp [he] at h
  | reportTimeout h => simp [he] at h
  | fallBack h => simp [he] at h
  | recvInbound h => simp [he] at h
  | ignoreL2cap h => simp [he] at h
  | addWorker h => simp [he] at h
  | recvClosed h => simp [he] at h

/-- Whoever reports has sent `Stalled`. -/
theorem Move.reported (h : Move held p l p' cmd) (hr : p'.reported = true) :
    p.reported = true ∨ cmd = some (.stalled p.device .linkDead) := by
  cases h with
  | gattReports h => exact .inr rfl
  | l2capReports h => exact .inr rfl
  | l2capFails h =>
      rw [setL2capWorker_reported] at hr
      exact .inl hr
  | fallBack h =>
      change p.tryGatt.reported = true at hr
      rw [tryGatt_reported] at hr
      exact .inl hr
  | recvInbound h =>
      rw [tryGatt_reported] at hr
      exact .inl hr
  | _ => exact .inl hr

/-- What a pipe sends is about its device. -/
theorem Move.cmd_cases (h : Move held p l p' cmd) {c : PeerCommand} (hc : cmd = some c) :
    c = .stalled p.device .linkDead ∨ c = .l2capHandoverTimeout p.device := by
  subst hc
  cases h with
  | gattReports h => exact .inl rfl
  | l2capReports h => exact .inl rfl
  | reportTimeout h => exact .inr rfl

/-- Only a worker's report is a `Stalled`. -/
theorem Move.stalled (h : Move held p l p' cmd) {d : DeviceId} {cause : StallCause}
    (hc : cmd = some (.stalled d cause)) :
    (l = .gattReports ∨ l = .l2capReports) ∧ d = p.device := by
  subst hc
  cases h with
  | gattReports h => exact ⟨.inl rfl, rfl⟩
  | l2capReports h => exact ⟨.inr rfl, rfl⟩

/-- Every worker that is gone has reported, except for a pipe that is `out`. -/
structure Sound (out : Prop) (p : DataPipe) : Prop where
  gatt : p.gatt = some .ended → p.reported = true
  l2cap : p.l2cap = some .ended → p.reported = true
  evicting : ∀ worker send, p.supervisor = .evicting worker false send → p.reported = true
  noGatt : p.path = .gatt → p.gatt = none → p.reported = true ∨ out
  noL2cap : p.path = .l2cap → p.l2cap = none → p.reported = true ∨ out
  returning : p.supervisor = .tearingDown ∨ p.supervisor = .exited → p.reported = true ∨ out

/-- A pipe that is sound stays so where the registry counts on less. -/
theorem Sound.mono {out out' : Prop} (h : Sound out p) (hout : out → out') : Sound out' p where
  gatt := h.gatt
  l2cap := h.l2cap
  evicting := h.evicting
  noGatt hp hg := (h.noGatt hp hg).imp_right hout
  noL2cap hp hl := (h.noL2cap hp hl).imp_right hout
  returning hr := (h.returning hr).imp_right hout

/-- A pipe that has reported is sound. -/
theorem Sound.of_reported {out : Prop} (h : p.reported = true) : Sound out p where
  gatt _ := h
  l2cap _ := h
  evicting _ _ _ := h
  noGatt _ _ := .inl h
  noL2cap _ _ := .inl h
  returning _ := .inl h

theorem sound_start {out : Prop} (device : DeviceId) (txGen : ℕ) {path : ConnectPath}
    {l2cap : Option L2capChannel} (h : path = .l2cap → l2cap.isSome = true) :
    Sound out (start device txGen path l2cap) := by
  cases path with
  | gatt => constructor <;> simp [start]
  | l2cap =>
      cases l2cap with
      | none => cases h rfl
      | some channel => constructor <;> simp [start]

/-- No worker is left. -/
theorem Sound.no_worker {out : Prop} (h : Sound out p) (hg : p.gatt = none) (hl : p.l2cap = none) :
    p.reported = true ∨ out := by
  cases hp : p.path with
  | gatt => exact h.noGatt hp hg
  | l2cap => exact h.noL2cap hp hl

/-- A pipe is sound after an outbound datagram: without a worker it has been torn down. -/
theorem Sound.afterOutbound {out : Prop} (h : Sound out p) : Sound out p.afterOutbound where
  gatt := h.gatt
  l2cap := h.l2cap
  evicting worker send hs := by
    change (if _ then Supervisor.tearingDown else .selecting) = _ at hs
    split at hs <;> cases hs
  noGatt := h.noGatt
  noL2cap := h.noL2cap
  returning hs := by
    change (if _ then Supervisor.tearingDown else .selecting) = _ ∨
      (if _ then Supervisor.tearingDown else .selecting) = _ at hs
    split at hs
    · rename_i hnone
      simp only [Bool.and_eq_true, Option.isNone_iff_eq_none] at hnone
      exact h.no_worker hnone.1 hnone.2
    · rcases hs with hs | hs <;> cases hs

theorem Sound.tryGatt {out : Prop} (h : Sound out p) : Sound out p.tryGatt := by
  unfold DataPipe.tryGatt
  split
  · rename_i hend
    exact .of_reported (h.gatt hend)
  · exact h

theorem Sound.setSupervisor {out : Prop} (h : Sound out p) {next : Supervisor}
    (he : ∀ worker send, next ≠ .evicting worker false send)
    (hr : next = .tearingDown ∨ next = .exited → out) : Sound out { p with supervisor := next } where
  gatt := h.gatt
  l2cap := h.l2cap
  evicting worker send hs := absurd hs (he worker send)
  noGatt := h.noGatt
  noL2cap := h.noL2cap
  returning hs := .inr (hr hs)

/-- A worker that is not `ended` replaces another one. -/
theorem Sound.setL2capWorker {out : Prop} (h : Sound out p) {worker : Worker}
    (hw : worker ≠ .ended) : Sound out (p.setL2capWorker worker) := by
  unfold DataPipe.setL2capWorker
  split
  · rename_i w timedOut send hs
    refine ⟨h.gatt, h.l2cap, fun w' send' he => ?_, h.noGatt, h.noL2cap, fun hr => ?_⟩
    · cases he
      exact h.evicting w send hs
    · rcases hr with hr | hr <;> cases hr
  · refine ⟨h.gatt, fun he => ?_, h.evicting, h.noGatt, fun _ hn => ?_, h.returning⟩
    · exact absurd (Option.some.inj he) hw
    · cases hn

/-- Only what the pipe's channels hold differs. -/
structure Refilled (p p' : DataPipe) : Prop extends SamePipe p p' where
  supervisor : p'.supervisor = p.supervisor
  gatt : p'.gatt = p.gatt
  l2cap : p'.l2cap = p.l2cap
  reported : p'.reported = p.reported

theorem Refilled.refl (p : DataPipe) : Refilled p p := ⟨⟨rfl, rfl, rfl⟩, rfl, rfl, rfl, rfl⟩

/-- Fillings compose. -/
theorem Refilled.trans {p₁ : DataPipe} (h₁ : Refilled p p₁) (h₂ : Refilled p₁ p') : Refilled p p' where
  device := h₂.device.trans h₁.device
  txGen := h₂.txGen.trans h₁.txGen
  path := h₂.path.trans h₁.path
  supervisor := h₂.supervisor.trans h₁.supervisor
  gatt := h₂.gatt.trans h₁.gatt
  l2cap := h₂.l2cap.trans h₁.l2cap
  reported := h₂.reported.trans h₁.reported

/-- Filling the channels of a pipe keeps it sound. -/
theorem Sound.refilled {out : Prop} (hs : Sound out p) (h : Refilled p p') : Sound out p' where
  gatt := by
    rw [h.gatt, h.reported]
    exact hs.gatt
  l2cap := by
    rw [h.l2cap, h.reported]
    exact hs.l2cap
  evicting := by
    rw [h.supervisor, h.reported]
    exact hs.evicting
  noGatt := by
    rw [h.path, h.gatt, h.reported]
    exact hs.noGatt
  noL2cap := by
    rw [h.path, h.l2cap, h.reported]
    exact hs.noL2cap
  returning := by
    rw [h.supervisor, h.reported]
    exact hs.returning

/-- The steps of a pipe keep it sound. A worker that is evicted on time leaves the pipe with
no report to come if there is no GATT worker; the channels of a pipe are closed only once
nobody holds them. -/
theorem Move.sound {out : Prop} (h : Move held p l p' cmd) (hsound : Sound out p)
    (htimeout : l = .offered .timeout → p.path = .gatt ∨ out)
    (hclosed : p.supervisor = .selecting → held = false → out) :
    Sound out p' := by
  cases h with
  -- the worker is still to report
  | gattFails h =>
      refine ⟨fun he => ?_, hsound.l2cap, hsound.evicting, fun _ hn => ?_, hsound.noL2cap,
        hsound.returning⟩
      · cases he
      · cases hn
  | gattReports h => exact .of_reported rfl
  -- what L2CAP takes off its channel concerns nobody else
  | l2capTakes => exact hsound.refilled ⟨⟨rfl, rfl, rfl⟩, rfl, rfl, rfl, rfl⟩
  | l2capFails h => exact hsound.setL2capWorker (by simp)
  | l2capReports h => exact .of_reported rfl
  | recvOutbound h hnext =>
      rcases hnext with rfl | rfl
      · exact ⟨hsound.gatt, hsound.l2cap, nofun, hsound.noGatt, hsound.noL2cap, by simp⟩
      · exact ⟨hsound.gatt, hsound.l2cap, nofun, hsound.noGatt, hsound.noL2cap, by simp⟩
  | accepted h hw =>
      exact Sound.afterOutbound (hsound.refilled ⟨⟨rfl, rfl, rfl⟩, rfl, rfl, rfl, rfl⟩)
  -- the one end of a worker that is reported as a handover only
  | timedOut h hw =>
      refine ⟨hsound.gatt, nofun, nofun, hsound.noGatt, fun hp _ => ?_, by simp⟩
      rcases htimeout rfl with hg | ho
      · rw [show p.path = .l2cap from hp] at hg
        cases hg
      · exact .inr ho
  | foundClosed h hw => exact .of_reported (hsound.l2cap hw)
  | evicted h hnext =>
      refine hsound.setSupervisor ?_ ?_ <;> rcases hnext with rfl | rfl <;> simp
  | reportTimeout h => exact hsound.setSupervisor (by simp) (by simp)
  | fallBack h => exact hsound.tryGatt.afterOutbound
  | recvInbound h => exact Sound.tryGatt (hsound.refilled ⟨⟨rfl, rfl, rfl⟩, rfl, rfl, rfl, rfl⟩)
  | ignoreL2cap h => exact hsound.refilled ⟨⟨rfl, rfl, rfl⟩, rfl, rfl, rfl, rfl⟩
  | addWorker h =>
      exact ⟨hsound.gatt, nofun, hsound.evicting, hsound.noGatt, nofun, hsound.returning⟩
  | recvClosed h hh => exact hsound.setSupervisor (by simp) fun _ => hclosed h hh
  | exit h =>
      have hr := hsound.returning (.inl h)
      exact ⟨nofun, nofun, nofun, fun _ _ => hr, fun _ _ => hr, fun _ => hr⟩

end DataPipe

end IrohBle
