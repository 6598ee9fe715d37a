import IrohBle.Peer

/-! # Routing.Table: the routing table

`transport/routing.rs`: pipes under their stable ids, tombstones of evicted pipes, scan
hints, the pending and the routable pool, outbound reservations and the wakers of parked
resolvers.

* Every operation takes the table's lock once and is one step here. `now` is the clock
  reading it takes.
* Stable ids are natural numbers: the source mints them from a `u64` counter that a
  session does not exhaust.
* A wake is recorded in `woken`, in order.
-/

namespace IrohBle

open Lib Reliable

/-- The handle iroh sees for a pipe. -/
structure StableConnId where
  raw : ℕ
deriving DecidableEq, Repr

/-- Outbound pipes are those this side dialled. -/
inductive Direction where
  | outbound
  | inbound
deriving DecidableEq, Repr

def directionForRole : ConnectRole → Direction
  | .central => .outbound
  | .peripheral => .inbound

/-- Who dialled the link, in terms that both ends agree on. -/
inductive Dialer where
  | low
  | high
deriving DecidableEq, Repr

/-- Which of the two endpoints dialled the pipe. Both sides compute the same answer. -/
def Dialer.compute (self remote : EndpointId) (direction : Direction) : Dialer :=
  match decide (self.bytes < remote.bytes), direction with
  | true, .outbound => .low
  | true, .inbound => .high
  | false, .outbound => .high
  | false, .inbound => .low

/-- A live pipe. -/
structure Pipe where
  id : StableConnId
  deviceId : DeviceId
  direction : Direction
  createdAt : ℕ
deriving DecidableEq, Repr

/-- A pipe whose peer is not authenticated yet. -/
structure Pending where
  pipe : StableConnId
  targetEndpoint : Option EndpointId
  createdAt : ℕ
deriving DecidableEq

/-- A pipe bound to an authenticated endpoint. -/
structure Routable where
  pipe : StableConnId
  endpointId : EndpointId
  dialer : Dialer
  verifiedAt : ℕ
deriving DecidableEq

/-- What is remembered of an evicted pipe, so that a late transmit to it is dropped quietly. -/
structure PipeTombstone where
  deviceId : DeviceId
  direction : Direction
  pipeLifetime : ℕ
  evictedAt : ℕ
  droppedTransmits : ℕ
deriving DecidableEq, Repr

/-- A stable id promised to iroh for a pipe that does not exist yet. -/
structure Reservation where
  stableId : StableConnId
  endpointId : EndpointId
  reservedAt : ℕ
deriving DecidableEq

/-- A transmit to a pipe that was evicted lately. -/
structure TombstonedTransmit where
  tombstone : PipeTombstone
  droppedCount : ℕ
deriving DecidableEq, Repr

/-- What a scan changed. The pump forgets the device that was `replaced` and drops the scan if the
prefix is `activelyBound`. -/
inductive ScanHintUpdate where
  | new
  | unchanged
  | replaced (previous : DeviceId)
  | activelyBound (bound : DeviceId)
deriving DecidableEq, Repr

/-- Tombstones go when they expire, the oldest first when there are too many. -/
def pipeTombstoneTtl : ℕ := secs 30
def maxPipeTombstones : ℕ := 128

/-- `Routing` with its `RoutingInner`. -/
structure Routing where
  nextId : ℕ := 0
  pipes : Map StableConnId Pipe := ∅
  pipeTombstones : Map StableConnId PipeTombstone := ∅
  scanHint : Map KeyPrefix DeviceId := ∅
  pending : Map StableConnId Pending := ∅
  routable : Map EndpointId Routable := ∅
  reservations : Map KeyPrefix Reservation := ∅
  reservedStableIds : Map StableConnId KeyPrefix := ∅
  endpointWakers : Map EndpointId (List Waker) := ∅
  woken : List Waker := []

namespace Routing

/-! ## Wakers -/

/-- Parks a resolver, once. -/
def registerEndpointWaker (endpoint : EndpointId) (waker : Waker) (r : Routing) : Routing :=
  let list := (r.endpointWakers.lookup endpoint).getD []
  { r with endpointWakers :=
      r.endpointWakers.insert endpoint (if waker ∈ list then list else list ++ [waker]) }

/-- Wakes every resolver parked on the endpoint and forgets them. -/
def wakeEndpointWaiters (endpoint : EndpointId) (r : Routing) : Routing :=
  { r with
    endpointWakers := r.endpointWakers.erase endpoint
    woken := r.woken ++ (r.endpointWakers.lookup endpoint).getD [] }

def wakeEndpointWaitersForPrefix (keyPrefix : KeyPrefix) (r : Routing) : Routing :=
  (r.endpointWakers.keys.filter fun e => prefixFromEndpoint e == keyPrefix).foldl
    (fun r e => r.wakeEndpointWaiters e) r

/-- Wake the waiters of an endpoint, if there is one to wake for. -/
def wakeFor (endpoint : Option EndpointId) (r : Routing) : Routing :=
  match endpoint with
  | some e => r.wakeEndpointWaiters e
  | none => r

/-! ## Pipes -/

/-- Run by every operation that opens or closes a pipe or looks at a tombstone. -/
def prunePipeTombstones (now : ℕ) (r : Routing) : Routing :=
  let unexpired := r.pipeTombstones.retain fun _ t => decide (now - t.evictedAt ≤ pipeTombstoneTtl)
  { r with pipeTombstones := unexpired.keepNewest PipeTombstone.evictedAt maxPipeTombstones }

/-- A pipe for which nothing was reserved gets the next id. -/
def registerPipe (now : ℕ) (device : DeviceId) (direction : Direction) (r : Routing) :
    Routing × StableConnId :=
  let id : StableConnId := ⟨r.nextId + 1⟩
  let r := r.prunePipeTombstones now
  ({ r with nextId := r.nextId + 1, pipes := r.pipes.insert id ⟨id, device, direction, now⟩ }, id)

/-- The assertion that the id is not live is part of `debug_assert!` and left out. -/
def registerPipeWithId (now : ℕ) (id : StableConnId) (device : DeviceId) (direction : Direction)
    (r : Routing) : Routing :=
  let r := r.prunePipeTombstones now
  { r with
    pipeTombstones := r.pipeTombstones.erase id
    pipes := r.pipes.insert id ⟨id, device, direction, now⟩ }

/-- The last step of a pipe's exit. Its id stays known for a while as a tombstone. -/
def evictPipe (now : ℕ) (id : StableConnId) (r : Routing) : Routing :=
  match r.pipes.lookup id with
  | none => r
  | some pipe =>
    let r := ({ r with pipes := r.pipes.erase id } : Routing).prunePipeTombstones now
    let tombstone := ⟨pipe.deviceId, pipe.direction, now - pipe.createdAt, now, 0⟩
    { r with pipeTombstones := r.pipeTombstones.insert id tombstone }

/-- The device at the other end. -/
def deviceForPipe (id : StableConnId) (r : Routing) : Option DeviceId :=
  (r.pipes.lookup id).map Pipe.deviceId

/-- Counts a transmit to an evicted pipe, and gives none if the id is unknown. -/
def noteTombstonedTransmit (now : ℕ) (id : StableConnId) (r : Routing) :
    Routing × Option TombstonedTransmit :=
  let r := r.prunePipeTombstones now
  match r.pipeTombstones.lookup id with
  | none => (r, none)
  | some tombstone =>
    let counted := { tombstone with droppedTransmits := tombstone.droppedTransmits + 1 }
    ({ r with pipeTombstones := r.pipeTombstones.replace id counted },
      some ⟨counted, counted.droppedTransmits⟩)

/-! ## Scan hints -/

/-- The device of the routable pipe whose endpoint has this prefix. -/
def boundDevice (keyPrefix : KeyPrefix) (r : Routing) : Option DeviceId :=
  (r.routable.values.find? fun x => prefixFromEndpoint x.endpointId == keyPrefix).bind
    fun x => r.deviceForPipe x.pipe

/-- A prefix was seen under a device id. While a routable pipe binds the prefix to another device
the scan is ignored. -/
def noteScanHint (keyPrefix : KeyPrefix) (device : DeviceId) (r : Routing) :
    Routing × ScanHintUpdate :=
  let note : Routing × ScanHintUpdate :=
    let hinted := { r with scanHint := r.scanHint.insert keyPrefix device }
    match r.scanHint.lookup keyPrefix with
    | none => (hinted.wakeEndpointWaitersForPrefix keyPrefix, .new)
    | some previous =>
      if previous = device then (hinted, .unchanged)
      else (hinted.wakeEndpointWaitersForPrefix keyPrefix, .replaced previous)
  -- a routable pipe of the prefix wins over a scan
  match r.boundDevice keyPrefix with
  | some bound => if bound ≠ device then (r, .activelyBound bound) else note
  | none => note

/-- The device id that the prefix was last seen under. -/
def scanHintForPrefix (keyPrefix : KeyPrefix) (r : Routing) : Option DeviceId :=
  r.scanHint.lookup keyPrefix

/-- The first prefix in the map's order that is hinted at the device. -/
def prefixForDevice (device : DeviceId) (r : Routing) : Option KeyPrefix :=
  r.scanHint.findKey? fun _ d => d == device

/-! ## Pools -/

/-- The pipe waits for its handshake. -/
def registerPending (now : ℕ) (pipe : StableConnId) (target : Option EndpointId) (r : Routing) :
    Routing :=
  ({ r with pending := r.pending.insert pipe ⟨pipe, target, now⟩ } : Routing).wakeFor target

/-- Takes the endpoint out of the routable pool only if it is still on this pipe. -/
def evictRoutableIfPipe (endpoint : EndpointId) (pipe : StableConnId) (r : Routing) :
    Routing × Option Routable :=
  match r.routable.lookup endpoint with
  | some current =>
    if current.pipe = pipe then
      (({ r with routable := r.routable.erase endpoint } : Routing).wakeEndpointWaiters endpoint,
        some current)
    else (r, none)
  | none => (r, none)

/-- The endpoint of the first routable entry found for a pipe. -/
def routableEndpoint (pipe : StableConnId) (r : Routing) : Option EndpointId :=
  r.routable.findKey? fun _ x => x.pipe == pipe

/-- Remove the first routable entry found for a pipe. -/
def evictRoutableOf (pipe : StableConnId) (r : Routing) : Routing :=
  match r.routableEndpoint pipe with
  | some endpoint => { r with routable := r.routable.erase endpoint }
  | none => r

/-- The first step of a pipe's exit: it leaves the pending pool, and the routable entry that was
found on it goes. -/
def evictPipeState (pipe : StableConnId) (r : Routing) : Routing × Bool :=
  let endpoint := r.routableEndpoint pipe
  let removed := r.pending.lookup pipe
  let evicted := ({ r with pending := r.pending.erase pipe } : Routing).evictRoutableOf pipe
  ((evicted.wakeFor (removed.bind Pending.targetEndpoint)).wakeFor endpoint,
    removed.isSome || endpoint.isSome)

/-- The pipe that carries the endpoint. -/
def routablePipeFor (endpoint : EndpointId) (r : Routing) : Option StableConnId :=
  (r.routable.lookup endpoint).map Routable.pipe

/-- A pipe that was opened for the endpoint and has not authenticated. -/
def pendingPipeFor (endpoint : EndpointId) (r : Routing) : Option StableConnId :=
  (r.pending.values.find? fun p => p.targetEndpoint == some endpoint).map Pending.pipe

/-! ## Reservations -/

/-- The id that iroh is told before the pipe exists. A prefix has one reservation at a time. -/
def reserveOutbound (now : ℕ) (endpoint : EndpointId) (r : Routing) : Routing × StableConnId :=
  let keyPrefix := prefixFromEndpoint endpoint
  let r := r.prunePipeTombstones now
  match r.reservations.lookup keyPrefix with
  -- `existing` is returned, whoever it was made for
  | some existing => (r, existing.stableId)
  | none =>
    let id : StableConnId := ⟨r.nextId + 1⟩
    ({ r with
        nextId := r.nextId + 1
        reservations := r.reservations.insert keyPrefix ⟨id, endpoint, now⟩
        reservedStableIds := r.reservedStableIds.insert id keyPrefix }, id)

/-- The endpoint and the prefix that an id is reserved for. -/
def reservationTarget (id : StableConnId) (r : Routing) : Option (EndpointId × KeyPrefix) :=
  match r.reservedStableIds.lookup id with
  | none => none
  | some keyPrefix =>
    (r.reservations.lookup keyPrefix).map fun reservation => (reservation.endpointId, keyPrefix)

/-- The reservation is handed over, and both tables forget it. -/
def consumeReservationForPrefix (keyPrefix : KeyPrefix) (r : Routing) :
    Routing × Option Reservation :=
  match r.reservations.lookup keyPrefix with
  | none => (r, none)
  | some reservation =>
    ({ r with
        reservations := r.reservations.erase keyPrefix
        reservedStableIds := r.reservedStableIds.erase reservation.stableId
        pipeTombstones := r.pipeTombstones.erase reservation.stableId }, some reservation)

/-- The endpoint's reservation is that of its prefix. -/
def consumeReservationForEndpoint (endpoint : EndpointId) (r : Routing) :
    Routing × Option Reservation :=
  r.consumeReservationForPrefix (prefixFromEndpoint endpoint)

/-- Only the first prefix hinted at the device is tried. -/
def consumeReservationForDevice (device : DeviceId) (r : Routing) :
    Routing × Option Reservation :=
  match r.prefixForDevice device with
  | none => (r, none)
  | some keyPrefix => r.consumeReservationForPrefix keyPrefix

/-! ## Promotion -/

/-- A pipe that could carry the endpoint as well. -/
structure Contender where
  pipe : StableConnId
  dialer : Dialer
deriving DecidableEq, Repr

/-- What `promote` makes of the contenders. -/
inductive Decision where
  | accept
  | acceptEvictingAll
  | reject
deriving DecidableEq, Repr

/-- What the hook is told. -/
inductive PromoteOutcome where
  | accepted (evicted : List StableConnId)
  | rejected
deriving DecidableEq, Repr

/-- A pipe dialled by the higher endpoint wins against the others; among pipes of one side the
latest wins. -/
def decideContenders (newDialer : Dialer) (contenders : List Contender) : Decision :=
  if contenders.isEmpty then .accept
  else
    match newDialer, contenders.any fun c => c.dialer == .high with
    | .high, false => .acceptEvictingAll
    | .low, true => .reject
    | _, _ => .acceptEvictingAll

/-- The routable entry of the endpoint and the other pending pipes that target it. -/
def contenders (pipe : StableConnId) (self remote : EndpointId) (r : Routing) : List Contender :=
  -- the pipe the endpoint has now, unless it is this one
  let incumbent := match r.routable.lookup remote with
    | some existing =>
      if existing.pipe ≠ pipe then [⟨existing.pipe, existing.dialer⟩] else []
    | none => []
  -- and every other pipe that was dialled for it
  incumbent ++ r.pending.entries.filterMap fun x =>
    if x.1 = pipe then none
    else if x.2.targetEndpoint ≠ some remote then none
    else (r.pipes.lookup x.1).map fun other =>
      ⟨x.1, Dialer.compute self remote other.direction⟩

/-- Remove a contender from the pool that holds it. -/
def evictContender (r : Routing) (pipe : StableConnId) : Routing :=
  ({ r with pending := r.pending.erase pipe } : Routing).evictRoutableOf pipe

/-- A handshake has completed over the pipe: it becomes the endpoint's routable pipe and the
contenders are evicted, or it is rejected. -/
def promote (now : ℕ) (pipe : StableConnId) (self remote : EndpointId) (r : Routing) :
    Routing × PromoteOutcome :=
  match r.pipes.lookup pipe with
  | none => (r, .rejected)
  | some p =>
    let newDialer := Dialer.compute self remote p.direction
    let contenders := r.contenders pipe self remote
    match decideContenders newDialer contenders with
    -- rejected: nothing is touched
    | .reject => (r, .rejected)
    | .accept | .acceptEvictingAll =>
      -- accepted: the contenders go before the pipe takes their place
      let evicted := contenders.map Contender.pipe
      let r := evicted.foldl evictContender r
      let r := { r with
        routable := (r.routable.erase remote).insert remote ⟨pipe, remote, newDialer, now⟩
        pending := r.pending.erase pipe }
      (r.wakeEndpointWaiters remote, .accepted evicted)

/-! ## Iteration order -/

/-- An order of iteration for each table that the code iterates over. -/
structure Orders where
  pipeTombstones : List StableConnId
  scanHint : List KeyPrefix
  pending : List StableConnId
  routable : List EndpointId
deriving DecidableEq

/-- A hash table may list its entries in any order, and in another one later. -/
def rehash (o : Orders) (r : Routing) : Option Routing :=
  if o.pipeTombstones.Perm r.pipeTombstones.keys ∧ o.scanHint.Perm r.scanHint.keys ∧
      o.pending.Perm r.pending.keys ∧ o.routable.Perm r.routable.keys then
    some { r with
      pipeTombstones := r.pipeTombstones.reorder o.pipeTombstones
      scanHint := r.scanHint.reorder o.scanHint
      pending := r.pending.reorder o.pending
      routable := r.routable.reorder o.routable }
  else none

/-! ## Opening a pipe -/

/-- The routing part of `execute(StartDataPipe)`: a reservation for the target endpoint, or
else for the device, gives the pipe its id. -/
def openPipe (now : ℕ) (device : DeviceId) (role : ConnectRole) (target : Option EndpointId)
    (r : Routing) : Routing × StableConnId :=
  let forEndpoint := match target with
    | some endpoint => r.consumeReservationForEndpoint endpoint
    | none => (r, none)
  -- the endpoint's reservation first, then the device's
  let bound := match forEndpoint with
    | (r, some reservation) => (r, some reservation)
    | (r, none) => r.consumeReservationForDevice device
  match bound with
  | (r, some reservation) =>
    let r := r.registerPipeWithId now reservation.stableId device (directionForRole role)
    (r.registerPending now reservation.stableId (some reservation.endpointId), reservation.stableId)
  | (r, none) =>
    let (r, id) := r.registerPipe now device (directionForRole role)
    (r.registerPending now id none, id)

end Routing

end IrohBle
