import IrohBle.Lib.System
import IrohBle.Routing.Ids
import IrohBle.Routing.Spec

/-! # Routing.Router: the routing table and the tasks that work on it

The table is shared by the driver, which opens and closes pipes, by the dedup hook and its
forwarder, by the resolver and by the scan pump. Every operation takes the table's lock on its
own, so a run is any interleaving of single operations.

* Opening a pipe takes up to four of them: `execute(StartDataPipe)` consumes a reservation for
  the target endpoint or else for the device, registers the pipe and puts it into the pending
  pool. The driver is at one such action at a time (`Opening`), and the other tasks move in
  between.
* The task of a pipe is spawned after that. Until then no handshake runs over the pipe and
  nothing closes it, so `promote`, `evict_pipe_state` and `evict_pipe` wait for it.
* `exec_opening`: done without a step in between, the four are `openPipe`.
-/

namespace IrohBle

open Lib

/-- How far `execute(StartDataPipe)` has come. -/
inductive Opening where
  | idle
  /-- Nothing is reserved for the target endpoint. -/
  | unreserved (device : DeviceId) (role : ConnectRole)
  /-- The reservation in hand, if there is one. -/
  | consumed (device : DeviceId) (role : ConnectRole) (reservation : Option Reservation)
  /-- The pipe is registered and not yet pending. -/
  | registered (id : StableConnId) (target : Option EndpointId)
deriving DecidableEq

/-- The reservation in the driver's hand. -/
def Opening.reservation? : Opening → Option Reservation
  | .consumed _ _ x => x
  | _ => none

/-- The id of the pipe in the driver's hand. -/
def Opening.bound? : Opening → Option StableConnId
  | .registered id _ => some id
  | _ => none

/-- The table, the own endpoint, and how far the driver is with opening a pipe. -/
structure Router where
  self : EndpointId
  routing : Routing := {}
  opening : Opening := .idle

/-- The operations, each under one lock. -/
inductive RouterLabel where
  /-- `consume_reservation_for_endpoint`, if there is a target. -/
  | startPipe (device : DeviceId) (role : ConnectRole) (target : Option EndpointId)
  | consumeForDevice
  /-- `register_pipe_with_id` or `register_pipe`. -/
  | register (now : ℕ)
  | registerPending (now : ℕ)
  | promote (now : ℕ) (pipe : StableConnId) (remote : EndpointId)
  | evictRoutableIfPipe (endpoint : EndpointId) (pipe : StableConnId)
  | evictPipeState (pipe : StableConnId)
  | evictPipe (now : ℕ) (pipe : StableConnId)
  | noteScanHint (keyPrefix : KeyPrefix) (device : DeviceId)
  | reserveOutbound (now : ℕ) (endpoint : EndpointId)
  | registerEndpointWaker (endpoint : EndpointId) (waker : Waker)
  | rehash (orders : Routing.Orders)

namespace Router

/-- The pipe is registered, and its task is not spawned yet. -/
def opens (s : Router) (pipe : StableConnId) : Bool :=
  match s.opening with
  | .registered id _ => id == pipe
  | _ => false

/-- The driver takes a `StartDataPipe`, and the reservation for its target. -/
def startPipe (device : DeviceId) (role : ConnectRole) (target : Option EndpointId) (s : Router) :
    Option Router :=
  match s.opening with
  | .idle =>
    match target with
    -- no target: the device's own reservation is looked for next
    | none => some { s with opening := .unreserved device role }
    | some endpoint =>
      match s.routing.consumeReservationForEndpoint endpoint with
      | (routing, some reservation) =>
        some { s with routing := routing, opening := .consumed device role (some reservation) }
      | (routing, none) => some { s with routing := routing, opening := .unreserved device role }
  | _ => none

/-- Without one, it takes the reservation for the device. -/
def consumeForDevice (s : Router) : Option Router :=
  match s.opening with
  | .unreserved device role =>
    match s.routing.consumeReservationForDevice device with
    | (routing, reservation) =>
      some { s with routing := routing, opening := .consumed device role reservation }
  | _ => none

/-- The pipe is registered, under the reserved id or a fresh one. -/
def register (now : ℕ) (s : Router) : Option Router :=
  match s.opening with
  -- the reserved id is taken over, with the endpoint it was promised for
  | .consumed device role (some x) =>
    some { s with
      routing := s.routing.registerPipeWithId now x.stableId device (directionForRole role)
      opening := .registered x.stableId (some x.endpointId) }
  | .consumed device role none =>
    match s.routing.registerPipe now device (directionForRole role) with
    | (routing, id) => some { s with routing := routing, opening := .registered id none }
  | _ => none

/-- The pipe becomes pending, and its task is spawned. -/
def registerPending (now : ℕ) (s : Router) : Option Router :=
  match s.opening with
  | .registered id target =>
    some { s with routing := s.routing.registerPending now id target, opening := .idle }
  | _ => none

/-- One operation; what is about a pipe waits for its task. -/
def step : RouterLabel → Router → Option Router
  | .startPipe device role target, s => s.startPipe device role target
  | .consumeForDevice, s => s.consumeForDevice
  | .register now, s => s.register now
  | .registerPending now, s => s.registerPending now
  -- the driver has not spawned the task of this pipe yet
  | .promote now pipe remote, s =>
    if s.opens pipe then none
    else some { s with routing := (s.routing.promote now pipe s.self remote).1 }
  | .evictRoutableIfPipe endpoint pipe, s =>
    some { s with routing := (s.routing.evictRoutableIfPipe endpoint pipe).1 }
  | .evictPipeState pipe, s =>
    if s.opens pipe then none else some { s with routing := (s.routing.evictPipeState pipe).1 }
  | .evictPipe now pipe, s =>
    if s.opens pipe then none else some { s with routing := s.routing.evictPipe now pipe }
  | .noteScanHint keyPrefix device, s =>
    some { s with routing := (s.routing.noteScanHint keyPrefix device).1 }
  | .reserveOutbound now endpoint, s =>
    some { s with routing := (s.routing.reserveOutbound now endpoint).1 }
  -- a poll of a resolver stream
  | .registerEndpointWaker endpoint waker, s =>
    some { s with routing := s.routing.registerEndpointWaker endpoint waker }
  | .rehash orders, s => (s.routing.rehash orders).map fun r => { s with routing := r }

/-- The table as a transition system. -/
def system : System Router RouterLabel where
  Init s := ∃ self, s = { self := self }
  step := step

/-! ## Opening a pipe -/

/-- The operations of one `execute(StartDataPipe)`. -/
def openingLabels (now : ℕ) (device : DeviceId) (role : ConnectRole) (target : Option EndpointId)
    (r : Routing) : List RouterLabel :=
  match target.bind fun e => (r.consumeReservationForEndpoint e).2 with
  | some _ => [.startPipe device role target, .register now, .registerPending now]
  | none => [.startPipe device role target, .consumeForDevice, .register now, .registerPending now]

/-- With nothing in between they are `openPipe`. -/
theorem exec_opening {now : ℕ} {device : DeviceId} {role : ConnectRole}
    {target : Option EndpointId} {s : Router} (hidle : s.opening = .idle) :
    system.exec (openingLabels now device role target s.routing) s =
      some { s with
        routing := (s.routing.openPipe now device role target).1
        opening := .idle } := by
  have hdevice : ∀ routing, system.exec [.consumeForDevice, .register now, .registerPending now]
      { s with routing := routing, opening := .unreserved device role } =
        some { s with routing := (routing.openPipe now device role none).1, opening := .idle } := by
    intro routing
    rcases Routing.consumed_forDevice device routing with hd | ⟨k, x, hx, hd⟩
    · simp only [System.exec, system, step, consumeForDevice, register, registerPending, hd,
        Routing.openPipe, Option.bind_some]
    · simp only [System.exec, system, step, consumeForDevice, register, registerPending, hd,
        Routing.openPipe, Option.bind_some]
  cases target with
  | none =>
      have hstart : system.step (.startPipe device role none) s =
          some { s with opening := .unreserved device role } := by
        simp only [system, step, startPipe, hidle]
      change (system.step (.startPipe device role none) s).bind _ = _
      rw [hstart]
      exact hdevice s.routing
  | some endpoint =>
      rcases Routing.consumed_forPrefix (prefixFromEndpoint endpoint) s.routing with
        he | ⟨k, x, hx, he⟩
      · -- nothing is reserved for the endpoint: the device is tried next
        have hopen : s.routing.openPipe now device role (some endpoint) =
            s.routing.openPipe now device role none := by
          simp only [Routing.openPipe, Routing.consumeReservationForEndpoint, he]
        have hlabels : openingLabels now device role (some endpoint) s.routing =
            [.startPipe device role (some endpoint), .consumeForDevice, .register now,
              .registerPending now] := by
          simp only [openingLabels, Option.bind_some, Routing.consumeReservationForEndpoint, he]
        have hstart : system.step (.startPipe device role (some endpoint)) s =
            some { s with opening := .unreserved device role } := by
          simp only [system, step, startPipe, hidle, Routing.consumeReservationForEndpoint, he]
        rw [hopen, hlabels]
        change (system.step (.startPipe device role (some endpoint)) s).bind _ = _
        rw [hstart]
        exact hdevice s.routing
      · simp only [openingLabels, Option.bind_some, Routing.consumeReservationForEndpoint, he,
          System.exec, system, step, startPipe, hidle, register, registerPending,
          Routing.openPipe]

end Router

/-! ## What a step does -/

namespace Routing

/-- No id is given out or taken back. -/
structure SameIds (r r' : Routing) : Prop where
  nextId : r'.nextId = r.nextId
  reservations : r'.reservations = r.reservations
  reservedStableIds : r'.reservedStableIds = r.reservedStableIds

/-- Both pools are as they were. -/
structure SamePools (r r' : Routing) : Prop where
  pending : ∀ q, r'.pending.lookup q = r.pending.lookup q
  routable : ∀ e, r'.routable.lookup e = r.routable.lookup e

theorem SameIds.refl (r : Routing) : SameIds r r := ⟨rfl, rfl, rfl⟩

theorem SamePools.refl (r : Routing) : SamePools r r := ⟨fun _ => rfl, fun _ => rfl⟩

theorem SameIds.of_tables {r r' : Routing} (h : r'.tables = r.tables) : SameIds r r' :=
  ⟨(congrArg Routing.nextId h :), reservations_of_tables h, (congrArg Routing.reservedStableIds h :)⟩

/-- The pools depend on themselves only. -/
theorem SamePools.of_eq {r r' : Routing} (hpending : r'.pending = r.pending)
    (hroutable : r'.routable = r.routable) : SamePools r r' := by
  refine ⟨?_, ?_⟩
  · intro q
    rw [hpending]
  · intro e
    rw [hroutable]

theorem Evicts.sameIds {ps : List StableConnId} {r r' : Routing} (h : Evicts ps r r') :
    SameIds r r' :=
  ⟨(congrArg Routing.nextId h.rest :), h.reservations, (congrArg Routing.reservedStableIds h.rest :)⟩

theorem Promotes.sameIds {now : ℕ} {p : StableConnId} {self e : EndpointId}
    {ps : List StableConnId} {r r' : Routing} (h : Promotes now p self e ps r r') : SameIds r r' :=
  ⟨(congrArg Routing.nextId h.rest :), (congrArg Routing.reservations h.rest :),
    (congrArg Routing.reservedStableIds h.rest :)⟩

end Routing

namespace Router

open Routing

/-- The id that a step mints: what `register_pipe` returns, and what `reserve_outbound` returns
where the prefix had no reservation. -/
def minted (x : Router × RouterLabel) : Option StableConnId :=
  match x.2 with
  | .register now =>
    -- only a pipe without a reservation gets a fresh id
    match x.1.opening with
    | .consumed device role none =>
      some (x.1.routing.registerPipe now device (directionForRole role)).2
    | _ => none
  | .reserveOutbound now e =>
    match x.1.routing.reservations.lookup (prefixFromEndpoint e) with
    -- the prefix has one already
    | none => some (x.1.routing.reserveOutbound now e).2
    | some _ => none
  | _ => none

/-- The id that a step binds to a new pipe: the one the driver goes on with. -/
def binds (x : Router × RouterLabel) : Option StableConnId :=
  match x.2 with
  | .register now => (x.1.register now).bind fun s => s.opening.bound?
  | _ => none

theorem minted_of_unreserved {s : Router} {now : ℕ} {device : DeviceId} {role : ConnectRole}
    (h : s.opening = .consumed device role none) :
    minted (s, .register now) = some ⟨s.routing.nextId + 1⟩ := by
  simp only [minted, h]
  rfl

theorem minted_of_reserved {s : Router} {now : ℕ} {device : DeviceId} {role : ConnectRole}
    {x : Reservation} (h : s.opening = .consumed device role (some x)) :
    minted (s, .register now) = none := by
  simp only [minted, h]

/-- `reserve_outbound` mints the id it reserves. -/
theorem minted_of_free {s : Router} {now : ℕ} {e : EndpointId}
    (h : s.routing.reservations.lookup (prefixFromEndpoint e) = none) :
    minted (s, .reserveOutbound now e) = some ⟨s.routing.nextId + 1⟩ := by
  have hpruned : (s.routing.prunePipeTombstones now).reservations.lookup (prefixFromEndpoint e) =
      none := h
  simp only [minted, h, reserveOutbound, hpruned]
  rfl

theorem minted_of_taken {s : Router} {now : ℕ} {e : EndpointId} {x : Reservation}
    (h : s.routing.reservations.lookup (prefixFromEndpoint e) = some x) :
    minted (s, .reserveOutbound now e) = none := by
  simp only [minted, h]

theorem binds_of_unreserved {s : Router} {now : ℕ} {device : DeviceId} {role : ConnectRole}
    (h : s.opening = .consumed device role none) :
    binds (s, .register now) = some ⟨s.routing.nextId + 1⟩ := by
  simp only [binds, register, h]
  rfl

theorem binds_of_reserved {s : Router} {now : ℕ} {device : DeviceId} {role : ConnectRole}
    {x : Reservation} (h : s.opening = .consumed device role (some x)) :
    binds (s, .register now) = some x.stableId := by
  simp only [binds, register, h]
  rfl

/-- The step neither mints an id nor binds one. -/
def Silent (s : Router) (l : RouterLabel) : Prop := minted (s, l) = none ∧ binds (s, l) = none

/-- What a step does to the table, and to what the driver has in hand. -/
inductive Does (s : Router) : RouterLabel → Router → Prop where
  /-- A rejected promotion, a scan hint, a reservation that exists, an eviction that finds
  nothing: neither the ids nor the pools change. -/
  | idles {l : RouterLabel} {r : Routing} (silent : Silent s l) (ids : SameIds s.routing r)
      (pools : SamePools s.routing r) (pipes : r.pipes = s.routing.pipes) :
      Does s l { s with routing := r }
  | closes {now : ℕ} {p : StableConnId} {r : Routing} (hand : s.opens p = false)
      (ids : SameIds s.routing r) (pools : SamePools s.routing r)
      (pipes : r.pipes = s.routing.pipes.erase p) :
      Does s (.evictPipe now p) { s with routing := r }
  | evicts {p : StableConnId} {r : Routing} (hand : s.opens p = false)
      (evicts : Evicts [p] s.routing r) {r' : Routing} (tables : r'.tables = r.tables) :
      Does s (.evictPipeState p) { s with routing := r' }
  | hangsUp {e : EndpointId} {p : StableConnId} {x : Routable}
      (routable : s.routing.routable.lookup e = some x) (pipe : x.pipe = p) {r : Routing}
      (tables : r.tables =
        ({ s.routing with routable := s.routing.routable.erase e } : Routing).tables) :
      Does s (.evictRoutableIfPipe e p) { s with routing := r }
  | promotes {now : ℕ} {p : StableConnId} {e : EndpointId} {ps : List StableConnId} {r : Routing}
      (hand : s.opens p = false) (promotes : Promotes now p s.self e ps s.routing r) :
      Does s (.promote now p e) { s with routing := r }
  | reserves {now : ℕ} {e : EndpointId} {r : Routing}
      (free : s.routing.reservations.lookup (prefixFromEndpoint e) = none)
      (next : r.nextId = s.routing.nextId + 1)
      (reservations : r.reservations = s.routing.reservations.insert (prefixFromEndpoint e)
        ⟨⟨s.routing.nextId + 1⟩, e, now⟩)
      (reserved : r.reservedStableIds = s.routing.reservedStableIds.insert
        ⟨s.routing.nextId + 1⟩ (prefixFromEndpoint e))
      (pools : SamePools s.routing r) (pipes : r.pipes = s.routing.pipes) :
      Does s (.reserveOutbound now e) { s with routing := r }
  /-- Nothing was reserved. -/
  | misses {l : RouterLabel} {opening : Opening} (silent : Silent s l)
      (before : s.opening.reservation? = none)
      (after : opening.reservation? = none) (unbound : ∀ id target, opening ≠ .registered id target) :
      Does s l { s with opening := opening }
  | consumes {l : RouterLabel} {device : DeviceId} {role : ConnectRole} {k : KeyPrefix}
      {x : Reservation} {r : Routing} (silent : Silent s l)
      (found : s.routing.reservations.lookup k = some x)
      (next : r.nextId = s.routing.nextId)
      (reservations : r.reservations = s.routing.reservations.erase k)
      (reserved : r.reservedStableIds = s.routing.reservedStableIds.erase x.stableId)
      (pools : SamePools s.routing r) (pipes : r.pipes = s.routing.pipes) :
      Does s l { s with routing := r, opening := .consumed device role (some x) }
  | binds {now : ℕ} {device : DeviceId} {role : ConnectRole} {x : Reservation} {r : Routing}
      (before : s.opening = .consumed device role (some x)) (ids : SameIds s.routing r)
      (pools : SamePools s.routing r)
      (pipes : r.pipes = s.routing.pipes.insert x.stableId
        ⟨x.stableId, device, directionForRole role, now⟩) :
      Does s (.register now)
        { s with routing := r, opening := .registered x.stableId (some x.endpointId) }
  | mints {now : ℕ} {device : DeviceId} {role : ConnectRole} {r : Routing}
      (before : s.opening = .consumed device role none) (next : r.nextId = s.routing.nextId + 1)
      (reservations : r.reservations = s.routing.reservations)
      (reserved : r.reservedStableIds = s.routing.reservedStableIds)
      (pools : SamePools s.routing r)
      (pipes : r.pipes = s.routing.pipes.insert ⟨s.routing.nextId + 1⟩
        ⟨⟨s.routing.nextId + 1⟩, device, directionForRole role, now⟩) :
      Does s (.register now)
        { s with routing := r, opening := .registered ⟨s.routing.nextId + 1⟩ none }
  | pends {now : ℕ} {id : StableConnId} {target : Option EndpointId} {r : Routing}
      (before : s.opening = .registered id target)
      (tables : r.tables = ({ s.routing with
        pending := s.routing.pending.insert id ⟨id, target, now⟩ } : Routing).tables) :
      Does s (.registerPending now) { s with routing := r, opening := .idle }

/-- What the start of an opening does. -/
theorem does_startPipe {s s' : Router} {device : DeviceId} {role : ConnectRole}
    {target : Option EndpointId} (hs : s.startPipe device role target = some s') :
    Does s (.startPipe device role target) s' := by
  unfold startPipe at hs
  cases hopening : s.opening with
  | idle =>
      rw [hopening] at hs
      -- without a reservation the device is asked next
      have hmiss : Does s (.startPipe device role target)
          { s with opening := .unreserved device role } := by
        refine .misses ⟨rfl, rfl⟩ ?_ rfl ?_
        · rw [hopening]
          rfl
        · intro id target
          simp
      cases target with
      | none =>
          obtain rfl := Option.some.inj hs
          exact hmiss
      | some endpoint =>
          have hconsumed := consumed_forPrefix (prefixFromEndpoint endpoint) s.routing
          rcases hconsumed with hnone | ⟨k, x, hx, hfound⟩
          · -- no reservation for this endpoint
            simp only [consumeReservationForEndpoint, hnone] at hs
            obtain rfl := Option.some.inj hs
            exact hmiss
          · simp only [consumeReservationForEndpoint, hfound] at hs
            obtain rfl := Option.some.inj hs
            exact .consumes ⟨rfl, rfl⟩ hx rfl rfl rfl (.of_eq rfl rfl) rfl
  | unreserved device' role' => rw [hopening] at hs; cases hs
  | consumed device' role' x => rw [hopening] at hs; cases hs
  | registered id target' => rw [hopening] at hs; cases hs

/-- What its second part does. -/
theorem does_consumeForDevice {s s' : Router} (hs : s.consumeForDevice = some s') :
    Does s .consumeForDevice s' := by
  unfold consumeForDevice at hs
  cases hopening : s.opening with
  | unreserved device role =>
      rw [hopening] at hs
      rcases consumed_forDevice device s.routing with hnone | ⟨k, x, hx, hfound⟩
      · simp only [hnone] at hs
        obtain rfl := Option.some.inj hs
        refine .misses ⟨rfl, rfl⟩ ?_ rfl ?_
        · rw [hopening]
          rfl
        · intro id target
          simp
      · simp only [hfound] at hs
        obtain rfl := Option.some.inj hs
        exact .consumes ⟨rfl, rfl⟩ hx rfl rfl rfl (.of_eq rfl rfl) rfl
  | idle => rw [hopening] at hs; cases hs
  | consumed device role x => rw [hopening] at hs; cases hs
  | registered id target => rw [hopening] at hs; cases hs

/-- What the registration does. -/
theorem does_register {s s' : Router} {now : ℕ} (hs : s.register now = some s') :
    Does s (.register now) s' := by
  unfold register at hs
  cases hopening : s.opening with
  | consumed device role x =>
      rw [hopening] at hs
      cases x with
      | none =>
          obtain rfl := Option.some.inj hs
          exact .mints hopening rfl rfl rfl (.of_eq rfl rfl) rfl
      | some x =>
          obtain rfl := Option.some.inj hs
          exact .binds hopening ⟨rfl, rfl, rfl⟩ (.of_eq rfl rfl) rfl
  | idle => rw [hopening] at hs; cases hs
  | unreserved device role => rw [hopening] at hs; cases hs
  | registered id target => rw [hopening] at hs; cases hs

/-- What its last part does. -/
theorem does_registerPending {s s' : Router} {now : ℕ} (hs : s.registerPending now = some s') :
    Does s (.registerPending now) s' := by
  unfold registerPending at hs
  cases hopening : s.opening with
  | registered id target =>
      rw [hopening] at hs
      obtain rfl := Option.some.inj hs
      exact .pends hopening (tables_wakeFor target _)
  | idle => rw [hopening] at hs; cases hs
  | unreserved device role => rw [hopening] at hs; cases hs
  | consumed device role x => rw [hopening] at hs; cases hs

/-- What the end of a pipe's task does. -/
theorem does_evictPipe {s : Router} {now : ℕ} {p : StableConnId} (hand : s.opens p = false) :
    Does s (.evictPipe now p) { s with routing := s.routing.evictPipe now p } := by
  unfold Routing.evictPipe
  cases hp : s.routing.pipes.lookup p with
  | none => exact .idles ⟨rfl, rfl⟩ (.refl _) (.refl _) rfl
  | some pipe => exact .closes hand ⟨rfl, rfl, rfl⟩ (.of_eq rfl rfl) rfl

/-- What a reservation does. -/
theorem does_reserveOutbound (s : Router) (now : ℕ) (e : EndpointId) :
    Does s (.reserveOutbound now e)
      { s with routing := (s.routing.reserveOutbound now e).1 } := by
  unfold Routing.reserveOutbound
  dsimp only
  have hres : (s.routing.prunePipeTombstones now).reservations = s.routing.reservations := rfl
  rw [hres]
  cases hx : s.routing.reservations.lookup (prefixFromEndpoint e) with
  | some x =>
      refine .idles ⟨?_, rfl⟩ ⟨rfl, rfl, rfl⟩ (.of_eq rfl rfl) rfl
      exact minted_of_taken hx
  | none => exact .reserves hx rfl rfl rfl (.of_eq rfl rfl) rfl

/-- Everything a step can do. -/
theorem does_of_step {s s' : Router} {l : RouterLabel} (hs : system.step l s = some s') :
    Does s l s' := by
  cases l with
  | startPipe device role target => exact does_startPipe hs
  | consumeForDevice => exact does_consumeForDevice hs
  | register now => exact does_register hs
  | registerPending now => exact does_registerPending hs
  -- a promotion is refused, or takes the pipe out of the pending pool
  | promote now p e =>
      simp only [system, step] at hs
      cases hopens : s.opens p with
      | true => simp [hopens] at hs
      | false =>
          simp only [hopens, Bool.false_eq_true, if_false] at hs
          obtain rfl := Option.some.inj hs
          rcases promote_cases now p s.self e s.routing with ⟨hr, -⟩ | ⟨r', ps, hr, hpromotes⟩
          · rw [hr]
            exact .idles ⟨rfl, rfl⟩ (.refl _) (.refl _) rfl
          · rw [hr]
            exact .promotes hopens hpromotes
  | evictRoutableIfPipe e p =>
      obtain rfl := Option.some.inj hs
      rcases evictRoutableIfPipe_cases e p s.routing with ⟨hr, -⟩ | ⟨x, hx, hp, hr⟩
      · rw [hr]
        exact .idles ⟨rfl, rfl⟩ (.refl _) (.refl _) rfl
      · rw [hr]
        exact .hangsUp hx hp (tables_wakeEndpointWaiters e _)
  | evictPipeState p =>
      simp only [system, step] at hs
      cases hopens : s.opens p with
      | true => simp [hopens] at hs
      | false =>
          simp only [hopens, Bool.false_eq_true, if_false] at hs
          obtain rfl := Option.some.inj hs
          exact .evicts hopens (Evicts.evictContender p s.routing)
            (evictPipeState_tables p s.routing)
  | evictPipe now p =>
      simp only [system, step] at hs
      cases hopens : s.opens p with
      | true => simp [hopens] at hs
      | false =>
          simp only [hopens, Bool.false_eq_true, if_false] at hs
          obtain rfl := Option.some.inj hs
          exact does_evictPipe hopens
  | noteScanHint k d =>
      obtain rfl := Option.some.inj hs
      rcases noteScanHint_tables k d s.routing with hr | hr
      · rw [hr]
        exact .idles ⟨rfl, rfl⟩ (.refl _) (.refl _) rfl
      · have hids := SameIds.of_tables hr
        exact .idles ⟨rfl, rfl⟩ ⟨hids.nextId, hids.reservations, hids.reservedStableIds⟩
          (.of_eq (pending_of_tables hr :) (routable_of_tables hr :)) (pipes_of_tables hr :)
  | reserveOutbound now e =>
      obtain rfl := Option.some.inj hs
      exact does_reserveOutbound s now e
  | registerEndpointWaker e w =>
      obtain rfl := Option.some.inj hs
      exact .idles ⟨rfl, rfl⟩ ⟨rfl, rfl, rfl⟩ (.of_eq rfl rfl) rfl
  | rehash o =>
      rcases Option.map_eq_some_iff.mp hs with ⟨r, hr, rfl⟩
      unfold Routing.rehash at hr
      split at hr
      · rename_i hperm
        obtain rfl := Option.some.inj hr
        refine .idles ⟨rfl, rfl⟩ ⟨rfl, rfl, rfl⟩ ⟨?_, ?_⟩ rfl
        · intro q
          exact Map.lookup_reorder hperm.2.2.1 q
        · intro e
          exact Map.lookup_reorder hperm.2.2.2 e
      · cases hr

section Effects

variable {s s' : Router} {l : RouterLabel} (hs : system.step l s = some s')

include hs

theorem self_of_step : s'.self = s.self := by
  cases does_of_step hs <;> rfl

/-- Only a promotion adds to the routable pool. -/
theorem routable_of_step {e : EndpointId} {x : Routable}
    (hx : s'.routing.routable.lookup e = some x) :
    s.routing.routable.lookup e = some x ∨ ∃ now p ps, l = .promote now p e ∧ x.pipe = p ∧
      Promotes now p s.self e ps s.routing s'.routing := by
  -- the pool is as it was
  have hsame : ∀ {r : Routing}, SamePools s.routing r → r.routable.lookup e = some x →
      s.routing.routable.lookup e = some x := by
    intro r hpools hx
    rw [← hpools.routable e]
    exact hx
  cases does_of_step hs with
  | idles _ _ hpools _ => exact Or.inl (hsame hpools hx)
  | closes _ _ hpools _ => exact Or.inl (hsame hpools hx)
  | @evicts p r _ hevicts r' htables =>
      change r'.routable.lookup e = some x at hx
      rw [routable_of_tables htables] at hx
      exact Or.inl (hevicts.of_routable hx)
  -- the entry of the endpoint that was hung up is gone
  | @hangsUp e' p y _ _ r htables =>
      have hroutable : r.routable = s.routing.routable.erase e' := (routable_of_tables htables :)
      change r.routable.lookup e = some x at hx
      rw [hroutable, Map.lookup_erase_ite] at hx
      split at hx
      · cases hx
      · exact Or.inl hx
  | @promotes now p e' ps r _ hpromotes =>
      by_cases he : e = e'
      · subst he
        rcases hpromotes.bound with ⟨y, -, hbound, -⟩
        change r.routable.lookup e = some x at hx
        rw [hbound] at hx
        obtain rfl := Option.some.inj hx
        exact Or.inr ⟨now, p, ps, rfl, rfl, hpromotes⟩
      · change r.routable.lookup e = some x at hx
        rcases hpromotes.routable e he with heq | ⟨hnone, -⟩
        · exact Or.inl (heq.symm.trans hx)
        · rw [hnone] at hx
          cases hx
  | reserves _ _ _ _ hpools _ => exact Or.inl (hsame hpools hx)
  | misses => exact Or.inl hx
  | consumes _ _ _ _ _ hpools _ => exact Or.inl (hsame hpools hx)
  | binds _ _ hpools _ => exact Or.inl (hsame hpools hx)
  | mints _ _ _ _ hpools _ => exact Or.inl (hsame hpools hx)
  | @pends now id target r _ htables =>
      have hroutable : r.routable = s.routing.routable := (routable_of_tables htables :)
      exact Or.inl (hroutable ▸ hx)

/-- Only the pipe that the driver has in hand is added to the pending pool. -/
theorem pending_of_step {q : StableConnId} {x : Pending}
    (hx : s'.routing.pending.lookup q = some x) :
    s.routing.pending.lookup q = some x ∨
      ∃ target, s.opening = .registered q target ∧ x.pipe = q ∧ s'.opening = .idle := by
  -- the pool is as it was
  have hsame : ∀ {r : Routing}, SamePools s.routing r → r.pending.lookup q = some x →
      s.routing.pending.lookup q = some x := by
    intro r hpools hx
    rw [← hpools.pending q]
    exact hx
  cases does_of_step hs with
  | idles _ _ hpools _ => exact Or.inl (hsame hpools hx)
  | closes _ _ hpools _ => exact Or.inl (hsame hpools hx)
  | @evicts p r _ hevicts r' htables =>
      change r'.pending.lookup q = some x at hx
      rw [pending_of_tables htables, hevicts.pending] at hx
      split at hx
      · cases hx
      · exact Or.inl hx
  | @hangsUp e p y _ _ r htables =>
      have hpending : r.pending = s.routing.pending := (pending_of_tables htables :)
      exact Or.inl (hpending ▸ hx)
  | @promotes now p e ps r _ hpromotes =>
      change r.pending.lookup q = some x at hx
      rw [hpromotes.pending] at hx
      split at hx
      · cases hx
      · exact Or.inl hx
  | reserves _ _ _ _ hpools _ => exact Or.inl (hsame hpools hx)
  | misses => exact Or.inl hx
  | consumes _ _ _ _ _ hpools _ => exact Or.inl (hsame hpools hx)
  | binds _ _ hpools _ => exact Or.inl (hsame hpools hx)
  | mints _ _ _ _ hpools _ => exact Or.inl (hsame hpools hx)
  | @pends now id target r hbefore htables =>
      have hpending : r.pending = s.routing.pending.insert id ⟨id, target, now⟩ :=
        (pending_of_tables htables :)
      change r.pending.lookup q = some x at hx
      rw [hpending, Map.lookup_insert_ite] at hx
      split at hx
      · rename_i hq
        obtain rfl := Option.some.inj hx
        exact Or.inr ⟨target, by rw [hq]; exact hbefore, hq.symm, rfl⟩
      · exact Or.inl hx

/-- Only `register` adds a pipe. -/
theorem pipes_of_step {id : StableConnId} {y : Pipe} (hy : s'.routing.pipes.lookup id = some y) :
    s.routing.pipes.lookup id = some y ∨ Router.binds (s, l) = some id := by
  cases does_of_step hs with
  | idles _ _ _ hpipes => exact Or.inl (hpipes ▸ hy)
  -- the pipe that is closed is unregistered
  | @closes now p r _ _ _ hpipes =>
      change r.pipes.lookup id = some y at hy
      rw [hpipes, Map.lookup_erase_ite] at hy
      split at hy
      · cases hy
      · exact Or.inl hy
  | evicts _ hevicts htables =>
      exact Or.inl (((pipes_of_tables htables).trans hevicts.pipes) ▸ hy)
  | @hangsUp e p x _ _ r htables =>
      have hpipes : r.pipes = s.routing.pipes := (pipes_of_tables htables :)
      exact Or.inl (hpipes ▸ hy)
  | promotes _ hpromotes => exact Or.inl (hpromotes.pipes ▸ hy)
  | reserves _ _ _ _ _ hpipes => exact Or.inl (hpipes ▸ hy)
  | misses => exact Or.inl hy
  | consumes _ _ _ _ _ _ hpipes => exact Or.inl (hpipes ▸ hy)
  -- the id that is bound is the one that is registered
  | @binds now device role x r hbefore _ _ hpipes =>
      change r.pipes.lookup id = some y at hy
      rw [hpipes, Map.lookup_insert_ite] at hy
      split at hy
      · rename_i hid
        rw [hid]
        exact Or.inr (binds_of_reserved hbefore)
      · exact Or.inl hy
  | @mints now device role r hbefore _ _ _ _ hpipes =>
      change r.pipes.lookup id = some y at hy
      rw [hpipes, Map.lookup_insert_ite] at hy
      split at hy
      · rename_i hid
        rw [hid]
        exact Or.inr (binds_of_unreserved hbefore)
      · exact Or.inl hy
  | @pends now id' target r _ htables =>
      have hpipes : r.pipes = s.routing.pipes := (pipes_of_tables htables :)
      exact Or.inl (hpipes ▸ hy)

/-- Only `register` puts a pipe into the driver's hand. -/
theorem opening_of_step {id : StableConnId} {target : Option EndpointId}
    (hid : s'.opening = .registered id target) :
    s.opening = .registered id target ∨ Router.binds (s, l) = some id := by
  cases does_of_step hs with
  | misses _ _ _ hunbound => exact absurd hid (hunbound id target)
  | consumes => cases hid
  | binds hbefore =>
      cases hid
      exact Or.inr (binds_of_reserved hbefore)
  | mints hbefore =>
      cases hid
      exact Or.inr (binds_of_unreserved hbefore)
  | pends => cases hid
  | _ => exact Or.inl hid

end Effects

end Router

end IrohBle
