import IrohBle.Discovery.Moves
import IrohBle.Routing.Hints
import IrohBle.Registry.Names

/-! # Pumps: the events of both radio roles, and where a prefix comes from

Beside the central's events, four kinds of tasks feed the registry's inbox: the peripheral's state
events, its GATT requests, and one loop for each L2CAP listener that was started. A subscription
comes with no identity of its own. The pump asks the routing table which prefix was last seen at the
device, and the registry takes the entry for that peer from then on.

* `Pumps`: `Discovery` with these tasks, each of which may be suspended in a send to the inbox.
* `Origin`: the device itself has advertised the prefix, or a handshake over one of its pipes has
  proven an endpoint with it.
* `prefix_origin`: every prefix that an entry is known by, and every hint, has such an origin.
-/

namespace IrohBle

open Lib Reliable Registry

/-! ## What the actor and the central's events keep -/

/-- Only the tasks of the peripheral send these. -/
def PeerCommand.isPeripherals : PeerCommand → Bool
  | .peripheralClientSubscribed .. => true
  | .peripheralClientUnsubscribed .. => true
  | .inboundGattFragment _ .peripheralReceivedC2p _ => true
  | .inboundL2capChannel .. => true
  | _ => false

/-- What a step of another producer sends. -/
def DiscoveryLabel.produced : DiscoveryLabel → Option PeerCommand
  | .produce letter => some letter.cmd
  | _ => none

namespace Discovery

/-- Whatever names a prefix in a state has an origin in `O`. -/
structure Sourced (O : DeviceId → KeyPrefix → Prop) (s : Discovery) : Prop where
  entry : ∀ d e p, s.actor.reg.peer d = some e → e.keyPrefix = some p → O d p
  hint : ∀ d p, s.router.routing.scanHint.lookup p = some d → O d p
  inbox : ∀ letter ∈ s.actor.inbox, ∀ d p, letter.cmd.Names d p → O d p
  actor : ∀ cmd todo shutdown d p, s.actor.loop = .sending cmd todo shutdown → ¬ cmd.Names d p
  pump : ∀ cmd, s.pump.command = some cmd → ∀ d p, cmd.Names d p → O d p

section Sourced

variable {O : DeviceId → KeyPrefix → Prop} {s s' : Discovery} {l : DiscoveryLabel}

/-- What has an origin has one under any weaker notion of it. -/
theorem Sourced.mono {O' : DeviceId → KeyPrefix → Prop} (hO : ∀ d p, O d p → O' d p)
    (hsourced : s.Sourced O) : s.Sourced O' where
  entry d e p he hp := hO d p (hsourced.entry d e p he hp)
  hint d p h := hO d p (hsourced.hint d p h)
  inbox letter h d p hnames := hO d p (hsourced.inbox letter h d p hnames)
  actor := hsourced.actor
  pump cmd h d p hnames := hO d p (hsourced.pump cmd h d p hnames)

/-- An event is about the device and the prefix that it makes the pump note. -/
theorem take_hint (r : Routing) (ev : CentralEvent) :
    (∀ e, (Pump.take r ev).1.scanHint.lookup e = r.scanHint.lookup e ∨
      ∃ d, ev.hint = some (e, d) ∧ (Pump.take r ev).1.scanHint.lookup e = some d) ∧
    ∀ cmd, (Pump.take r ev).2.command = some cmd → ∀ d p, cmd.Names d p → ev.hint = some (p, d) := by
  have hnothing : ∀ cmd, Pump.command .waiting = some cmd → ∀ d p, cmd.Names d p →
      ev.hint = some (p, d) := by
    intro cmd h
    cases h
  -- any other event names no prefix
  have hother : ∀ cmd : PeerCommand, (∀ d p, ¬ cmd.Names d p) → ∀ cmd',
      Pump.command (.sending cmd) = some cmd' → ∀ d p, cmd'.Names d p → ev.hint = some (p, d) := by
    intro cmd hno cmd' h d p hnames
    obtain rfl := Option.some.inj h
    exact absurd hnames (hno d p)
  cases ev with
  | deviceDiscovered device services rssi =>
      simp only [Pump.take]
      cases hextract : extractPrefixFromServices services with
      | none => exact ⟨fun e => .inl rfl, hnothing⟩
      | some p =>
          have hev : (CentralEvent.deviceDiscovered device services rssi).hint = some (p, device) := by
            simp only [CentralEvent.hint, hextract, Option.map_some]
          have hlookup := Routing.lookup_noteScanHint p device r
          have hnames : ∀ cmd, some (PeerCommand.advertised p device rssi) = some cmd →
              ∀ d q, cmd.Names d q →
                (CentralEvent.deviceDiscovered device services rssi).hint = some (q, d) := by
            rintro cmd h d q hnames
            obtain rfl := Option.some.inj h
            obtain ⟨rfl, rfl⟩ := hnames
            exact hev
          have htable : ∀ e, (r.noteScanHint p device).1.scanHint.lookup e = r.scanHint.lookup e ∨
              ∃ d, (CentralEvent.deviceDiscovered device services rssi).hint = some (e, d) ∧
                (r.noteScanHint p device).1.scanHint.lookup e = some d := by
            intro e
            rcases hlookup e with hsame | ⟨rfl, hnew⟩
            · exact .inl hsame
            · exact .inr ⟨device, hev, hnew⟩
          cases hnote : r.noteScanHint p device with
          | mk r' update =>
              rw [hnote] at htable
              simp only [hnote]
              cases update with
              | unchanged => exact ⟨htable, hnames⟩
              | new => exact ⟨htable, hnames⟩
              | replaced previous => exact ⟨htable, hnames⟩
              | activelyBound current => exact ⟨htable, hnothing⟩
  | deviceConnected device => exact ⟨fun e => .inl rfl, hother _ fun d p h => h⟩
  | deviceDisconnected device cause => exact ⟨fun e => .inl rfl, hother _ fun d p h => h⟩
  | characteristicNotification device value => exact ⟨fun e => .inl rfl, hother _ fun d p h => h⟩
  | adapterStateChanged powered => exact ⟨fun e => .inl rfl, hother _ fun d p h => h⟩
  | other => exact ⟨fun e => .inl rfl, hnothing⟩

/-- Offering a command to the inbox names no prefix that it does not name itself. -/
theorem sourced_offer {cmd : PeerCommand} {next : Pump} (hsourced : s.Sourced O)
    (hs : s.offer cmd next = some s') (hcmd : ∀ d p, cmd.Names d p → O d p)
    (hnext : ∀ c, next.command = some c → ∀ d p, c.Names d p → O d p) : s'.Sourced O := by
  rcases offer_cases hs with rfl | rfl
  · refine { hsourced with pump := ?_ }
    intro c h
    cases h
  · refine { hsourced with inbox := ?_, pump := hnext }
    intro letter h
    rcases List.mem_append.mp h with hold | hnew
    · exact hsourced.inbox letter hold
    · rw [List.mem_singleton.mp hnew]
      exact hcmd

/-- One command of the actor; a handshake is about the device of its pipe. -/
theorem sourced_pop {inbox : List (Letter ℕ)} {a : Actor} {io : Io}
    {exact replaced : Option DeviceId} (hsourced : s.Sourced O)
    (ha : { s.actor with inbox := inbox }.pop io exact replaced = some a)
    (hinbox : ∀ letter ∈ inbox, ∀ d p, letter.cmd.Names d p → O d p)
    (hverified : ∀ letter ∈ inbox.head?, ∀ endpoint token,
      letter.cmd = .verifiedEndpoint endpoint token → ∀ d, exact = some d →
        O d (prefixFromEndpoint endpoint)) :
    ({ s with actor := a } : Discovery).Sourced O := by
  obtain ⟨letter, rest, -, hletters, rfl⟩ := Actor.pop_cases ha
  have hletters : inbox = letter :: rest := hletters
  subst hletters
  refine { hsourced with entry := ?_, inbox := ?_, actor := ?_ }
  · intro d e p he hp
    rcases keyPrefix_of_command he hp with ⟨e₀, he₀, hp₀⟩ | hnames | ⟨endpoint, token, hcmd, hd, rfl⟩
    · exact hsourced.entry d e₀ p he₀ hp₀
    · exact hinbox letter List.mem_cons_self d p hnames
    · exact hverified letter rfl endpoint token hcmd d hd
  · intro letter' h
    exact hinbox letter' (List.mem_cons_of_mem _ h)
  · intro cmd todo shutdown d p h
    cases h

/-- A step names no prefix that was not named before, but for the hint that it notes. -/
theorem sourced_step (hsourced : s.Sourced O) (hs : system.step l s = some s')
    (hnoted : ∀ d p, noted (s, l) = some (p, d) → O d p)
    (hproduced : l.produced.any PeerCommand.isPeripherals = false) : s'.Sourced O := by
  cases l with
  | event ev =>
      simp only [system, step] at hs
      split at hs
      · -- the event notes a hint and makes a command; both name what it has advertised
        obtain rfl := Option.some.inj hs
        obtain ⟨htable, hnames⟩ := take_hint s.router.routing ev
        refine { hsourced with hint := ?_, pump := ?_ }
        · intro d p h
          rcases htable p with hsame | ⟨d', hev, hnew⟩
          · exact hsourced.hint d p (hsame.symm.trans h)
          · obtain rfl := Option.some.inj (hnew.symm.trans h)
            exact hnoted d' p hev
        · intro cmd h d p hcmd
          exact hnoted d p (hnames cmd h d p hcmd)
      · cases hs
  | streamEnded =>
      simp only [system, step] at hs
      split at hs
      · obtain rfl := Option.some.inj hs
        refine { hsourced with pump := ?_ }
        intro c h
        cases h
      · cases hs
  | send =>
      change s.send = _ at hs
      unfold send at hs
      split at hs
      · rename_i previous cmd hpump
        -- the parked command and the one behind it are offered one after the other
        have hcommand : s.pump.command = some cmd := congrArg Pump.command hpump
        refine sourced_offer hsourced hs (fun d p h => absurd h id) ?_
        intro c h
        obtain rfl := Option.some.inj h
        exact hsourced.pump cmd hcommand
      · rename_i cmd hpump
        have hcommand : s.pump.command = some cmd := congrArg Pump.command hpump
        refine sourced_offer hsourced hs (hsourced.pump cmd hcommand) ?_
        intro c h
        cases h
      · cases hs
  | produce letter =>
      simp only [system, step] at hs
      split at hs
      · cases hs
      · rename_i hpumps
        obtain ⟨a, ha, rfl⟩ := Option.map_eq_some_iff.mp hs
        obtain rfl := Actor.produce_eq ha
        refine { hsourced with inbox := ?_ }
        intro letter' h d p hnames
        rcases List.mem_append.mp h with hold | hnew
        · exact hsourced.inbox letter' hold d p hnames
        · -- an advertisement is the pump's, a subscription the peripheral's
          rw [List.mem_singleton.mp hnew] at hnames
          cases hcmd : letter.cmd with
          | advertised q d' rssi => exact absurd (congrArg PeerCommand.isPumps hcmd) hpumps
          | peripheralClientSubscribed d' c q =>
              have hno : letter.cmd.isPeripherals = false := hproduced
              rw [hcmd] at hno
              cases hno
          | _ =>
              rw [hcmd] at hnames
              exact absurd hnames id
  | lookUp =>
      change s.lookUp = _ at hs
      unfold lookUp at hs
      split at hs
      · rename_i endpoint token pipe rest _ hinbox _
        obtain rfl := Option.some.inj hs
        refine { hsourced with inbox := ?_ }
        intro letter h
        refine hsourced.inbox letter ?_
        rw [hinbox]
        exact List.mem_cons_of_mem _ h
      · cases hs
  | verify io =>
      change s.verify io = _ at hs
      unfold verify at hs
      split at hs
      · cases hs
      · rename_i v hv
        have hinbox : ∀ letter ∈ Letter.mk (.verifiedEndpoint v.endpoint v.token) none ::
            s.actor.inbox, ∀ d p, letter.cmd.Names d p → O d p := by
          intro letter h d p hnames
          rcases List.mem_cons.mp h with rfl | hold
          · exact absurd hnames id
          · exact hsourced.inbox letter hold d p hnames
        split at hs
        · rename_i hdevice
          obtain ⟨a, ha, rfl⟩ := Option.map_eq_some_iff.mp hs
          have hpopped := sourced_pop hsourced ha hinbox fun letter h endpoint token hcmd d hd => by
            rw [hdevice] at hd
            cases hd
          exact { hpopped with }
        · rename_i device hdevice
          obtain ⟨a, ha, rfl⟩ := Option.map_eq_some_iff.mp hs
          have horigin : O device (prefixFromEndpoint v.endpoint) := by
            refine hnoted device _ ?_
            simp only [noted, hv, hdevice, Option.bind_some, Option.map_some]
          have hpopped := sourced_pop hsourced ha hinbox ?_
          · refine { hpopped with hint := ?_ }
            intro d p h
            rcases Routing.lookup_noteScanHint (prefixFromEndpoint v.endpoint) device
              s.router.routing p with hsame | ⟨rfl, hnew⟩
            · exact hsourced.hint d p (hsame.symm.trans h)
            · obtain rfl := Option.some.inj (hnew.symm.trans h)
              exact horigin
          · intro letter h endpoint token hcmd d hd
            obtain rfl := Option.some.inj h
            obtain ⟨rfl, rfl⟩ := PeerCommand.verifiedEndpoint.inj hcmd
            obtain rfl := Option.some.inj (hdevice.symm.trans hd)
            exact horigin
  | pop io =>
      change s.pop io = _ at hs
      unfold pop at hs
      split at hs
      · cases hs
      · cases hs
      · obtain ⟨a, ha, rfl⟩ := Option.map_eq_some_iff.mp hs
        have ha : { s.actor with inbox := s.actor.inbox }.pop io none none = some a := ha
        refine sourced_pop hsourced ha hsourced.inbox ?_
        intro letter h endpoint token hcmd d hd
        cases hd
  | execute =>
      obtain ⟨a, ha, rfl⟩ := Option.map_eq_some_iff.mp hs
      rcases Actor.execute_cases ha with ⟨stop, -, rfl⟩ | ⟨_, _, _, _, _, _, _, _, _, -, rfl⟩ |
        ⟨_, _, _, -, -, rfl⟩
      · refine { hsourced with actor := ?_ }
        intro cmd todo shutdown d p h
        cases stop <;> cases h
      · -- what the actor sends to itself is a `DataPipeReady`
        refine { hsourced with actor := ?_ }
        intro cmd todo shutdown d p h
        obtain ⟨rfl, -, -⟩ := Loop.sending.inj h
        exact id
      · refine { hsourced with actor := ?_ }
        intro cmd todo shutdown d p h
        cases h
  | sent =>
      obtain ⟨a, ha, rfl⟩ := Option.map_eq_some_iff.mp hs
      obtain ⟨cmd, todo, shutdown, hloop, -, rfl⟩ := Actor.sent_cases ha
      refine { hsourced with inbox := ?_, actor := ?_ }
      · intro letter h d p hnames
        rcases List.mem_append.mp h with hold | hnew
        · exact hsourced.inbox letter hold d p hnames
        · rw [List.mem_singleton.mp hnew] at hnames
          exact absurd hnames (hsourced.actor cmd todo shutdown d p hloop)
      · intro cmd' todo' shutdown' d p h
        cases h
  | reorder ks =>
      obtain ⟨a, ha, rfl⟩ := Option.map_eq_some_iff.mp hs
      obtain ⟨reg, hreg, rfl⟩ := Option.map_eq_some_iff.mp ha
      refine { hsourced with entry := ?_ }
      intro d e p he hp
      exact hsourced.entry d e p ((peer_reorder hreg d).symm.trans he) hp
  | route rl =>
      simp only [system, step] at hs
      split at hs
      · cases hs
      · rename_i hhint
        obtain ⟨router, hrouter, rfl⟩ := Option.map_eq_some_iff.mp hs
        refine { hsourced with hint := ?_ }
        intro d p h
        rcases Router.scanHint_of_step hrouter p with hsame | ⟨d', rfl, -⟩
        · exact hsourced.hint d p (hsame.symm.trans h)
        · exact absurd rfl hhint

end Sourced

end Discovery

/-! ## The pumps -/

/-- `blew::peripheral::PeripheralStateEvent`. -/
inductive PeripheralStateEvent where
  | adapterStateChanged (powered : Bool)
  | subscriptionChanged (clientId : DeviceId) (charUuid : Uuid) (subscribed : Bool)
  /-- An event the pump does not handle. -/
  | other

/-- `blew::peripheral::PeripheralRequest`. -/
inductive PeripheralRequest where
  | write (clientId : DeviceId) (value : Bytes)
  | read (charUuid : Uuid)
  /-- A request the pump rejects. -/
  | other

/-- What `run_peripheral_state_events` sends. -/
def PeripheralStateEvent.command (r : Routing) : PeripheralStateEvent → Option PeerCommand
  | .adapterStateChanged powered => some (.adapterStateChanged powered)
  | .subscriptionChanged clientId charUuid true =>
    some (.peripheralClientSubscribed clientId charUuid (r.prefixForDevice clientId))
  | .subscriptionChanged clientId charUuid false =>
    some (.peripheralClientUnsubscribed clientId charUuid)
  | .other => none

/-- What `run_peripheral_requests` sends. A read is answered on the spot. -/
def PeripheralRequest.command : PeripheralRequest → Option PeerCommand
  | .write clientId value => some (.inboundGattFragment clientId .peripheralReceivedC2p value)
  | .read _ => none
  | .other => none

/-- What `run_l2cap_accept` sends; `none` is an error of the listener, which it logs. -/
def acceptedCommand : Option (DeviceId × L2capChannel) → Option PeerCommand
  | some (deviceId, channel) => some (.inboundL2capChannel deviceId channel)
  | none => none

/-- The tasks that take the events of the peripheral. -/
inductive Side where
  | stateEvents
  | requests
  /-- The loop of the listener that was started as the `n`th. -/
  | accept (n : ℕ)
deriving DecidableEq

/-- A task that feeds the inbox beside the central's pump: it waits for its stream or for a slot.
-/
inductive SidePump where
  | waiting
  /-- Awaiting a slot of the inbox for `cmd`. -/
  | sending (cmd : PeerCommand)
  | ended

/-- The central's side with the tasks of the peripheral. -/
structure Pumps where
  discovery : Discovery
  sides : Side → SidePump := fun _ => .waiting

/-- The steps of the system: those below, an item of a stream, and a send that gets its slot. -/
inductive PumpsLabel where
  | discovery (l : DiscoveryLabel)
  | stateEvent (ev : PeripheralStateEvent)
  | request (req : PeripheralRequest)
  | accepted (n : ℕ) (result : Option (DeviceId × L2capChannel))
  /-- The stream of a task ends. -/
  | streamEnded (side : Side)
  /-- The send that a task awaits completes. -/
  | send (side : Side)

namespace Pumps

/-- One event, up to the first await. -/
def take (side : Side) (cmd : Option PeerCommand) (s : Pumps) : Option Pumps :=
  match s.sides side, cmd with
  | .waiting, some cmd => some { s with sides := Function.update s.sides side (.sending cmd) }
  | .waiting, none => some s
  | _, _ => none

/-- `inbox.send`; with the actor gone the task shuts down. -/
def send (side : Side) (s : Pumps) : Option Pumps :=
  match s.sides side with
  | .sending cmd =>
    match s.discovery.actor.loop with
    | .stopped => some { s with sides := Function.update s.sides side .ended }
    | _ => (Actor.step (.produce { cmd := cmd }) s.discovery.actor).map fun actor =>
        { discovery := { s.discovery with actor := actor }
          sides := Function.update s.sides side .waiting }
  | _ => none

/-- One step; the commands of the peripheral come from its own tasks here. -/
def step : PumpsLabel → Pumps → Option Pumps
  | .discovery l, s =>
    -- commands of the peripheral do not come from outside any more
    if l.produced.any PeerCommand.isPeripherals then none
    else (Discovery.step l s.discovery).map fun discovery => { s with discovery := discovery }
  | .stateEvent ev, s => s.take .stateEvents (ev.command s.discovery.router.routing)
  | .request req, s => s.take .requests req.command
  | .accepted n result, s => s.take (.accept n) (acceptedCommand result)
  | .streamEnded side, s =>
    match s.sides side with
    | .waiting => some { s with sides := Function.update s.sides side .ended }
    | _ => none
  | .send side, s => s.send side

/-- The pumps as a transition system. -/
def system : System Pumps PumpsLabel where
  Init s := ∃ d, Discovery.system.Init d ∧ s = { discovery := d }
  step := step

/-! ## Where a prefix comes from -/

/-- The device `d` has advertised the prefix `p`. -/
def Advertised (d : DeviceId) (p : KeyPrefix) (x : Pumps × PumpsLabel) : Prop :=
  ∃ services rssi, x.2 = .discovery (.event (.deviceDiscovered d services rssi)) ∧
    extractPrefixFromServices services = some p

/-- A handshake over a pipe of `d` has proven an endpoint with the prefix `p`. -/
def Authenticated (d : DeviceId) (p : KeyPrefix) (x : Pumps × PumpsLabel) : Prop :=
  ∃ io v, x.2 = .discovery (.verify io) ∧ x.1.discovery.verifying = some v ∧
    v.device = some d ∧ prefixFromEndpoint v.endpoint = p

/-- The device has advertised the prefix, or a handshake over one of its pipes has proven it. -/
def Origin (h : List (Pumps × PumpsLabel)) (d : DeviceId) (p : KeyPrefix) : Prop :=
  ∃ x ∈ h, Advertised d p x ∨ Authenticated d p x

/-- Whatever names a prefix in a state has an origin in `O`. -/
structure Sourced (O : DeviceId → KeyPrefix → Prop) (s : Pumps) : Prop where
  discovery : s.discovery.Sourced O
  side : ∀ side cmd, s.sides side = .sending cmd → ∀ d p, cmd.Names d p → O d p

section Steps

variable {O : DeviceId → KeyPrefix → Prop} {s s' : Pumps} {l : PumpsLabel}

theorem Sourced.mono {O' : DeviceId → KeyPrefix → Prop} (hO : ∀ d p, O d p → O' d p)
    (hsourced : s.Sourced O) : s.Sourced O' where
  discovery := hsourced.discovery.mono hO
  side side cmd h d p hnames := hO d p (hsourced.side side cmd h d p hnames)

/-- A hint is noted for an advertisement or for a handshake. -/
theorem origin_of_noted {l : DiscoveryLabel} {d : DeviceId} {p : KeyPrefix}
    (h : Discovery.noted (s.discovery, l) = some (p, d)) :
    Advertised d p (s, .discovery l) ∨ Authenticated d p (s, .discovery l) := by
  cases l with
  | event ev =>
      cases ev with
      | deviceDiscovered device services rssi =>
          obtain ⟨q, hextract, hpair⟩ := Option.map_eq_some_iff.mp h
          obtain ⟨rfl, rfl⟩ := Prod.mk.inj hpair
          exact .inl ⟨services, rssi, rfl, hextract⟩
      | _ => cases h
  | verify io =>
      obtain ⟨v, hv, hnoted⟩ := Option.bind_eq_some_iff.mp h
      obtain ⟨device, hdevice, hpair⟩ := Option.map_eq_some_iff.mp hnoted
      obtain ⟨hkey, rfl⟩ := Prod.mk.inj hpair
      exact .inr ⟨io, v, rfl, hv, hdevice, hkey⟩
  | _ => cases h

/-- A waiting task takes an item, and has a command to send where the item makes one. -/
theorem take_cases {side : Side} {cmd : Option PeerCommand} (hs : s.take side cmd = some s') :
    s.sides side = .waiting ∧ (cmd = none ∧ s' = s ∨ ∃ c, cmd = some c ∧
      s' = { s with sides := Function.update s.sides side (.sending c) }) := by
  unfold take at hs
  split at hs
  · rename_i c hwaiting
    exact ⟨hwaiting, .inr ⟨c, rfl, (Option.some.inj hs).symm⟩⟩
  · rename_i hwaiting
    exact ⟨hwaiting, .inl ⟨rfl, (Option.some.inj hs).symm⟩⟩
  · cases hs

/-- A send gets its slot, or ends the task where the actor has stopped. -/
theorem send_cases {side : Side} (hs : s.send side = some s') :
    ∃ cmd, s.sides side = .sending cmd ∧
      (s.discovery.actor.loop = .stopped ∧
          s' = { s with sides := Function.update s.sides side .ended } ∨
        s' = {
          discovery := { s.discovery with
            actor := { s.discovery.actor with inbox := s.discovery.actor.inbox ++ [{ cmd := cmd }] } }
          sides := Function.update s.sides side .waiting }) := by
  unfold send at hs
  split at hs
  · rename_i cmd hsending
    refine ⟨cmd, hsending, ?_⟩
    split at hs
    · rename_i hstopped
      exact .inl ⟨hstopped, (Option.some.inj hs).symm⟩
    · obtain ⟨actor, hactor, rfl⟩ := Option.map_eq_some_iff.mp hs
      obtain rfl := Actor.produce_eq hactor
      exact .inr rfl
  · cases hs

/-- An event of the peripheral brings in no prefix of its own. -/
theorem sourced_take {side : Side} {cmd : Option PeerCommand} (hsourced : s.Sourced O)
    (hs : s.take side cmd = some s')
    (hcmd : ∀ c, cmd = some c → ∀ d p, c.Names d p → O d p) : s'.Sourced O := by
  rcases (take_cases hs).2 with ⟨-, rfl⟩ | ⟨c, hc, rfl⟩
  · exact hsourced
  · refine { hsourced with side := ?_ }
    intro side' c' h d p hnames
    by_cases hside : side' = side
    · subst hside
      have hnow : SidePump.sending c = .sending c' := (Function.update_self ..).symm.trans h
      obtain rfl := SidePump.sending.inj hnow
      exact hcmd c hc d p hnames
    · have hbefore : s.sides side' = .sending c' := (Function.update_of_ne hside ..).symm.trans h
      exact hsourced.side side' c' hbefore d p hnames

/-- What a task still sends is left as it is, where another one moves on. -/
theorem side_update {side : Side} {pump : SidePump} (hsourced : s.Sourced O)
    (hpump : ∀ cmd, pump ≠ .sending cmd) : ∀ side' cmd,
      Function.update s.sides side pump side' = .sending cmd → ∀ d p, cmd.Names d p → O d p := by
  intro side' cmd h
  by_cases hside : side' = side
  · subst hside
    exact absurd ((Function.update_self ..).symm.trans h) (hpump cmd)
  · exact hsourced.side side' cmd ((Function.update_of_ne hside ..).symm.trans h)

/-- A send of a peripheral's task names what the task held. -/
theorem sourced_send {side : Side} (hsourced : s.Sourced O) (hs : s.send side = some s') :
    s'.Sourced O := by
  obtain ⟨cmd, hsending, ⟨-, rfl⟩ | rfl⟩ := send_cases hs
  · exact { hsourced with side := side_update hsourced fun _ => SidePump.noConfusion }
  · refine ⟨{ hsourced.discovery with inbox := ?_ }, ?_⟩
    · intro letter h
      rcases List.mem_append.mp h with hold | hnew
      · exact hsourced.discovery.inbox letter hold
      · rw [List.mem_singleton.mp hnew]
        exact hsourced.side side cmd hsending
    · exact side_update hsourced fun _ => SidePump.noConfusion

/-- One step of all pumps: what it names is advertised or authenticated in that step, or had an
origin before. -/
theorem sourced_step (hsourced : s.Sourced O) (hs : system.step l s = some s')
    (horigin : ∀ d p, Advertised d p (s, l) ∨ Authenticated d p (s, l) → O d p) : s'.Sourced O := by
  cases l with
  | discovery l =>
      simp only [system, step] at hs
      split at hs
      · cases hs
      · rename_i hproduced
        obtain ⟨discovery, hdiscovery, rfl⟩ := Option.map_eq_some_iff.mp hs
        refine { hsourced with discovery := ?_ }
        refine Discovery.sourced_step hsourced.discovery hdiscovery ?_ (eq_false_of_ne_true hproduced)
        intro d p h
        exact horigin d p (origin_of_noted h)
  | stateEvent ev =>
      refine sourced_take hsourced hs ?_
      intro c hc d p hnames
      cases ev with
      | adapterStateChanged powered =>
          obtain rfl := Option.some.inj hc
          exact absurd hnames id
      | subscriptionChanged clientId charUuid subscribed =>
          cases subscribed with
          | false =>
              obtain rfl := Option.some.inj hc
              exact absurd hnames id
          | true =>
              -- the prefix is one that the table has for the client
              obtain rfl := Option.some.inj hc
              obtain ⟨rfl, hfound⟩ := hnames
              exact hsourced.discovery.hint _ p (Routing.lookup_of_prefixForDevice hfound)
      | other => cases hc
  | request req =>
      refine sourced_take hsourced hs ?_
      intro c hc d p hnames
      cases req with
      | write clientId value =>
          obtain rfl := Option.some.inj hc
          exact absurd hnames id
      | read charUuid => cases hc
      | other => cases hc
  | accepted n result =>
      refine sourced_take hsourced hs ?_
      intro c hc d p hnames
      cases result with
      | none => cases hc
      | some accepted =>
          obtain rfl := Option.some.inj hc
          exact absurd hnames id
  | streamEnded side =>
      simp only [system, step] at hs
      split at hs
      · obtain rfl := Option.some.inj hs
        exact { hsourced with side := side_update hsourced fun _ => SidePump.noConfusion }
      · cases hs
  | send side => exact sourced_send hsourced hs

end Steps

/-- In every run whatever names a prefix has an origin in the run. -/
theorem sourced_of_run {h : List (Pumps × PumpsLabel)} {s : Pumps} (hrun : system.Run h s) :
    s.Sourced (Origin h) := by
  induction hrun with
  | init hs =>
      obtain ⟨d, ⟨policy, self, rfl⟩, rfl⟩ := hs
      refine ⟨⟨?_, ?_, ?_, ?_, ?_⟩, ?_⟩
      · intro d e p he
        cases he
      · intro d p h
        cases h
      · intro letter h
        cases h
      · intro cmd todo shutdown d p h
        cases h
      · intro cmd h
        cases h
      · intro side cmd h
        cases h
  | @step h s s' l _ hs ih =>
      have hkept : s.Sourced (Origin (h ++ [(s, l)])) := by
        refine ih.mono ?_
        rintro d p ⟨x, hx, hfrom⟩
        exact ⟨x, List.mem_append_left _ hx, hfrom⟩
      refine sourced_step hkept hs ?_
      intro d p hfrom
      exact ⟨(s, l), List.mem_append_right _ (List.mem_singleton_self _), hfrom⟩

/-- In every interleaving of the event tasks with the actor and the users of the routing table, an
entry is known by a prefix, and a device hinted for one, only where that device has advertised the
prefix or a handshake over one of its pipes has proven an endpoint with it. -/
theorem prefix_origin {h : List (Pumps × PumpsLabel)} {s : Pumps} (hrun : system.Run h s) :
    (∀ d e p, s.discovery.actor.reg.peer d = some e → e.keyPrefix = some p → Origin h d p) ∧
      ∀ d p, s.discovery.router.routing.scanHintForPrefix p = some d → Origin h d p := by
  constructor
  · exact (sourced_of_run hrun).discovery.entry
  · exact (sourced_of_run hrun).discovery.hint

theorem init_new (policy : L2capPolicy) (self : EndpointId) :
    system.Init { discovery := { actor := .new policy self, router := { self := self } } } :=
  ⟨_, Discovery.init_new policy self, rfl⟩

/-- A peer subscribes between its discovery and the `Advertised` of it. -/
def overtakenRun : List PumpsLabel :=
  [.discovery (.event (Discovery.discovered "old")), .stateEvent (.subscriptionChanged "old" 1 true),
    .send .stateEvents, .discovery (.pop (ioAt 0))]

/-- The entry has the prefix before the registry has heard of the advertisement. -/
theorem prefix_origin_overtakenRun : ∃ h s, system.Run h s ∧ h.map Prod.snd = overtakenRun ∧
    (s.discovery.actor.reg.peer "old").bind PeerEntry.keyPrefix = some peerPrefix ∧
    Origin h "old" peerPrefix := by
  obtain ⟨h, s, hrun, hlabels, hkey⟩ := System.Run.of_trace
    (P := fun _ s => (s.discovery.actor.reg.peer "old").bind PeerEntry.keyPrefix = some peerPrefix)
    overtakenRun (init_new .disabled localEndpoint) (by decide +kernel)
  obtain ⟨e, he, hp⟩ := Option.bind_eq_some_iff.mp hkey
  exact ⟨h, s, hrun, hlabels, hkey, (prefix_origin hrun).1 "old" e peerPrefix he hp⟩

end Pumps

end IrohBle
