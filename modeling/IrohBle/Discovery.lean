import IrohBle.Actor
import IrohBle.Registry.Forgotten
import IrohBle.Routing.Router

/-! # Discovery: from a scan to an entry that can be dialled

`run_central_events` turns the central's events into commands. A discovered device is noted as the
scan hint of its prefix first, and where the hint pointed to another device before, that one is
forgotten: `Forget` and then `Advertised` go to the registry's inbox. `Registry::run` does the same
when a handshake verifies an endpoint on a device that is not the hinted one.

* The pump, the actor and the other users of the routing table take turns. The pump awaits a slot
  of the inbox for each command, and in between anybody else may move.
* Nobody else sends `Forget` or `Advertised`.
* `dialable_iff`: a discovered device can be dialled, unless a hint has been moved away from it
  earlier and the tombstone of that time still stands.
* `flipped_back_ignored`: a hint that moves to another device and back.
-/

namespace IrohBle

open Lib Reliable Registry

/-! ## The pump -/

/-- A 128-bit service uuid, as an advertisement carries it. -/
structure ServiceUuid where
  bytes : Bytes
  length_eq : bytes.length = 16
deriving DecidableEq

/-- The magic bytes `69 72 6f 00`, and after them the prefix. -/
def extractPrefixFromServices : List ServiceUuid → Option KeyPrefix
  | [] => none
  | svc :: services =>
    if svc.bytes.take 4 = [0x69, 0x72, 0x6f, 0x00] then
      some ⟨svc.bytes.drop 4, by simp [svc.length_eq, keyPrefixLen]⟩
    else extractPrefixFromServices services

/-- The service that a node advertises. -/
def irohKeyUuid (endpoint : EndpointId) : ServiceUuid where
  bytes := [0x69, 0x72, 0x6f, 0x00] ++ endpoint.bytes.take keyPrefixLen
  length_eq := by simp [endpoint.length_eq, keyPrefixLen]

/-- What a node advertises is what a scan finds, whatever services without the magic come first. -/
theorem extractPrefix_irohKeyUuid (before after : List ServiceUuid) (endpoint : EndpointId)
    (hbefore : ∀ svc ∈ before, svc.bytes.take 4 ≠ [0x69, 0x72, 0x6f, 0x00]) :
    extractPrefixFromServices (before ++ irohKeyUuid endpoint :: after) =
      some (prefixFromEndpoint endpoint) := by
  induction before with
  | nil => rfl
  | cons svc before ih =>
      rw [List.cons_append, extractPrefixFromServices, if_neg (hbefore svc List.mem_cons_self)]
      exact ih fun svc' hsvc' => hbefore svc' (List.mem_cons_of_mem _ hsvc')

/-- What a scan finds was advertised. -/
theorem mem_of_extractPrefix {services : List ServiceUuid} {p : KeyPrefix}
    (h : extractPrefixFromServices services = some p) :
    ∃ svc ∈ services, svc.bytes = [0x69, 0x72, 0x6f, 0x00] ++ p.bytes := by
  induction services with
  | nil => cases h
  | cons svc services ih =>
      rw [extractPrefixFromServices] at h
      split at h
      · rename_i hmagic
        obtain rfl := Option.some.inj h
        refine ⟨svc, List.mem_cons_self, ?_⟩
        rw [← hmagic]
        exact (List.take_append_drop 4 svc.bytes).symm
      · obtain ⟨svc', hmem, hsvc'⟩ := ih h
        exact ⟨svc', List.mem_cons_of_mem _ hmem, hsvc'⟩

/-- `blew::central::CentralEvent`. -/
inductive CentralEvent where
  | deviceDiscovered (device : DeviceId) (services : List ServiceUuid) (rssi : Option Int)
  | deviceConnected (device : DeviceId)
  | deviceDisconnected (device : DeviceId) (cause : DisconnectCause)
  | characteristicNotification (device : DeviceId) (value : Bytes)
  | adapterStateChanged (powered : Bool)
  /-- An event the pump does not handle. -/
  | other

/-- Where `run_central_events` is. -/
inductive Pump where
  /-- In `events.next`. -/
  | waiting
  /-- Awaiting a slot for the `Forget` of `previous`; `cmd` comes after it. -/
  | forgetting (previous : DeviceId) (cmd : PeerCommand)
  /-- Awaiting a slot for `cmd`. -/
  | sending (cmd : PeerCommand)
  | ended

/-- The hint an event makes the pump note. -/
def CentralEvent.hint : CentralEvent → Option (KeyPrefix × DeviceId)
  | .deviceDiscovered device services _ =>
    (extractPrefixFromServices services).map fun p => (p, device)
  | _ => none

/-- One event, up to the first await. -/
def Pump.take (r : Routing) : CentralEvent → Routing × Pump
  | .deviceDiscovered device services rssi =>
    match extractPrefixFromServices services with
    | none => (r, .waiting)
    | some p =>
      match r.noteScanHint p device with
      | (r, .unchanged) => (r, .sending (.advertised p device rssi))
      | (r, .new) => (r, .sending (.advertised p device rssi))
      -- a different device id for the same key: the old one is forgotten first
      | (r, .replaced previous) => (r, .forgetting previous (.advertised p device rssi))
      -- the prefix has a live pipe elsewhere, so the sighting is dropped
      | (r, .activelyBound _) => (r, .waiting)
  | .deviceConnected device => (r, .sending (.centralConnected device))
  | .deviceDisconnected device cause => (r, .sending (.centralDisconnected device cause))
  | .characteristicNotification device value =>
    (r, .sending (.inboundGattFragment device .centralReceivedP2c value))
  | .adapterStateChanged powered => (r, .sending (.adapterStateChanged powered))
  -- events the pump only logs
  | .other => (r, .waiting)

/-! ## The system -/

/-- A `VerifiedEndpoint` that the actor has taken, and the device of its pipe. -/
structure Verifying where
  endpoint : EndpointId
  token : Option ℕ
  device : Option DeviceId

/-- The pump, the actor and the table. `verifying` is the handshake that the actor is looking up.
-/
structure Discovery where
  actor : Actor
  router : Router
  pump : Pump := .waiting
  verifying : Option Verifying := none

/-- The pump and the actor move step by step; everybody else, in one step for each lock or
message. -/
inductive DiscoveryLabel where
  | event (ev : CentralEvent)
  /-- The event stream ends. -/
  | streamEnded
  /-- The send that the pump awaits completes. -/
  | send
  /-- Any other producer. -/
  | produce (letter : Letter ℕ)
  /-- The actor takes a `VerifiedEndpoint` and looks up the device of the pipe. -/
  | lookUp
  /-- It notes the hint and handles the command. -/
  | verify (io : Io)
  /-- It takes any other command and handles it. -/
  | pop (io : Io)
  | execute
  | sent
  | reorder (ks : List DeviceId)
  /-- Any other operation on the routing table. -/
  | route (l : RouterLabel)

/-- Only the pump sends these. -/
def PeerCommand.isPumps : PeerCommand → Bool
  | .forget _ => true
  | .advertised .. => true
  | _ => false

/-- `note_scan_hint`, which the pump and `run` call. -/
def RouterLabel.isHint : RouterLabel → Bool
  | .noteScanHint .. => true
  | _ => false

/-- The device that a hint has been taken away from. -/
def ScanHintUpdate.previous? : ScanHintUpdate → Option DeviceId
  | .replaced previous => some previous
  | _ => none

namespace Discovery

/-- `inbox.send`; with the actor gone the pump shuts down. -/
def offer (cmd : PeerCommand) (next : Pump) (s : Discovery) : Option Discovery :=
  match s.actor.loop with
  | .stopped => some { s with pump := .ended }
  | _ => (Actor.step (.produce { cmd := cmd }) s.actor).map fun actor =>
      { s with actor := actor, pump := next }

/-- The command awaited gets its slot. -/
def send (s : Discovery) : Option Discovery :=
  match s.pump with
  | .forgetting previous cmd => s.offer (.forget previous) (.sending cmd)
  | .sending cmd => s.offer cmd .waiting
  | _ => none

/-- The actor has `VerifiedEndpoint` in hand and asks the table for the pipe's device. -/
def lookUp (s : Discovery) : Option Discovery :=
  match s.actor.loop, s.actor.inbox, s.verifying with
  | .recv, ⟨.verifiedEndpoint endpoint token, _⟩ :: rest, none =>
    let device := token.bind fun t => s.router.routing.deviceForPipe ⟨t⟩
    some { s with
      actor := { s.actor with inbox := rest }
      verifying := some ⟨endpoint, token, device⟩ }
  | _, _, _ => none

/-- What the actor does with the `VerifiedEndpoint` in hand. -/
def verified (io : Io) (v : Verifying) (replaced : Option DeviceId) (s : Discovery) : Option Actor :=
  let letter : Letter ℕ := { cmd := .verifiedEndpoint v.endpoint v.token }
  { s.actor with inbox := letter :: s.actor.inbox }.pop io v.device replaced

/-- It notes the hint and handles the command, after a `Forget` where the hint has moved. -/
def verify (io : Io) (s : Discovery) : Option Discovery :=
  match s.verifying with
  | none => none
  | some v =>
    match v.device with
    -- the pipe is gone by now: verified all the same, without a device
    | none =>
      (s.verified io v none).map fun actor => { s with actor := actor, verifying := none }
    | some device =>
      match s.router.routing.noteScanHint (prefixFromEndpoint v.endpoint) device with
      | (routing, update) =>
        (s.verified io v update.previous?).map fun actor =>
          { s with
            actor := actor
            router := { s.router with routing := routing }
            verifying := none }

/-- The command the actor takes next, if it is not at one. -/
def next (s : Discovery) : Option PeerCommand :=
  match s.verifying with
  | some _ => none
  | none => s.actor.inbox.head?.map Letter.cmd

/-- Every other command is handled at once. -/
def pop (io : Io) (s : Discovery) : Option Discovery :=
  match s.next with
  | none => none
  | some (.verifiedEndpoint ..) => none
  | some _ => (s.actor.pop io none none).map fun actor => { s with actor := actor }

/-- Any interleaving is a run. -/
def step : DiscoveryLabel → Discovery → Option Discovery
  | .event ev, s =>
    match s.pump with
    | .waiting =>
      match Pump.take s.router.routing ev with
      | (routing, pump) =>
        some { s with router := { s.router with routing := routing }, pump := pump }
    | _ => none
  | .streamEnded, s =>
    match s.pump with
    | .waiting => some { s with pump := .ended }
    | _ => none
  | .send, s => s.send
  | .produce letter, s =>
    if letter.cmd.isPumps then none
    else (Actor.step (.produce letter) s.actor).map fun actor => { s with actor := actor }
  | .lookUp, s => s.lookUp
  | .verify io, s => s.verify io
  | .pop io, s => s.pop io
  | .execute, s => (Actor.step .execute s.actor).map fun actor => { s with actor := actor }
  | .sent, s => (Actor.step .sent s.actor).map fun actor => { s with actor := actor }
  | .reorder ks, s => (Actor.step (.reorder ks) s.actor).map fun actor => { s with actor := actor }
  -- hints are noted by the pump and by the actor here
  | .route l, s =>
    if l.isHint then none
    else (Router.step l s.router).map fun router => { s with router := router }

/-- Nothing has been seen. -/
def system : System Discovery DiscoveryLabel where
  Init s := ∃ policy self, s = { actor := .new policy self, router := { self := self } }
  step := step

/-! ## Where a `Forget` comes from -/

/-- The command that a step handles. -/
def handled (x : Discovery × DiscoveryLabel) : Option PeerCommand :=
  match x.2 with
  | .pop _ => x.1.next
  | .verify _ => x.1.verifying.map fun v => .verifiedEndpoint v.endpoint v.token
  | _ => none

/-- The device whose `Advertised` a step handles. -/
def heard (x : Discovery × DiscoveryLabel) : Option DeviceId :=
  match handled x with
  | some (.advertised _ d _) => some d
  | _ => none

/-- The hint that a step notes. -/
def noted (x : Discovery × DiscoveryLabel) : Option (KeyPrefix × DeviceId) :=
  match x.2 with
  | .event ev => ev.hint
  | .verify _ =>
    x.1.verifying.bind fun v => v.device.map fun device => (prefixFromEndpoint v.endpoint, device)
  | _ => none

/-- The device that a step takes a hint away from. -/
def deserted (x : Discovery × DiscoveryLabel) : Option DeviceId :=
  (noted x).bind fun n => (x.1.router.routing.noteScanHint n.1 n.2).2.previous?

/-- A hint has been moved away from `d`. -/
def Deserted (d : DeviceId) (h : List (Discovery × DiscoveryLabel)) : Prop :=
  ∃ x ∈ h, deserted x = some d

/-- `d` is forgotten, or about to be. -/
inductive Doomed (d : DeviceId) (s : Discovery) : Prop where
  | entry (h : s.actor.reg.forgotten d = true)
  | inbox (letter : Letter ℕ) (h : letter ∈ s.actor.inbox) (hcmd : letter.cmd = .forget d)
  | pump (cmd : PeerCommand) (h : s.pump = .forgetting d cmd)

/-- Neither what the pump sends last nor what the actor sends is a `Forget`. -/
structure Plain (s : Discovery) : Prop where
  pump : ∀ cmd d, s.pump = .sending cmd ∨ (∃ d', s.pump = .forgetting d' cmd) → cmd ≠ .forget d
  actor : ∀ cmd todo shutdown d, s.actor.loop = .sending cmd todo shutdown → cmd ≠ .forget d

section Steps

variable {s s' : Discovery} {l : DiscoveryLabel}

/-- What the pump does with an event. -/
theorem take_cases (r : Routing) (ev : CentralEvent) :
    (∀ cmd, (Pump.take r ev).2 = .sending cmd → ∀ d, cmd ≠ .forget d) ∧
      ∀ d cmd, (Pump.take r ev).2 = .forgetting d cmd → (∀ d', cmd ≠ .forget d') ∧
        ev.hint.bind (fun n => (r.noteScanHint n.1 n.2).2.previous?) = some d := by
  cases ev with
  | deviceDiscovered device services rssi =>
      simp only [Pump.take, CentralEvent.hint]
      cases hp : extractPrefixFromServices services with
      | none => simp
      | some p =>
          cases hn : r.noteScanHint p device with
          | mk r' update => cases update <;> simp +contextual [hn, ScanHintUpdate.previous?]
  | _ => simp +contextual [Pump.take]

/-- What every step has: `Forget`s come from moved hints. -/
structure Keeps (s : Discovery) (l : DiscoveryLabel) (s' : Discovery) : Prop where
  plain : s'.Plain
  doomed : ∀ d, Doomed d s' → Doomed d s ∨ deserted (s, l) = some d

/-- A step that leaves the pump alone. -/
theorem Keeps.of_actor (hplain : s.Plain) (hpump : s'.pump = s.pump)
    (hreg : ∀ d, s'.actor.reg.forgotten d = true → Doomed d s ∨ deserted (s, l) = some d)
    (hinbox : ∀ letter ∈ s'.actor.inbox, letter ∈ s.actor.inbox ∨ ∀ d, letter.cmd ≠ .forget d)
    (hloop : ∀ cmd todo shutdown, s'.actor.loop = .sending cmd todo shutdown →
      s.actor.loop = .sending cmd todo shutdown ∨ ∀ d, cmd ≠ .forget d) : Keeps s l s' where
  plain := by
    refine ⟨?_, ?_⟩
    · rw [hpump]
      exact hplain.pump
    · intro cmd todo shutdown d h
      rcases hloop cmd todo shutdown h with hold | hno
      · exact hplain.actor cmd todo shutdown d hold
      · exact hno d
  doomed := by
    intro d h
    cases h with
    | entry h => exact hreg d h
    | inbox letter h hcmd =>
        rcases hinbox letter h with hold | hno
        · exact Or.inl (.inbox letter hold hcmd)
        · exact absurd hcmd (hno d)
    | pump cmd h => exact Or.inl (.pump cmd (hpump ▸ h))

/-- A step that moves neither the pump nor the actor. -/
theorem Keeps.of_eq (hplain : s.Plain) (hpump : s'.pump = s.pump) (hactor : s'.actor = s.actor) :
    Keeps s l s' := by
  refine .of_actor hplain hpump ?_ ?_ ?_
  · intro d h
    rw [hactor] at h
    exact Or.inl (.entry h)
  · intro letter h
    rw [hactor] at h
    exact Or.inl h
  · intro cmd todo shutdown h
    rw [hactor] at h
    exact Or.inl h

/-- A step of the pump. -/
theorem Keeps.of_pump (hplain : s.Plain) (hactor : s'.actor = s.actor)
    (hsending : ∀ cmd, s'.pump = .sending cmd → ∀ d, cmd ≠ .forget d)
    (hforgetting : ∀ d cmd, s'.pump = .forgetting d cmd → (∀ d', cmd ≠ .forget d') ∧
      deserted (s, l) = some d) : Keeps s l s' where
  plain := by
    refine ⟨?_, ?_⟩
    · rintro cmd d (h | ⟨d', h⟩)
      · exact hsending cmd h d
      · exact (hforgetting d' cmd h).1 d
    · rw [hactor]
      exact hplain.actor
  doomed := by
    intro d h
    cases h with
    | entry h => exact Or.inl (.entry (hactor ▸ h))
    | inbox letter h hcmd => exact Or.inl (.inbox letter (hactor ▸ h) hcmd)
    | pump cmd h => exact Or.inr (hforgetting d cmd h).2

/-- The inbox takes the command, or is closed and ends the pump. -/
theorem offer_cases {cmd : PeerCommand} {next : Pump} (hs : s.offer cmd next = some s') :
    s' = { s with pump := .ended } ∨
      s' = { s with
        actor := { s.actor with inbox := s.actor.inbox ++ [{ cmd := cmd }] }, pump := next } := by
  unfold offer at hs
  split at hs
  · exact Or.inl (Option.some.inj hs).symm
  · rcases Option.map_eq_some_iff.mp hs with ⟨a, ha, rfl⟩
    rw [Actor.produce_eq ha]
    exact Or.inr rfl

/-- A send of the pump. -/
theorem keeps_offer {cmd : PeerCommand} {next : Pump} (hplain : s.Plain)
    (hs : s.offer cmd next = some s') (hcmd : ∀ d, cmd = .forget d → Doomed d s)
    (hnext : ∀ c, next = .sending c → ∀ d, c ≠ .forget d) (hend : ∀ d c, next ≠ .forgetting d c) :
    Keeps s .send s' := by
  rcases offer_cases hs with rfl | rfl
  · refine .of_pump hplain rfl ?_ ?_
    · intro c h
      cases h
    · intro d c h
      cases h
  · refine ⟨⟨?_, hplain.actor⟩, ?_⟩
    · rintro c d (h | ⟨d', h⟩)
      · exact hnext c h d
      · exact absurd h (hend d' c)
    · intro d h
      cases h with
      | entry h => exact Or.inl (.entry h)
      | inbox letter h hletter =>
          rcases List.mem_append.mp h with hold | hnew
          · exact Or.inl (.inbox letter hold hletter)
          · rw [List.mem_singleton.mp hnew] at hletter
            exact Or.inl (hcmd d hletter)
      | pump c h => exact absurd h (hend d c)

/-- One command of the actor. -/
theorem keeps_pop {a a' : Actor} {io : Io} {exact replaced : Option DeviceId} (hplain : s.Plain)
    (hs : a.pop io exact replaced = some a') (hreg : a.reg = s.actor.reg)
    (hhead : ∀ letter rest, a.inbox = letter :: rest →
      (∀ d, letter.cmd = .forget d → letter ∈ s.actor.inbox) ∧
        ∀ letter' ∈ rest, letter' ∈ s.actor.inbox)
    (hreplaced : ∀ d, exact.isSome = true → replaced = some d → deserted (s, l) = some d)
    (hactor : s'.actor = a') (hpump : s'.pump = s.pump) : Keeps s l s' := by
  rcases Actor.pop_cases hs with ⟨letter, rest, -, hinbox, rfl⟩
  have hletters := hhead letter rest hinbox
  refine .of_actor hplain hpump ?_ ?_ ?_
  · intro d h
    rw [hactor, hreg] at h
    rcases runCommand_forgotten h with hold | hcmd | ⟨-, hexact, hprevious⟩
    · exact Or.inl (.entry hold)
    · exact Or.inl (.inbox letter (hletters.1 d hcmd) hcmd)
    · exact Or.inr (hreplaced d hexact hprevious)
  · intro letter' h
    rw [hactor] at h
    exact Or.inl (hletters.2 letter' h)
  · intro cmd todo shutdown h
    rw [hactor] at h
    cases h

/-- A device is doomed only by a step that takes a hint away from it. -/
theorem keeps_step (hplain : s.Plain) (hs : system.step l s = some s') : Keeps s l s' := by
  cases l with
  -- the pump takes an event only when it has nothing to send
  | event ev =>
      simp only [system, step] at hs
      split at hs
      · obtain rfl := Option.some.inj hs
        rcases take_cases s.router.routing ev with ⟨hsending, hforgetting⟩
        exact .of_pump hplain rfl hsending hforgetting
      · cases hs
  | streamEnded =>
      simp only [system, step] at hs
      split at hs
      · obtain rfl := Option.some.inj hs
        refine .of_pump hplain rfl ?_ ?_
        · intro c h
          cases h
        · intro d c h
          cases h
      · cases hs
  | send =>
      -- the pump sends what it has in hand: a `Forget` dooms the device that it names
      change s.send = _ at hs
      unfold send at hs
      split at hs
      · rename_i previous cmd hpump
        refine keeps_offer hplain hs ?_ ?_ ?_
        · intro d h
          rw [PeerCommand.forget.inj h] at hpump
          exact .pump cmd hpump
        · intro c h d
          obtain rfl := Pump.sending.inj h
          exact hplain.pump _ d (Or.inr ⟨previous, hpump⟩)
        · intro d c h
          cases h
      · rename_i cmd hpump
        refine keeps_offer hplain hs ?_ ?_ ?_
        · intro d h
          exact absurd h (hplain.pump cmd d (Or.inl hpump))
        · intro c h
          cases h
        · intro d c h
          cases h
      · cases hs
  | produce letter =>
      simp only [system, step] at hs
      split at hs
      · cases hs
      · rename_i hpumps
        rcases Option.map_eq_some_iff.mp hs with ⟨a, ha, rfl⟩
        obtain rfl := Actor.produce_eq ha
        refine .of_actor hplain rfl ?_ ?_ ?_
        · intro d h
          exact Or.inl (.entry h)
        · intro letter' h
          rcases List.mem_append.mp h with hold | hnew
          · exact Or.inl hold
          · refine Or.inr ?_
            intro d hcmd
            rw [List.mem_singleton.mp hnew] at hcmd
            simp [hcmd, PeerCommand.isPumps] at hpumps
        · intro cmd todo shutdown h
          exact Or.inl h
  | lookUp =>
      change s.lookUp = _ at hs
      unfold lookUp at hs
      split at hs
      · rename_i endpoint token pipe rest _ hinbox _
        obtain rfl := Option.some.inj hs
        refine .of_actor hplain rfl ?_ ?_ ?_
        · intro d h
          exact Or.inl (.entry h)
        · intro letter h
          rw [hinbox]
          exact Or.inl (List.mem_cons_of_mem _ h)
        · intro cmd todo shutdown h
          exact Or.inl h
      · cases hs
  | verify io =>
      change s.verify io = _ at hs
      unfold verify at hs
      split at hs
      · cases hs
      · rename_i v hv
        -- the command in hand is not a `Forget`, and it is not in the inbox any more
        have hhead : ∀ letter rest, Letter.mk (.verifiedEndpoint v.endpoint v.token) none ::
            s.actor.inbox = letter :: rest →
            (∀ d, letter.cmd = .forget d → letter ∈ s.actor.inbox) ∧
              ∀ letter' ∈ rest, letter' ∈ s.actor.inbox := by
          intro letter rest h
          obtain ⟨rfl, rfl⟩ := List.cons.inj h
          refine ⟨?_, fun _ hmem => hmem⟩
          intro d hcmd
          cases hcmd
        split at hs
        · rename_i hdevice
          rcases Option.map_eq_some_iff.mp hs with ⟨a, ha, rfl⟩
          refine keeps_pop hplain ha rfl hhead ?_ rfl rfl
          intro d hexact
          rw [hdevice] at hexact
          cases hexact
        · rename_i device hdevice
          rcases Option.map_eq_some_iff.mp hs with ⟨a, ha, rfl⟩
          refine keeps_pop hplain ha rfl hhead ?_ rfl rfl
          intro d _ hprevious
          simp only [deserted, noted, hv, hdevice, Option.bind_some, Option.map_some]
          exact hprevious
  | pop io =>
      change s.pop io = _ at hs
      unfold pop at hs
      split at hs
      · cases hs
      · cases hs
      · rcases Option.map_eq_some_iff.mp hs with ⟨a, ha, rfl⟩
        refine keeps_pop hplain ha rfl ?_ ?_ rfl rfl
        · intro letter rest h
          rw [h]
          exact ⟨fun _ _ => List.mem_cons_self, fun _ hmem => List.mem_cons_of_mem _ hmem⟩
        · intro d hexact
          cases hexact
  | execute =>
      rcases Option.map_eq_some_iff.mp hs with ⟨a, ha, rfl⟩
      -- what the actor sends to itself is a `DataPipeReady`
      have hsending : ∀ cmd todo shutdown, a.loop = .sending cmd todo shutdown →
          ∀ d, cmd ≠ .forget d := by
        intro cmd todo shutdown h d
        rcases Actor.execute_cases ha with ⟨stop, -, rfl⟩ | ⟨_, _, _, _, _, _, _, _, _, -, rfl⟩ |
          ⟨_, _, _, -, -, rfl⟩
        · cases stop <;> cases h
        · obtain ⟨rfl, -, -⟩ := Loop.sending.inj h
          exact PeerCommand.noConfusion
        · cases h
      have hsame : a.reg = s.actor.reg ∧ a.inbox = s.actor.inbox := by
        rcases Actor.execute_cases ha with ⟨_, -, rfl⟩ | ⟨_, _, _, _, _, _, _, _, _, -, rfl⟩ |
          ⟨_, _, _, -, -, rfl⟩ <;> exact ⟨rfl, rfl⟩
      refine .of_actor hplain rfl ?_ ?_ ?_
      · intro d h
        rw [hsame.1] at h
        exact Or.inl (.entry h)
      · intro letter h
        rw [hsame.2] at h
        exact Or.inl h
      · intro cmd todo shutdown h
        exact Or.inr (hsending cmd todo shutdown h)
  | sent =>
      rcases Option.map_eq_some_iff.mp hs with ⟨a, ha, rfl⟩
      rcases Actor.sent_cases ha with ⟨cmd, todo, shutdown, hloop, -, rfl⟩
      refine .of_actor hplain rfl ?_ ?_ ?_
      · intro d h
        exact Or.inl (.entry h)
      · intro letter h
        rcases List.mem_append.mp h with hold | hnew
        · exact Or.inl hold
        · refine Or.inr ?_
          intro d
          rw [List.mem_singleton.mp hnew]
          exact hplain.actor cmd todo shutdown d hloop
      · intro cmd' todo' shutdown' h
        cases h
  | reorder ks =>
      rcases Option.map_eq_some_iff.mp hs with ⟨a, ha, rfl⟩
      rcases Option.map_eq_some_iff.mp ha with ⟨reg, hreg, rfl⟩
      refine .of_actor hplain rfl ?_ ?_ ?_
      · intro d h
        refine Or.inl (.entry ?_)
        unfold Registry.forgotten at h ⊢
        rw [← peer_reorder hreg d]
        exact h
      · intro letter h
        exact Or.inl h
      · intro cmd todo shutdown h
        exact Or.inl h
  | route l =>
      simp only [system, step] at hs
      split at hs
      · cases hs
      · rcases Option.map_eq_some_iff.mp hs with ⟨router, hrouter, rfl⟩
        exact .of_eq hplain rfl rfl

end Steps

/-- In every run a device that is forgotten, or about to be, has lost a hint before. -/
theorem deserted_of_run {h : List (Discovery × DiscoveryLabel)} {s : Discovery}
    (hrun : system.Run h s) : s.Plain ∧ ∀ d, Doomed d s → Deserted d h := by
  induction hrun with
  | init hs =>
      rcases hs with ⟨policy, self, rfl⟩
      refine ⟨⟨?_, ?_⟩, ?_⟩
      · rintro cmd d (hc | ⟨d', hc⟩) <;> cases hc
      · intro cmd todo shutdown d hc
        cases hc
      · intro d hd
        cases hd with
        | entry hf => cases hf
        | inbox letter hmem _ => cases hmem
        | pump cmd hp => cases hp
  | @step h s s' l _ hs ih =>
      have hkeeps := keeps_step ih.1 hs
      refine ⟨hkeeps.plain, ?_⟩
      intro d hd
      rcases hkeeps.doomed d hd with hold | hnow
      · rcases ih.2 d hold with ⟨x, hx, hd⟩
        exact ⟨x, List.mem_append_left _ hx, hd⟩
      · exact ⟨(s, l), List.mem_append_right _ (List.mem_singleton_self _), hnow⟩

/-! ## Discovered devices -/

/-- Once the commands of a discovery have been handled, the last of which is its `Advertised`, the
device can be dialled: its entry is not forgotten, and no datagram for it is turned away as such. -/
def Dialable (h : List (Discovery × DiscoveryLabel)) (s : Discovery) : Prop :=
  ∀ x ∈ h.getLast?, ∀ d ∈ heard x,
    s.actor.reg.forgotten d = false ∧ ∀ io target send, ¬ s.actor.reg.TurnsAway io d target send

/-- No `Advertised` is handled while the tombstone stands that an earlier move of a hint has
left of the device. -/
def NotStale (h : List (Discovery × DiscoveryLabel)) (s : Discovery) (l : DiscoveryLabel) : Prop :=
  ∀ d ∈ heard (s, l), ¬ (Deserted d h ∧ s.actor.reg.forgotten d = true)

/-- What was heard is what an advertisement said. -/
theorem heard_eq {x : Discovery × DiscoveryLabel} {d : DeviceId} (h : heard x = some d) :
    ∃ p rssi, handled x = some (.advertised p d rssi) := by
  unfold heard at h
  split at h
  · rename_i p d' rssi hcmd
    obtain rfl := Option.some.inj h
    exact ⟨p, rssi, hcmd⟩
  · cases h

/-- The step that handles an advertisement leaves the tombstones as they are. -/
theorem forgotten_step {s s' : Discovery} {l : DiscoveryLabel} (hs : system.step l s = some s')
    {d : DeviceId} (hd : heard (s, l) = some d) :
    s'.actor.reg.forgotten d = s.actor.reg.forgotten d := by
  rcases heard_eq hd with ⟨p, rssi, hcmd⟩
  cases l with
  | pop io =>
      change s.next = _ at hcmd
      change s.pop io = _ at hs
      unfold pop at hs
      rw [hcmd] at hs
      rcases Option.map_eq_some_iff.mp hs with ⟨a, ha, rfl⟩
      unfold Actor.pop at ha
      split at ha
      · rename_i letter rest _ hinbox
        obtain rfl := Option.some.inj ha
        have hletter : letter.cmd = .advertised p d rssi := by
          unfold next at hcmd
          split at hcmd
          · cases hcmd
          · rw [hinbox] at hcmd
            exact Option.some.inj hcmd
        change (s.actor.reg.runCommand io none none letter.cmd).reg.forgotten d = _
        rw [hletter]
        exact handle_advertised_forgotten p rssi
      · cases ha
  | verify io =>
      rcases Option.map_eq_some_iff.mp hcmd with ⟨v, -, hv⟩
      cases hv
  | _ => cases hcmd

/-- In every run, a discovered device can be dialled at once, exactly if no device is heard again
while it is still forgotten for the sake of another one. -/
theorem dialable_iff {h : List (Discovery × DiscoveryLabel)} {s : Discovery}
    (hrun : system.Run h s) : system.Always Dialable h ↔ System.Along NotStale h := by
  refine hrun.always_iff_along ?_ ?_
  · intro s _ x hlast
    cases hlast
  · intro h s l s' hr _ hs
    have hlast : (h ++ [(s, l)]).getLast? = some (s, l) := List.getLast?_concat
    constructor
    · intro hdial d hd hstale
      have hno := (hdial (s, l) hlast d hd).1
      rw [forgotten_step hs hd, hstale.2] at hno
      cases hno
    · intro hstale x hx d hd
      obtain rfl : (s, l) = x := Option.some.inj (hlast.symm.trans hx)
      have hno : s'.actor.reg.forgotten d = false := by
        rw [forgotten_step hs hd]
        cases hf : s.actor.reg.forgotten d with
        | false => rfl
        | true =>
            -- the tombstone can only be one of a hint that has moved
            have hdes := (deserted_of_run hr).2 d (.entry hf)
            exact absurd ⟨hdes, hf⟩ (hstale d hd)
      refine ⟨hno, ?_⟩
      intro io target send hturns
      rw [turnsAway_iff.mp hturns] at hno
      cases hno

instance (d : DeviceId) (h : List (Discovery × DiscoveryLabel)) : Decidable (Deserted d h) :=
  inferInstanceAs (Decidable (∃ x ∈ h, _))

instance (h : List (Discovery × DiscoveryLabel)) (s : Discovery) (l : DiscoveryLabel) :
    Decidable (NotStale h s l) :=
  inferInstanceAs (Decidable (∀ d ∈ heard (s, l), _))

theorem init_new (policy : L2capPolicy) (self : EndpointId) :
    system.Init { actor := .new policy self, router := { self := self } } := ⟨policy, self, rfl⟩

theorem peerService_length : ([0x69, 0x72, 0x6f, 0x00] ++ List.replicate 12 3 : Bytes).length = 16 :=
  rfl

/-- The service that a peer with the prefix `peerPrefix` advertises. -/
def peerService : ServiceUuid := ⟨[0x69, 0x72, 0x6f, 0x00] ++ List.replicate 12 3, peerService_length⟩

/-- The peer is seen under a device id. -/
def discovered (device : DeviceId) : CentralEvent := .deviceDiscovered device [peerService] none

/-- A peer is scanned under one device id and then under another. -/
def rotatedRun : List DiscoveryLabel :=
  [.event (discovered "old"), .send, .pop (ioAt 0), .execute,
    .event (discovered "new"), .send, .send, .pop (ioAt 1), .execute, .execute, .pop (ioAt 2), .execute]

/-- On a run: the peer's address rotates, and the new device can be dialled. -/
theorem dialable_rotatedRun : ∃ h s, system.Run h s ∧ h.map Prod.snd = rotatedRun ∧
    s.actor.reg.forgotten "old" = true ∧ (s.actor.reg.peer "new").isSome = true ∧
    system.Always Dialable h := by
  rcases System.Run.of_trace (P := fun h s => s.actor.reg.forgotten "old" = true ∧
      (s.actor.reg.peer "new").isSome = true ∧ System.Along NotStale h)
    rotatedRun (init_new .disabled localEndpoint) (by decide +kernel) with
    ⟨h, s, hrun, hlabels, hold, hnew, halong⟩
  exact ⟨h, s, hrun, hlabels, hold, hnew, (dialable_iff hrun).mpr halong⟩

/-- And then under the first one again. -/
def flippedRun : List DiscoveryLabel :=
  rotatedRun ++ [.event (discovered "old"), .send, .send, .pop (ioAt 3), .execute, .execute,
    .pop (ioAt 4)]

/-- The peer advertises as `old`, and its prefix is hinted to be there, but the entry is the
tombstone of the flip before, and a datagram for it is turned away. -/
theorem flipped_back_ignored : ∃ h s, system.Run h s ∧ h.map Prod.snd = flippedRun ∧
    h.getLast?.bind heard = some "old" ∧
    s.router.routing.scanHintForPrefix peerPrefix = some "old" ∧
    s.actor.reg.forgotten "old" = true ∧ s.actor.reg.TurnsAway (ioAt 5) "old" none ⟨0, [1], 0⟩ ∧
    ¬ system.Always Dialable h := by
  rcases System.Run.of_trace (P := fun h s => h.getLast?.bind heard = some "old" ∧
      s.router.routing.scanHintForPrefix peerPrefix = some "old" ∧
      s.actor.reg.forgotten "old" = true)
    flippedRun (init_new .disabled localEndpoint) (by decide +kernel) with
    ⟨h, s, hrun, hlabels, hheard, hhint, hf⟩
  refine ⟨h, s, hrun, hlabels, hheard, hhint, hf, turnsAway_iff.mpr hf, ?_⟩
  intro hdial
  rcases Option.bind_eq_some_iff.mp hheard with ⟨x, hx, hd⟩
  have hno := (hdial h s (List.prefix_refl h) hrun x hx "old" hd).1
  rw [hf] at hno
  cases hno

end Discovery

end IrohBle
