import IrohBle.Pumps
import IrohBle.Node.Model
import IrohBle.Lib.Locked

/-! # Restore: the peripheral after the adapter was off

An adapter that comes back may have lost the services and the advertisement of the node. Both roles
are told that it is on, the registry answers each of them with `RestorePeripheral`, and the driver
starts a task for each, which registers the services again, restarts the listener, and advertises
after that. The adapter may go off and on again in the middle of a task; the tasks make their calls
under a lock.

* `Restores`: `Pumps` with the adapter, what it tells the two roles, and the tasks of the driver.
* `restored`: the calls since the adapter has come up are those of whole restores, but for the rest
  of one that was underway. Once nothing is on its way any more, they end with a whole one.
-/

namespace IrohBle

open Lib Reliable Registry

/-! ## The calls of a restore -/

/-- What a restore calls of the peripheral. The outcome of a call does not change what comes
after it. -/
inductive PeripheralCall where
  | stopAdvertising
  | addService (svc : ServiceUuid)
  | l2capListener
  | startAdvertising
deriving DecidableEq

/-- `rebuild_server`: the advertisement stops while the services are registered again. -/
def rebuildServer (services : List ServiceUuid) : List PeripheralCall :=
  .stopAdvertising :: services.map .addService

/-- `restart_l2cap_listener`. -/
def restartL2capListener : List PeripheralCall := [.l2capListener]

/-- `restart_advertising`. -/
def restartAdvertising : List PeripheralCall := [.stopAdvertising, .startAdvertising]

/-- The task of `RestorePeripheral { restart_l2cap }`. -/
def restorePeripheral (services : List ServiceUuid) (restartL2cap : Bool) : List PeripheralCall :=
  rebuildServer services ++ (if restartL2cap then restartL2capListener else []) ++ restartAdvertising

theorem irohServiceUuid_length : ([0x69, 0x72, 0x6f, 0x01, 0x8e, 0x45, 0x4c, 0x2c, 0xb3, 0xa5, 0x33,
    0x1f, 0x30, 0x98, 0xb5, 0xc2] : Bytes).length = 16 := rfl

/-- `IROH_SERVICE_UUID`. -/
def irohServiceUuid : ServiceUuid := ⟨[0x69, 0x72, 0x6f, 0x01, 0x8e, 0x45, 0x4c, 0x2c, 0xb3, 0xa5,
  0x33, 0x1f, 0x30, 0x98, 0xb5, 0xc2], irohServiceUuid_length⟩

/-- The services of the driver, by their UUIDs. -/
def buildGattServices (keyUuid : ServiceUuid) : List ServiceUuid := [irohServiceUuid, keyUuid]

/-! ## The system -/

/-- The pumps with the adapter, what it has told either role, and the tasks that restore the
peripheral. -/
structure Restores where
  pumps : Pumps
  services : List ServiceUuid
  powered : Bool := true
  /-- What the adapter has told the central that `run_central_events` has not taken yet. -/
  central : List Bool := []
  /-- What it has told the peripheral. -/
  peripheral : List Bool := []
  /-- The tasks of the driver, with a log of their calls since the adapter has come up. -/
  tasks : Locked Bool PeripheralCall Bool := {}

/-- The steps of the system: those of the pumps, of the adapter and of the restoring tasks. -/
inductive RestoresLabel where
  | pumps (l : PumpsLabel)
  /-- The adapter goes on or off. -/
  | power (on : Bool)
  | restore (l : LockedLabel Bool)

/-- Executing `RestorePeripheral` starts a task. -/
def Discovery.spawned : DiscoveryLabel → Discovery → List Bool
  | .execute, s =>
    match s.actor.loop with
    | .acting (.restorePeripheral restartL2cap :: _) _ => [restartL2cap]
    | _ => []
  | _, _ => []

/-- The tasks a step of the pumps has the driver start. -/
def Pumps.spawned : PumpsLabel → Pumps → List Bool
  | .discovery l, s => Discovery.spawned l s.discovery
  | _, _ => []

namespace Restores

/-- The events of the adapter come in their order. -/
def hear : PumpsLabel → Restores → Option Restores
  | .discovery (.event (.adapterStateChanged powered)), s =>
    match s.central with
    | on :: rest => if on = powered then some { s with central := rest } else none
    | [] => none
  | .stateEvent (.adapterStateChanged powered), s =>
    match s.peripheral with
    | on :: rest => if on = powered then some { s with peripheral := rest } else none
    | [] => none
  | _, s => some s

/-- An adapter that comes up has lost what was called before. -/
def power (on : Bool) (s : Restores) : Option Restores :=
  if s.powered = on then none
  else some { s with
    powered := on
    central := s.central ++ [on]
    peripheral := s.peripheral ++ [on]
    tasks := if on then s.tasks.wipe else s.tasks }

/-- One step; a pump hears of the adapter only what the adapter has told it. -/
def step : RestoresLabel → Restores → Option Restores
  | .pumps l, s =>
    (s.hear l).bind fun heard =>
      (Pumps.step l heard.pumps).map fun pumps =>
        { heard with pumps := pumps, tasks := heard.tasks.spawn (Pumps.spawned l s.pumps) }
  | .power on, s => s.power on
  | .restore l, s =>
    (Locked.step (restorePeripheral s.services) l s.tasks).map fun tasks => { s with tasks := tasks }

/-- The restores as a transition system, with the services that are built for the own key. -/
def system : System Restores RestoresLabel where
  Init s := ∃ p, Pumps.system.Init p ∧ s =
    { pumps := p, services := buildGattServices (irohKeyUuid p.discovery.router.self) }
  step := step

end Restores

/-! ## A restore that is on its way -/

/-- The registry is going to hear that the adapter is on, or has heard it and not answered yet. -/
inductive Discovery.Upcoming (s : Discovery) : Prop where
  | pump (h : s.pump.command = some (.adapterStateChanged true))
  | inbox (letter : Letter ℕ) (h : letter ∈ s.actor.inbox)
    (hcmd : letter.cmd = .adapterStateChanged true)
  | action (restartL2cap : Bool) (h : .restorePeripheral restartL2cap ∈ s.actor.loop.todo)

/-- A restore is on its way: one of the tasks holds the command, or what the central's side knows
will lead to one. -/
inductive Pumps.Upcoming (s : Pumps) : Prop where
  | discovery (h : s.discovery.Upcoming)
  | side (h : s.sides .stateEvents = .sending (.adapterStateChanged true))

/-- A task waits for the lock, or is going to. -/
inductive Restores.Pending (s : Restores) : Prop where
  | central (h : true ∈ s.central)
  | peripheral (h : true ∈ s.peripheral)
  | pumps (h : s.pumps.Upcoming)
  | waiting (h : s.tasks.waiting ≠ [])

/-- What a task of the peripheral still has to send. -/
def SidePump.command : SidePump → Option PeerCommand
  | .sending cmd => some cmd
  | _ => none

namespace Discovery

section Steps

variable {s s' : Discovery} {l : DiscoveryLabel}

/-- The answer to an adapter that is on. -/
theorem restore_of_adapterOn (io : Io) (exact replaced : Option DeviceId) (r : Registry) :
    ∃ restartL2cap, .restorePeripheral restartL2cap ∈
      (r.runCommand io exact replaced (.adapterStateChanged true)).actions := by
  rw [runCommand_of_ne fun endpoint token => PeerCommand.noConfusion]
  exact ⟨_, List.mem_append_left _ (List.mem_append_right _ (List.mem_singleton_self _))⟩

/-- What the actor knows of an adapter that is on, it keeps until it has started a task. -/
theorem upcoming_of_moves (hmoves : ActorMoves s l s'.actor)
    (hup : (∃ letter ∈ s.actor.inbox, letter.cmd = .adapterStateChanged true) ∨
      ∃ restartL2cap, .restorePeripheral restartL2cap ∈ s.actor.loop.todo) :
    s'.Upcoming ∨ spawned l s ≠ [] := by
  obtain ⟨a, router, pump, verifying⟩ := s'
  cases hmoves with
  | stays =>
      -- nothing is lost from the inbox or the list of actions
      rcases hup with ⟨letter, hmem, hcmd⟩ | ⟨b, hb⟩
      · exact .inl (.inbox letter hmem hcmd)
      · exact .inl (.action b hb)
  | letter new =>
      rcases hup with ⟨letter, hmem, hcmd⟩ | ⟨b, hb⟩
      · exact .inl (.inbox letter (List.mem_append_left _ hmem) hcmd)
      · exact .inl (.action b hb)
  | lookUp hinbox =>
      rcases hup with ⟨letter, hmem, hcmd⟩ | ⟨b, hb⟩
      · rw [hinbox] at hmem
        rcases List.mem_cons.mp hmem with rfl | hrest
        · cases hcmd
        · exact .inl (.inbox letter hrest hcmd)
      · exact .inl (.action b hb)
  | @pop _ inbox _ _ _ _ ha hinbox =>
      obtain ⟨head, rest, hrecv, hletters, rfl⟩ := Actor.pop_cases ha
      have hletters : inbox = head :: rest := hletters
      rcases hup with ⟨letter, hmem, hcmd⟩ | ⟨b, hb⟩
      · have hmem := hinbox letter hmem
        rw [hletters] at hmem
        rcases List.mem_cons.mp hmem with rfl | hrest
        · -- the command itself: its answer is among the actions
          obtain ⟨b, hb⟩ := restore_of_adapterOn _ _ _ _
          rw [← hcmd] at hb
          exact .inl (.action b hb)
        · exact .inl (.inbox letter hrest hcmd)
      · rw [show s.actor.loop = .recv from hrecv] at hb
        cases hb
  | execute ha =>
      rcases hup with ⟨letter, hmem, hcmd⟩ | ⟨b, hb⟩
      · have hsame : a.inbox = s.actor.inbox := by
          rcases Actor.execute_cases ha with ⟨_, -, rfl⟩ | ⟨_, _, _, _, _, _, _, _, _, -, rfl⟩ |
            ⟨_, _, _, -, -, rfl⟩ <;> rfl
        exact .inl (.inbox letter (hsame ▸ hmem) hcmd)
      · rcases Actor.execute_cases ha with ⟨_, hloop, rfl⟩ |
          ⟨_, _, _, _, _, _, _, _, _, hloop, rfl⟩ | ⟨action, todo, _, hloop, -, rfl⟩
        · rw [hloop] at hb
          -- the loop was not executing anything, so no restore was among its actions
          cases hb
        · rw [hloop] at hb
          rcases List.mem_cons.mp hb with heq | hrest
          · cases heq
          · exact .inl (.action b hrest)
        · rw [hloop] at hb
          rcases List.mem_cons.mp hb with rfl | hrest
          · refine .inr ?_
            simp only [spawned, hloop]
            exact List.cons_ne_nil _ _
          · exact .inl (.action b hrest)
  | sent ha =>
      obtain ⟨ready, todo, shutdown, hloop, -, rfl⟩ := Actor.sent_cases ha
      rcases hup with ⟨letter, hmem, hcmd⟩ | ⟨b, hb⟩
      · exact .inl (.inbox letter (List.mem_append_left _ hmem) hcmd)
      · rw [hloop] at hb
        exact .inl (.action b hb)
  | reorder reg =>
      rcases hup with ⟨letter, hmem, hcmd⟩ | ⟨b, hb⟩
      · exact .inl (.inbox letter hmem hcmd)
      · exact .inl (.action b hb)

/-- The news that the adapter is on gets through, unless the actor shuts down. -/
theorem upcoming_step (hs : step l s = some s')
    (hup : s.Upcoming ∨ l = .event (.adapterStateChanged true)) :
    s'.actor.loop = .stopped ∨ s'.Upcoming ∨ spawned l s ≠ [] := by
  rcases hup with hup | rfl
  · cases hup with
    | pump hcommand =>
        rcases command_step hs hcommand with hkept | hstopped | ⟨letter, hmem, hcmd⟩
        · exact .inr (.inl (.pump hkept))
        · exact .inl hstopped
        · exact .inr (.inl (.inbox letter hmem hcmd))
    | inbox letter hmem hcmd =>
        exact .inr (upcoming_of_moves (moves_of_step hs).1 (.inl ⟨letter, hmem, hcmd⟩))
    | action b hb => exact .inr (upcoming_of_moves (moves_of_step hs).1 (.inr ⟨b, hb⟩))
  · simp only [step] at hs
    split at hs
    · obtain rfl := Option.some.inj hs
      exact .inr (.inl (.pump rfl))
    · cases hs

end Steps

end Discovery

namespace Pumps

section Steps

variable {s s' : Pumps} {l : PumpsLabel}

/-- An actor that has stopped stays stopped. -/
theorem stopped_step (hstopped : s.discovery.actor.loop = .stopped) (hs : step l s = some s') :
    s'.discovery.actor.loop = .stopped := by
  have htake : ∀ {side cmd}, s.take side cmd = some s' → s'.discovery.actor.loop = .stopped := by
    intro side cmd h
    rcases (take_cases h).2 with ⟨-, rfl⟩ | ⟨c, -, rfl⟩
    · exact hstopped
    · exact hstopped
  cases l with
  | discovery l =>
      simp only [step] at hs
      split at hs
      · cases hs
      · obtain ⟨discovery, hdiscovery, rfl⟩ := Option.map_eq_some_iff.mp hs
        exact Discovery.stopped_step hstopped hdiscovery
  | stateEvent ev => exact htake hs
  | request req => exact htake hs
  | accepted n result => exact htake hs
  | streamEnded side =>
      simp only [step] at hs
      split at hs
      · obtain rfl := Option.some.inj hs
        exact hstopped
      · cases hs
  | send side =>
      obtain ⟨cmd, -, ⟨-, rfl⟩ | rfl⟩ := send_cases hs
      · exact hstopped
      · exact hstopped

/-- Another task of the peripheral does not take the news away. -/
theorem upcoming_of_update {side : Side} {pump : SidePump} (hup : s.Upcoming)
    (hside : s.sides side ≠ .sending (.adapterStateChanged true)) :
    ({ s with sides := Function.update s.sides side pump } : Pumps).Upcoming := by
  cases hup with
  | discovery h => exact .discovery h
  | side h =>
      by_cases hsame : Side.stateEvents = side
      · exact absurd (hsame ▸ h) hside
      · exact .side ((Function.update_of_ne hsame ..).trans h)

/-- Taking an item leaves a restore that is on its way there. -/
theorem upcoming_take {side : Side} {cmd : Option PeerCommand} (hs : s.take side cmd = some s')
    (hup : s.Upcoming) : s'.Upcoming := by
  obtain ⟨hwaiting, ⟨-, rfl⟩ | ⟨c, -, rfl⟩⟩ := take_cases hs
  · exact hup
  · exact upcoming_of_update hup (hwaiting ▸ SidePump.noConfusion)

theorem upcoming_step (hs : step l s = some s')
    (hup : s.Upcoming ∨ l = .discovery (.event (.adapterStateChanged true)) ∨
      l = .stateEvent (.adapterStateChanged true)) :
    s'.discovery.actor.loop = .stopped ∨ s'.Upcoming ∨ spawned l s ≠ [] := by
  cases l with
  | discovery l =>
      simp only [step] at hs
      split at hs
      · cases hs
      · obtain ⟨discovery, hdiscovery, rfl⟩ := Option.map_eq_some_iff.mp hs
        -- what the central's side keeps or starts, the whole keeps or starts
        have hbelow : s.discovery.Upcoming ∨ l = .event (.adapterStateChanged true) →
            discovery.actor.loop = .stopped ∨
              ({ s with discovery := discovery } : Pumps).Upcoming ∨
                Discovery.spawned l s.discovery ≠ [] := by
          intro h
          rcases Discovery.upcoming_step hdiscovery h with hstopped | hup | hspawned
          · exact .inl hstopped
          · exact .inr (.inl (.discovery hup))
          · exact .inr (.inr hspawned)
        rcases hup with (h | h) | hl | hl
        · exact hbelow (.inl h)
        · exact .inr (.inl (.side h))
        · exact hbelow (.inr (PumpsLabel.discovery.inj hl))
        · cases hl
  | stateEvent ev =>
      rcases hup with hup | hl | hl
      · exact .inr (.inl (upcoming_take hs hup))
      · cases hl
      · obtain rfl := PumpsLabel.stateEvent.inj hl
        obtain ⟨-, ⟨hnone, -⟩ | ⟨c, hc, rfl⟩⟩ := take_cases hs
        · cases hnone
        · obtain rfl := Option.some.inj hc
          have hnow : Function.update s.sides .stateEvents
              (.sending (.adapterStateChanged true)) .stateEvents =
                .sending (.adapterStateChanged true) := Function.update_self ..
          exact .inr (.inl (.side hnow))
  | request req =>
      rcases hup with hup | hl | hl
      · exact .inr (.inl (upcoming_take hs hup))
      · cases hl
      · cases hl
  | accepted n result =>
      rcases hup with hup | hl | hl
      · exact .inr (.inl (upcoming_take hs hup))
      · cases hl
      · cases hl
  | streamEnded side =>
      rcases hup with hup | hl | hl
      · simp only [step] at hs
        split at hs
        · rename_i hwaiting
          obtain rfl := Option.some.inj hs
          exact .inr (.inl (upcoming_of_update hup (hwaiting ▸ SidePump.noConfusion)))
        · cases hs
      · cases hl
      · cases hl
  | send side =>
      rcases hup with hup | hl | hl
      · obtain ⟨cmd, hsending, ⟨hstopped, rfl⟩ | rfl⟩ := send_cases hs
        · exact .inl hstopped
        · refine .inr (.inl ?_)
          by_cases hcmd : cmd = .adapterStateChanged true
          · -- this is the task that sends the news
            refine .discovery (.inbox { cmd := cmd } ?_ hcmd)
            exact List.mem_append_right _ (List.mem_singleton_self _)
          · have hsent : ({ s with
                discovery := { s.discovery with actor := { s.discovery.actor with
                  inbox := s.discovery.actor.inbox ++ [{ cmd := cmd }] } } } : Pumps).Upcoming := by
              rcases hup with (hpump | ⟨letter, hmem, hletter⟩ | ⟨b, hb⟩) | h
              · exact .discovery (.pump hpump)
              · exact .discovery (.inbox letter (List.mem_append_left _ hmem) hletter)
              · exact .discovery (.action b hb)
              · exact .side h
            refine upcoming_of_update hsent ?_
            rw [hsending]
            intro h
            exact hcmd (SidePump.sending.inj h)
      · cases hl
      · cases hl

end Steps

end Pumps

/-! ## What the calls come to -/

/-- What a peripheral has that does what it is called for. -/
structure Served where
  table : List ServiceUuid := []
  advertising : Bool := false

/-- One call and its outcome. -/
def Served.take (p : Served) : PeripheralCall × Bool → Served
  | (_, false) => p
  | (.stopAdvertising, true) => { p with advertising := false }
  | (.addService svc, true) => { p with table := svc :: p.table }
  | (.l2capListener, true) => p
  | (.startAdvertising, true) => { p with advertising := true }

/-- What the platform serves after a list of calls. -/
def served (log : List (PeripheralCall × Bool)) : Served := log.foldl Served.take {}

/-- A call takes no service away. -/
theorem Served.table_take {p : Served} {svc : ServiceUuid} (c : PeripheralCall × Bool)
    (h : svc ∈ p.table) : svc ∈ (p.take c).table := by
  obtain ⟨call, ok⟩ := c
  cases ok with
  | false => exact h
  | true =>
      cases call with
      | addService svc' => exact List.mem_cons_of_mem _ h
      | _ => exact h

/-- A service that was added stays. -/
theorem mem_table {log : List (PeripheralCall × Bool)} {svc : ServiceUuid}
    (h : (.addService svc, true) ∈ log) : svc ∈ (served log).table := by
  induction log using List.reverseRecOn with
  | nil => cases h
  | append_singleton log c ih =>
      rw [served, List.foldl_append]
      rcases List.mem_append.mp h with hold | hnew
      · exact Served.table_take c (ih hold)
      · rw [← List.mem_singleton.mp hnew]
        exact List.mem_cons_self

theorem addService_mem_restore {services : List ServiceUuid} {svc : ServiceUuid}
    (h : svc ∈ services) (b : Bool) : .addService svc ∈ restorePeripheral services b := by
  refine List.mem_append_left _ (List.mem_append_left _ ?_)
  exact List.mem_cons_of_mem _ (List.mem_map_of_mem h)

/-- After a restore whose calls succeed, the node advertises, and has its services. -/
theorem served_of_restore {services : List ServiceUuid} {log : List (PeripheralCall × Bool)}
    {before : List PeripheralCall} {b : Bool}
    (hcalls : log.map Prod.fst = before ++ restorePeripheral services b)
    (hok : ∀ c ∈ log, c.2 = true) :
    (served log).advertising = true ∧ ∀ svc ∈ services, svc ∈ (served log).table := by
  constructor
  · -- the last call is the one that starts the advertisement
    have hlast : (log.map Prod.fst).getLast? = some .startAdvertising := by
      rw [hcalls, restorePeripheral, restartAdvertising, ← List.append_assoc,
        List.getLast?_append_cons]
      rfl
    rw [List.getLast?_map] at hlast
    obtain ⟨⟨call, ok⟩, hc, rfl⟩ := Option.map_eq_some_iff.mp hlast
    obtain ⟨front, hlog⟩ := List.getLast?_eq_some_iff.mp hc
    obtain rfl : ok = true := hok _ (List.mem_of_getLast? hc)
    rw [hlog, served, List.foldl_append]
    rfl
  · intro svc hsvc
    have hcall : .addService svc ∈ log.map Prod.fst := by
      rw [hcalls]
      exact List.mem_append_right _ (addService_mem_restore hsvc b)
    obtain ⟨⟨call, ok⟩, hmem, rfl⟩ := List.mem_map.mp hcall
    obtain rfl : ok = true := hok _ hmem
    exact mem_table hmem

namespace Restores

/-! ## Runs -/

section Steps

variable {s s' : Restores} {l : RestoresLabel}

/-- Taking an event of the adapter changes nothing but the events that are left. -/
theorem hear_cases {l : PumpsLabel} (hs : s.hear l = some s') :
    ∃ central peripheral, s' = { s with central := central, peripheral := peripheral } ∧
      (true ∈ s.central → true ∈ central ∨
        l = .discovery (.event (.adapterStateChanged true))) ∧
      (true ∈ s.peripheral → true ∈ peripheral ∨
        l = .stateEvent (.adapterStateChanged true)) := by
  unfold hear at hs
  split at hs
  · rename_i powered
    split at hs
    · -- the central takes what the adapter told it first
      rename_i on rest hcentral
      split at hs
      · rename_i hon
        obtain rfl := Option.some.inj hs
        subst hon
        refine ⟨rest, s.peripheral, rfl, ?_, .inl⟩
        intro h
        rw [hcentral] at h
        rcases List.mem_cons.mp h with rfl | hrest
        · exact .inr rfl
        · exact .inl hrest
      · cases hs
    · cases hs
  · rename_i powered
    split at hs
    · rename_i on rest hperipheral
      split at hs
      · rename_i hon
        obtain rfl := Option.some.inj hs
        subst hon
        refine ⟨s.central, rest, rfl, .inl, ?_⟩
        intro h
        rw [hperipheral] at h
        rcases List.mem_cons.mp h with rfl | hrest
        · exact .inr rfl
        · exact .inl hrest
      · cases hs
    · cases hs
  · obtain rfl := Option.some.inj hs
    exact ⟨s.central, s.peripheral, rfl, .inl, .inl⟩

/-- What has to be on its way, as long as the calls do not end with a whole restore. -/
def Settling (s : Restores) : Prop :=
  s.pumps.discovery.actor.loop = .stopped ∨ s.Pending ∨
    s.tasks.Fresh (restorePeripheral s.services)

/-- A step of the pumps keeps a restore coming. -/
theorem settling_pumps {l : PumpsLabel} (hsettling : s.Settling)
    (hs : system.step (.pumps l) s = some s') : s'.Settling := by
  obtain ⟨heard, hheard, hs⟩ := Option.bind_eq_some_iff.mp hs
  obtain ⟨pumps, hpumps, rfl⟩ := Option.map_eq_some_iff.mp hs
  obtain ⟨central, peripheral, rfl, hcentral, hperipheral⟩ := hear_cases hheard
  -- the news that is in the registry's hands, or comes there now
  have hgoes : (s.pumps.Upcoming ∨ l = .discovery (.event (.adapterStateChanged true)) ∨
      l = .stateEvent (.adapterStateChanged true)) →
      ({ s with
        pumps := pumps, central := central, peripheral := peripheral
        tasks := s.tasks.spawn (Pumps.spawned l s.pumps) } : Restores).Settling := by
    intro h
    rcases Pumps.upcoming_step hpumps h with hstopped | hup | hspawned
    · exact .inl hstopped
    · exact .inr (.inl (.pumps hup))
    · exact .inr (.inl (.waiting fun hnil => hspawned (List.append_eq_nil_iff.mp hnil).2))
  rcases hsettling with hstopped | hpending | ⟨before, b, hcalls⟩
  · exact .inl (Pumps.stopped_step hstopped hpumps)
  · cases hpending with
    | central h =>
        rcases hcentral h with hleft | hnow
        · exact .inr (.inl (.central hleft))
        · exact hgoes (.inr (.inl hnow))
    | peripheral h =>
        rcases hperipheral h with hleft | hnow
        · exact .inr (.inl (.peripheral hleft))
        · exact hgoes (.inr (.inr hnow))
    | pumps h => exact hgoes (.inl h)
    | waiting h =>
        exact .inr (.inl (.waiting fun hnil => h (List.append_eq_nil_iff.mp hnil).1))
  · exact .inr (.inr ⟨before, b, hcalls⟩)

/-- A step of a restoring task keeps one coming, or completes it. -/
theorem settling_restore {l : LockedLabel Bool} (hsettling : s.Settling)
    (hs : system.step (.restore l) s = some s') : s'.Settling := by
  obtain ⟨tasks, htasks, rfl⟩ := Option.map_eq_some_iff.mp hs
  have hgoes : s.tasks.Fresh (restorePeripheral s.services) ∨ s.tasks.waiting ≠ [] →
      ({ s with tasks := tasks } : Restores).Settling := by
    intro h
    rcases Locked.Fresh.step htasks h with hfresh | hwaiting
    · exact .inr (.inr hfresh)
    · exact .inr (.inl (.waiting hwaiting))
  rcases hsettling with hstopped | hpending | hfresh
  · exact .inl hstopped
  · cases hpending with
    | central h => exact .inr (.inl (.central h))
    | peripheral h => exact .inr (.inl (.peripheral h))
    | pumps h => exact .inr (.inl (.pumps h))
    | waiting h => exact hgoes (.inr h)
  · exact hgoes (.inl hfresh)

/-- The adapter changes, and tells both roles of it. -/
theorem power_cases {on : Bool} (hs : system.step (.power on) s = some s') :
    s.powered ≠ on ∧ s' = { s with
      powered := on
      central := s.central ++ [on]
      peripheral := s.peripheral ++ [on]
      tasks := if on then s.tasks.wipe else s.tasks } := by
  change s.power on = _ at hs
  unfold power at hs
  split at hs
  · cases hs
  · rename_i hchanges
    exact ⟨hchanges, (Option.some.inj hs).symm⟩

/-- The pumps do not switch the adapter. -/
theorem powered_pumps {l : PumpsLabel} (hs : system.step (.pumps l) s = some s') :
    s'.powered = s.powered := by
  obtain ⟨heard, hheard, hs⟩ := Option.bind_eq_some_iff.mp hs
  obtain ⟨pumps, -, rfl⟩ := Option.map_eq_some_iff.mp hs
  obtain ⟨central, peripheral, rfl, -, -⟩ := hear_cases hheard
  rfl

/-- The calls stay those of whole restores. -/
theorem whole_step (hwhole : s.tasks.Whole (restorePeripheral s.services))
    (hs : system.step l s = some s') : s'.tasks.Whole (restorePeripheral s'.services) := by
  cases l with
  | pumps l =>
      obtain ⟨heard, hheard, hs⟩ := Option.bind_eq_some_iff.mp hs
      obtain ⟨pumps, -, rfl⟩ := Option.map_eq_some_iff.mp hs
      obtain ⟨central, peripheral, rfl, -, -⟩ := hear_cases hheard
      exact ⟨hwhole.calls, hwhole.remaining⟩
  | power on =>
      obtain ⟨-, rfl⟩ := power_cases hs
      cases on with
      | true => exact hwhole.wipe
      | false => exact hwhole
  | restore l =>
      obtain ⟨tasks, htasks, rfl⟩ := Option.map_eq_some_iff.mp hs
      exact hwhole.step htasks

end Steps

/-- The adapter has come up. -/
def Cycled (h : List (Restores × RestoresLabel)) : Prop := ∃ x ∈ h, x.2 = .power true

/-- Before any other step than coming up the adapter had cycled already. -/
theorem Cycled.before {h : List (Restores × RestoresLabel)} {s : Restores} {l : RestoresLabel}
    (hcycled : Cycled (h ++ [(s, l)])) (hl : l ≠ .power true) : Cycled h := by
  obtain ⟨x, hx, hup⟩ := hcycled
  rcases List.mem_append.mp hx with hold | hnew
  · exact ⟨x, hold, hup⟩
  · rw [List.mem_singleton.mp hnew] at hup
    exact absurd hup hl

/-- The restoring tasks run one at a time, each of them whole, along every run. -/
theorem whole_of_run {h : List (Restores × RestoresLabel)} {s : Restores}
    (hrun : system.Run h s) : s.tasks.Whole (restorePeripheral s.services) := by
  induction hrun with
  | init hs =>
      obtain ⟨p, -, rfl⟩ := hs
      exact .init
  | step _ hs ih => exact whole_step ih hs

/-- With the adapter on again after a cycle, a restore is coming or has been completed, along
every run. -/
theorem settling_of_run {h : List (Restores × RestoresLabel)} {s : Restores}
    (hrun : system.Run h s) (hcycled : Cycled h) (hpowered : s.powered = true) : s.Settling := by
  induction hrun with
  | init hs =>
      obtain ⟨x, hx, -⟩ := hcycled
      cases hx
  | @step h s s' l hr hs ih =>
      cases l with
      | power on =>
          obtain ⟨-, rfl⟩ := power_cases hs
          -- both roles are told that it is on
          obtain rfl : on = true := hpowered
          exact .inr (.inl (.central (List.mem_append_right _ (List.mem_singleton_self _))))
      | pumps l =>
          have hbefore : s.powered = true := (powered_pumps hs).symm.trans hpowered
          exact settling_pumps (ih (hcycled.before RestoresLabel.noConfusion) hbefore) hs
      | restore l =>
          have hbefore : s.powered = true := by
            obtain ⟨tasks, -, rfl⟩ := Option.map_eq_some_iff.mp hs
            exact hpowered
          exact settling_restore (ih (hcycled.before RestoresLabel.noConfusion) hbefore) hs

/-- In every run, whatever the adapter does in the middle of a restore: the calls since it has come
up are those of whole restores, one after another, but for the rest of one that had been underway.
And once no news of it and no task is on its way any more, the last of them are those of a whole
restore. If they have succeeded, the node has all of its services, and advertises. -/
theorem restored {h : List (Restores × RestoresLabel)} {s : Restores} (hrun : system.Run h s) :
    (∃ (cut : List PeripheralCall) (bs : List Bool),
      s.tasks.log.map Prod.fst ++ s.tasks.remaining =
          cut ++ bs.flatMap (restorePeripheral s.services) ∧
        (cut = [] ∨ ∃ b, cut <:+ restorePeripheral s.services b)) ∧
    (Cycled h → s.powered = true → s.pumps.discovery.actor.loop ≠ .stopped → ¬ s.Pending →
      s.tasks.holder = none →
        (∃ before b, s.tasks.log.map Prod.fst = before ++ restorePeripheral s.services b) ∧
        ((∀ c ∈ s.tasks.log, c.2 = true) → (served s.tasks.log).advertising = true ∧
          ∀ svc ∈ s.services, svc ∈ (served s.tasks.log).table)) := by
  constructor
  · exact (whole_of_run hrun).calls
  · intro hcycled hpowered hrunning hquiet hfree
    have hlast : ∃ before b, s.tasks.log.map Prod.fst = before ++ restorePeripheral s.services b := by
      rcases settling_of_run hrun hcycled hpowered with hstopped | hpending | ⟨before, b, hcalls⟩
      · exact absurd hstopped hrunning
      · exact absurd hpending hquiet
      · refine ⟨before, b, ?_⟩
        rw [Locked.calls, Locked.remaining, hfree, Option.getD_none, List.append_nil] at hcalls
        exact hcalls
    obtain ⟨before, b, hcalls⟩ := hlast
    exact ⟨⟨before, b, hcalls⟩, served_of_restore hcalls⟩

theorem init_new (policy : L2capPolicy) (self : EndpointId) :
    system.Init {
      pumps := { discovery := { actor := .new policy self, router := { self := self } } }
      services := buildGattServices (irohKeyUuid self) } :=
  ⟨_, Pumps.init_new policy self, rfl⟩

/-- Nothing is left to hear, and no task waits. -/
def quiet (s : Restores) : Bool :=
  s.central.isEmpty && s.peripheral.isEmpty && s.pumps.discovery.pump.command.isNone &&
    (s.pumps.sides .stateEvents).command.isNone && s.pumps.discovery.actor.inbox.isEmpty &&
    s.pumps.discovery.actor.loop.todo.isEmpty && s.tasks.waiting.isEmpty

/-- Where everything is quiet no restore is coming any more. -/
theorem not_pending_of_quiet {s : Restores} (hquiet : s.quiet = true) : ¬ s.Pending := by
  simp only [quiet, Bool.and_eq_true, List.isEmpty_iff, Option.isNone_iff_eq_none] at hquiet
  obtain ⟨⟨⟨⟨⟨⟨hcentral, hperipheral⟩, hpump⟩, hside⟩, hinbox⟩, htodo⟩, hwaiting⟩ := hquiet
  intro hpending
  cases hpending with
  | central h =>
      rw [hcentral] at h
      cases h
  | peripheral h =>
      rw [hperipheral] at h
      cases h
  | pumps h =>
      rcases h with (h | ⟨letter, h, -⟩ | ⟨b, h⟩) | h
      · rw [hpump] at h
        cases h
      · rw [hinbox] at h
        cases h
      · rw [htodo] at h
        cases h
      · rw [h] at hside
        cases hside
  | waiting h => exact h hwaiting

/-- The registry handles what it is told of the adapter. -/
def handles (on : Bool) : List RestoresLabel :=
  .pumps (.discovery (.pop (ioAt 0))) ::
    List.replicate (if on then 3 else 1) (.pumps (.discovery .execute))

/-- The central hears of the adapter, and the registry answers it. -/
def centralHears (on : Bool) : List RestoresLabel :=
  [.pumps (.discovery (.event (.adapterStateChanged on))), .pumps (.discovery .send)] ++ handles on

/-- The peripheral hears of it, and the registry answers it. -/
def peripheralHears (on : Bool) : List RestoresLabel :=
  [.pumps (.stateEvent (.adapterStateChanged on)), .pumps (.send .stateEvents)] ++ handles on

/-- So many calls of a restoring task, each of them successful. -/
def calls (n : ℕ) : List RestoresLabel := List.replicate n (.restore (.call true))

/-- The adapter goes off and on again after the services of a restore have been added. -/
def interruptedRun : List RestoresLabel :=
  [.power false, .power true] ++ centralHears false ++ centralHears true ++
    [.restore (.acquire 0)] ++ calls 3 ++ [.power false, .power true] ++ calls 2 ++
    [.restore .release] ++ centralHears false ++ centralHears true ++
    [.restore (.acquire 0)] ++ calls 5 ++ [.restore .release] ++
    peripheralHears false ++ peripheralHears true ++ peripheralHears false ++ peripheralHears true ++
    [.restore (.acquire 1)] ++ calls 5 ++ [.restore .release] ++
    [.restore (.acquire 0)] ++ calls 5 ++ [.restore .release]

/-- In between the node advertises without any of its services, but not in the end. -/
theorem restored_interruptedRun : ∃ h s, system.Run h s ∧ h.map Prod.snd = interruptedRun ∧
    (∃ x ∈ h, (served x.1.tasks.log).advertising = true ∧ (served x.1.tasks.log).table = []) ∧
    (∃ before b, s.tasks.log.map Prod.fst = before ++ restorePeripheral s.services b) ∧
    (served s.tasks.log).advertising = true ∧
    ∀ svc ∈ s.services, svc ∈ (served s.tasks.log).table := by
  obtain ⟨h, s, hrun, hlabels, hgap, hpowered, hloop, hquiet, hfree, hok⟩ := System.Run.of_trace
    (P := fun h s =>
      (∃ x ∈ h, (served x.1.tasks.log).advertising = true ∧ (served x.1.tasks.log).table = []) ∧
      s.powered = true ∧ s.pumps.discovery.actor.loop.isStopped = false ∧ s.quiet = true ∧
      s.tasks.holder = none ∧ ∀ c ∈ s.tasks.log, c.2 = true)
    interruptedRun (init_new .disabled localEndpoint) (by decide +kernel)
  have hcycled : Cycled h := by
    have hmem : RestoresLabel.power true ∈ h.map Prod.snd := by
      rw [hlabels]
      exact List.mem_cons_of_mem _ List.mem_cons_self
    obtain ⟨x, hx, hup⟩ := List.mem_map.mp hmem
    exact ⟨x, hx, hup⟩
  have hrunning : s.pumps.discovery.actor.loop ≠ .stopped := by
    intro hstopped
    rw [hstopped] at hloop
    cases hloop
  obtain ⟨hcalls, hserves⟩ :=
    (restored hrun).2 hcycled hpowered hrunning (not_pending_of_quiet hquiet) hfree
  exact ⟨h, s, hrun, hlabels, hgap, hcalls, hserves hok⟩

end Restores

end IrohBle
