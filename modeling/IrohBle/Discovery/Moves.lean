import IrohBle.Discovery

/-! # Discovery.Moves: what a step does to the actor and to the pump

Several invariants of `Discovery` only ask what becomes of the actor's inbox, of the actions it is at,
and of the command that the pump is sending. `moves_of_step` says it once for every step.
-/

namespace IrohBle

open Lib Reliable Registry

/-- The command the pump has taken an event for. -/
def Pump.command : Pump → Option PeerCommand
  | .forgetting _ cmd => some cmd
  | .sending cmd => some cmd
  | _ => none

namespace Discovery

section Steps

variable {s s' : Discovery} {l : DiscoveryLabel}

/-- What a step does to the actor. -/
inductive ActorMoves (s : Discovery) : DiscoveryLabel → Actor → Prop where
  | stays {l : DiscoveryLabel} : ActorMoves s l s.actor
  | letter {l : DiscoveryLabel} (letter : Letter ℕ) :
    ActorMoves s l { s.actor with inbox := s.actor.inbox ++ [letter] }
  | lookUp {l : DiscoveryLabel} {endpoint : EndpointId} {token pipe : Option ℕ}
    {rest : List (Letter ℕ)}
    (hinbox : s.actor.inbox = ⟨.verifiedEndpoint endpoint token, pipe⟩ :: rest) :
    ActorMoves s l { s.actor with inbox := rest }
  | pop {l : DiscoveryLabel} {inbox : List (Letter ℕ)} {io : Io} {exact replaced : Option DeviceId}
    {a : Actor} (ha : { s.actor with inbox := inbox }.pop io exact replaced = some a)
    (hinbox : ∀ letter ∈ s.actor.inbox, letter ∈ inbox) : ActorMoves s l a
  | execute {a : Actor} (ha : s.actor.execute = some a) : ActorMoves s .execute a
  | sent {l : DiscoveryLabel} {a : Actor} (ha : s.actor.sent = some a) : ActorMoves s l a
  | reorder {l : DiscoveryLabel} (reg : Registry) : ActorMoves s l { s.actor with reg := reg }

/-- Only these steps move the pump. -/
def movesPump : DiscoveryLabel → Bool
  | .event _ => true
  | .streamEnded => true
  | .send => true
  | _ => false

/-- Every step, by what it does to the actor. -/
theorem moves_of_step (hs : step l s = some s') :
    ActorMoves s l s'.actor ∧ (s'.pump = s.pump ∨ movesPump l = true) := by
  cases l with
  -- only the pump moves on an event
  | event ev =>
      simp only [step] at hs
      split at hs
      · obtain rfl := Option.some.inj hs
        exact ⟨.stays, .inr rfl⟩
      · cases hs
  | streamEnded =>
      simp only [step] at hs
      split at hs
      · obtain rfl := Option.some.inj hs
        exact ⟨.stays, .inr rfl⟩
      · cases hs
  | send =>
      have hoffer : ∀ {cmd next}, s.offer cmd next = some s' → ActorMoves s .send s'.actor := by
        intro cmd next h
        rcases offer_cases h with rfl | rfl
        · exact .stays
        · exact .letter _
      refine ⟨?_, .inr rfl⟩
      change s.send = _ at hs
      unfold send at hs
      split at hs
      · exact hoffer hs
      · exact hoffer hs
      · cases hs
  | produce letter =>
      simp only [step] at hs
      split at hs
      · cases hs
      · obtain ⟨a, ha, rfl⟩ := Option.map_eq_some_iff.mp hs
        obtain rfl := Actor.produce_eq ha
        exact ⟨.letter letter, .inl rfl⟩
  -- the lookup takes the letter and leaves the rest to `verify`
  | lookUp =>
      change s.lookUp = _ at hs
      unfold lookUp at hs
      split at hs
      · rename_i hinbox _
        obtain rfl := Option.some.inj hs
        exact ⟨.lookUp hinbox, .inl rfl⟩
      · cases hs
  | verify io =>
      change s.verify io = _ at hs
      unfold verify at hs
      split at hs
      · cases hs
      · split at hs
        · obtain ⟨a, ha, rfl⟩ := Option.map_eq_some_iff.mp hs
          exact ⟨.pop ha fun letter h => List.mem_cons_of_mem _ h, .inl rfl⟩
        · obtain ⟨a, ha, rfl⟩ := Option.map_eq_some_iff.mp hs
          exact ⟨.pop ha fun letter h => List.mem_cons_of_mem _ h, .inl rfl⟩
  | pop io =>
      change s.pop io = _ at hs
      unfold pop at hs
      split at hs
      · cases hs
      · cases hs
      · obtain ⟨a, ha, rfl⟩ := Option.map_eq_some_iff.mp hs
        have ha : { s.actor with inbox := s.actor.inbox }.pop io none none = some a := ha
        exact ⟨.pop ha fun letter h => h, .inl rfl⟩
  | execute =>
      obtain ⟨a, ha, rfl⟩ := Option.map_eq_some_iff.mp hs
      exact ⟨.execute ha, .inl rfl⟩
  | sent =>
      obtain ⟨a, ha, rfl⟩ := Option.map_eq_some_iff.mp hs
      exact ⟨.sent ha, .inl rfl⟩
  | reorder ks =>
      obtain ⟨a, ha, rfl⟩ := Option.map_eq_some_iff.mp hs
      obtain ⟨reg, -, rfl⟩ := Option.map_eq_some_iff.mp ha
      exact ⟨.reorder reg, .inl rfl⟩
  | route rl =>
      simp only [step] at hs
      split at hs
      · cases hs
      · obtain ⟨router, -, rfl⟩ := Option.map_eq_some_iff.mp hs
        exact ⟨.stays, .inl rfl⟩

/-- An actor that has shut down stays so. -/
theorem stopped_step (hstopped : s.actor.loop = .stopped) (hs : step l s = some s') :
    s'.actor.loop = .stopped := by
  have hmoves := (moves_of_step hs).1
  generalize s'.actor = a at hmoves ⊢
  cases hmoves with
  | stays => exact hstopped
  | letter letter => exact hstopped
  | lookUp hinbox => exact hstopped
  | pop ha hinbox =>
      obtain ⟨_, _, hrecv, -, -⟩ := Actor.pop_cases ha
      cases hstopped.symm.trans hrecv
  | execute ha =>
      simp only [Actor.execute, hstopped] at ha
      cases ha
  | sent ha =>
      obtain ⟨_, _, _, hsending, -, -⟩ := Actor.sent_cases ha
      cases hstopped.symm.trans hsending
  | reorder reg => exact hstopped

/-- The pump keeps its command until it has sent it. -/
theorem command_step (hs : step l s = some s') {cmd : PeerCommand}
    (hcommand : s.pump.command = some cmd) : s'.pump.command = some cmd ∨
      s'.actor.loop = .stopped ∨ ∃ letter ∈ s'.actor.inbox, letter.cmd = cmd := by
  rcases (moves_of_step hs).2 with hsame | hmoves
  · exact .inl (hsame ▸ hcommand)
  · cases l with
    -- a pump that waits holds no command
    | event ev =>
        simp only [step] at hs
        split at hs
        · rename_i hwaiting
          rw [hwaiting] at hcommand
          cases hcommand
        · cases hs
    | streamEnded =>
        simp only [step] at hs
        split at hs
        · rename_i hwaiting
          rw [hwaiting] at hcommand
          cases hcommand
        · cases hs
    | send =>
        -- the command in front is in the inbox now, unless the actor has stopped
        have hoffer : ∀ {cmd next}, s.offer cmd next = some s' → s'.actor.loop = .stopped ∨
            s'.pump = next ∧ ∃ letter ∈ s'.actor.inbox, letter.cmd = cmd := by
          intro cmd next h
          unfold offer at h
          split at h
          · rename_i hstopped
            obtain rfl := Option.some.inj h
            exact .inl hstopped
          · obtain ⟨a, ha, rfl⟩ := Option.map_eq_some_iff.mp h
            obtain rfl := Actor.produce_eq ha
            exact .inr ⟨rfl, _, List.mem_append_right _ (List.mem_singleton_self _), rfl⟩
        change s.send = _ at hs
        unfold send at hs
        split at hs
        · -- the parked command follows the `Forget`
          rename_i previous cmd' hpump
          rw [hpump] at hcommand
          rcases hoffer hs with hstopped | ⟨hnext, -⟩
          · exact .inr (.inl hstopped)
          · exact .inl (hnext ▸ hcommand)
        · rename_i cmd' hpump
          rw [hpump] at hcommand
          obtain rfl := Option.some.inj hcommand
          rcases hoffer hs with hstopped | ⟨-, hsent⟩
          · exact .inr (.inl hstopped)
          · exact .inr (.inr hsent)
        · cases hs
    -- no other step moves the pump
    | _ => cases hmoves

end Steps

end Discovery

end IrohBle
