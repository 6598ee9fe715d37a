import IrohBle.Tombstones.Bounds

/-! # Tombstones.Stages: the life of a stable id

An id is promised for an endpoint, taken in hand by the driver, bound to a pipe, remembered for a
while after the pipe is gone, and forgotten. Five tables and a counter say how far it has come.

* `Standing`: where an id is, with what its table holds under it. `Placed` says that no two tables
  hold the same id, so the order in which `standing` asks them makes no difference.
* `Moves`: what one step does to the standing of an id. There is no way back.
* `id_life`: the life of an id in every run.
-/

namespace IrohBle

open Lib

/-- How far an id has come. -/
inductive Standing where
  | unminted
  | reserved (reservation : Reservation)
  /-- Its reservation is in the driver's hand. -/
  | opening (reservation : Reservation)
  | live (pipe : Pipe)
  | buried (tombstone : PipeTombstone)
  | gone
deriving DecidableEq

/-- How far an id has come. -/
def Standing.rank : Standing → ℕ
  | .unminted => 0
  | .reserved _ => 1
  | .opening _ => 2
  | .live _ => 3
  | .buried _ => 4
  | .gone => 5

/-- The reservation that holds an id. -/
def Routing.reservationWith (id : StableConnId) (r : Routing) : Option Reservation :=
  (r.reservedStableIds.lookup id).bind fun k => r.reservations.lookup k

/-- The reservation in the driver's hand, if it is for this id. -/
def Opening.reservationFor (id : StableConnId) (o : Opening) : Option Reservation :=
  o.reservation?.filter fun x => decide (x.stableId = id)

/-- Where an id is, the tables being asked in turn. -/
def Memories.standing (id : StableConnId) (s : Memories) : Standing :=
  match s.router.routing.reservationWith id with
  | some x => .reserved x
  | none =>
    match s.router.opening.reservationFor id with
    | some x => .opening x
    | none =>
      match s.router.routing.pipes.lookup id with
      | some pipe => .live pipe
      | none =>
        match s.tombstones.lookup id with
        | some t => .buried t
        | none => if 0 < id.raw ∧ id.raw ≤ s.router.routing.nextId then .gone else .unminted

namespace Memories

open Routing Router

/-- What one step, from `s` to `s'`, does to the standing of an id. -/
inductive Moves (id : StableConnId) (s : Memories) : MemoryLabel → Memories → Standing → Standing → Prop
  where
  | stays {l : MemoryLabel} {s' : Memories} (x : Standing) : Moves id s l s' x x
  | reserve {s' : Memories} (now : ℕ) (e : EndpointId)
      (free : s.router.routing.reservations.lookup (prefixFromEndpoint e) = none) :
      Moves id s (.routing (.reserveOutbound now e)) s' .unminted (.reserved ⟨id, e, now⟩)
  | mint {s' : Memories} (now : ℕ) (device : DeviceId) (role : ConnectRole)
      (before : s.router.opening = .consumed device role none) :
      Moves id s (.routing (.register now)) s' .unminted
        (.live ⟨id, device, directionForRole role, now⟩)
  | consume {l : MemoryLabel} {s' : Memories} (x : Reservation)
      (idle : s.router.opening.reservation? = none) :
      Moves id s l s' (.reserved x) (.opening x)
  | bind {s' : Memories} (now : ℕ) (device : DeviceId) (role : ConnectRole) (x : Reservation)
      (before : s.router.opening = .consumed device role (some x)) :
      Moves id s (.routing (.register now)) s' (.opening x)
        (.live ⟨id, device, directionForRole role, now⟩)
  | evict {s' : Memories} (now : ℕ) (pipe : Pipe) :
      Moves id s (.routing (.evictPipe now id)) s' (.live pipe)
        (.buried ⟨pipe.deviceId, pipe.direction, now - pipe.createdAt, now, 0⟩)
  | count {s' : Memories} (now : ℕ) (t : PipeTombstone) :
      Moves id s (.noteTombstonedTransmit now id) s' (.buried t)
        (.buried { t with droppedTransmits := t.droppedTransmits + 1 })
  /-- The tombstone has expired, or had to make room for newer ones. -/
  | forget {l : MemoryLabel} {s' : Memories} (t : PipeTombstone)
      (reason : pipeTombstoneTtl < s'.clock - t.evictedAt ∨
        maxPipeTombstones ≤ s'.tombstones.entries.length ∧
          ∀ p' t', s'.tombstones.lookup p' = some t' → t.evictedAt ≤ t'.evictedAt) :
      Moves id s l s' (.buried t) .gone

theorem Moves.rank_le {id : StableConnId} {s s' : Memories} {l : MemoryLabel} {x y : Standing}
    (h : Moves id s l s' x y) : x.rank ≤ y.rank := by
  cases h <;> simp [Standing.rank]

/-! ## What a step does to the tables -/

/-- What a step does to the tables that an id can be in before it has a tombstone. -/
inductive Shifts (s : Router) : MemoryLabel → Router → Prop where
  | rests {l : MemoryLabel} {s' : Router}
      (reservations : s'.routing.reservations = s.routing.reservations)
      (hand : s'.opening.reservation? = s.opening.reservation?)
      (next : s'.routing.nextId = s.routing.nextId)
      (pipes : s'.routing.pipes = s.routing.pipes) : Shifts s l s'
  | closes {now : ℕ} {p : StableConnId} {s' : Router}
      (reservations : s'.routing.reservations = s.routing.reservations)
      (hand : s'.opening.reservation? = s.opening.reservation?)
      (next : s'.routing.nextId = s.routing.nextId)
      (pipes : s'.routing.pipes = s.routing.pipes.erase p) :
      Shifts s (.routing (.evictPipe now p)) s'
  | reserves {now : ℕ} {e : EndpointId} {s' : Router}
      (free : s.routing.reservations.lookup (prefixFromEndpoint e) = none)
      (reservations : s'.routing.reservations = s.routing.reservations.insert
        (prefixFromEndpoint e) ⟨⟨s.routing.nextId + 1⟩, e, now⟩)
      (hand : s'.opening.reservation? = s.opening.reservation?)
      (next : s'.routing.nextId = s.routing.nextId + 1)
      (pipes : s'.routing.pipes = s.routing.pipes) :
      Shifts s (.routing (.reserveOutbound now e)) s'
  | consumes {l : MemoryLabel} {s' : Router} {k : KeyPrefix} {x : Reservation}
      (idle : s.opening.reservation? = none)
      (found : s.routing.reservations.lookup k = some x)
      (reservations : s'.routing.reservations = s.routing.reservations.erase k)
      (hand : s'.opening.reservation? = some x)
      (next : s'.routing.nextId = s.routing.nextId)
      (pipes : s'.routing.pipes = s.routing.pipes) : Shifts s l s'
  | binds {now : ℕ} {device : DeviceId} {role : ConnectRole} {x : Reservation} {s' : Router}
      (before : s.opening = .consumed device role (some x))
      (reservations : s'.routing.reservations = s.routing.reservations)
      (hand : s'.opening.reservation? = none)
      (next : s'.routing.nextId = s.routing.nextId)
      (pipes : s'.routing.pipes = s.routing.pipes.insert x.stableId
        ⟨x.stableId, device, directionForRole role, now⟩) :
      Shifts s (.routing (.register now)) s'
  | mints {now : ℕ} {device : DeviceId} {role : ConnectRole} {s' : Router}
      (before : s.opening = .consumed device role none)
      (reservations : s'.routing.reservations = s.routing.reservations)
      (hand : s'.opening.reservation? = none)
      (next : s'.routing.nextId = s.routing.nextId + 1)
      (pipes : s'.routing.pipes = s.routing.pipes.insert ⟨s.routing.nextId + 1⟩
        ⟨⟨s.routing.nextId + 1⟩, device, directionForRole role, now⟩) :
      Shifts s (.routing (.register now)) s'

/-- The reservation in hand stays there until the pipe is registered. -/
theorem hand_of_step {s s' : Router} {l : RouterLabel} (hs : Router.system.step l s = some s')
    {x : Reservation} (hx : s.opening.reservation? = some x) :
    s'.opening.reservation? = some x ∨ ∃ now, l = .register now := by
  obtain ⟨device, role, hopening⟩ : ∃ device role, s.opening = .consumed device role (some x) := by
    cases hopening : s.opening with
    | consumed device role y =>
        rw [hopening] at hx
        exact ⟨device, role, congrArg _ hx⟩
    | idle => rw [hopening] at hx; cases hx
    | unreserved device role => rw [hopening] at hx; cases hx
    | registered id target => rw [hopening] at hx; cases hx
  -- the driver is at one action at a time, so it starts no other one
  cases l with
  | startPipe device' role' target =>
      simp [Router.system, Router.step, Router.startPipe, hopening] at hs
  | consumeForDevice =>
      simp [Router.system, Router.step, Router.consumeForDevice, hopening] at hs
  | register now => exact .inr ⟨now, rfl⟩
  | registerPending now =>
      simp [Router.system, Router.step, Router.registerPending, hopening] at hs
  | promote now p e =>
      simp only [Router.system, Router.step] at hs
      split at hs
      · cases hs
      · obtain rfl := Option.some.inj hs
        exact .inl hx
  | evictPipeState p =>
      simp only [Router.system, Router.step] at hs
      split at hs
      · cases hs
      · obtain rfl := Option.some.inj hs
        exact .inl hx
  | evictPipe now p =>
      simp only [Router.system, Router.step] at hs
      split at hs
      · cases hs
      · obtain rfl := Option.some.inj hs
        exact .inl hx
  | evictRoutableIfPipe e p =>
      obtain rfl := Option.some.inj hs
      exact .inl hx
  | noteScanHint k d =>
      obtain rfl := Option.some.inj hs
      exact .inl hx
  | reserveOutbound now e =>
      obtain rfl := Option.some.inj hs
      exact .inl hx
  | registerEndpointWaker e w =>
      obtain rfl := Option.some.inj hs
      exact .inl hx
  | rehash o =>
      obtain ⟨r, -, rfl⟩ := Option.map_eq_some_iff.mp hs
      exact .inl hx

/-- A step of the tasks shifts an id from one table to the next, if it shifts one. -/
theorem shifts_of_routerStep {k : List (Router × RouterLabel)} {s s' : Router} {l : RouterLabel}
    (hd : Disciplined k s) (hs : Router.system.step l s = some s') : Shifts s (.routing l) s' := by
  have hhand := fun x => hand_of_step hs (x := x)
  cases does_of_step hs with
  | idles _ hids _ hpipes => exact .rests hids.reservations rfl hids.nextId hpipes
  | closes _ hids _ hpipes => exact .closes hids.reservations rfl hids.nextId hpipes
  | evicts _ hevicts htables =>
      have hids := SameIds.of_tables htables
      exact .rests (hids.reservations.trans hevicts.reservations) rfl
        (hids.nextId.trans hevicts.sameIds.nextId) ((pipes_of_tables htables).trans hevicts.pipes)
  | @hangsUp e p x _ _ r htables =>
      have hids := SameIds.of_tables htables
      exact .rests hids.reservations rfl hids.nextId (pipes_of_tables htables :)
  | promotes _ hpromotes =>
      exact .rests hpromotes.sameIds.reservations rfl hpromotes.sameIds.nextId hpromotes.pipes
  | reserves hfree hnext hres _ _ hpipes => exact .reserves hfree hres rfl hnext hpipes
  | misses _ hbefore hafter _ => exact .rests rfl (hafter.trans hbefore.symm) rfl rfl
  | @consumes l device role k x r hsilent hfound hnext hres _ _ hpipes =>
      refine .consumes ?_ hfound hres rfl hnext hpipes
      cases hx : s.opening.reservation? with
      | none => rfl
      | some y =>
          exfalso
          rcases hhand y hx with hsame | ⟨now, rfl⟩
          · -- the id in hand is not reserved, and the one that is taken is
            obtain rfl := Option.some.inj hsame
            exact (hd.hand x hx).2.2 k x hfound rfl
          · -- a registration consumes nothing
            cases hopening : s.opening with
            | consumed device' role' z =>
                rw [hopening] at hx
                obtain rfl : z = some y := hx
                have hnone := hsilent.2
                rw [binds_of_reserved hopening] at hnone
                cases hnone
            | _ => rw [hopening] at hx; cases hx
  | binds hbefore hids _ hpipes => exact .binds hbefore hids.reservations rfl hids.nextId hpipes
  | mints hbefore hnext hres _ _ hpipes => exact .mints hbefore hres rfl hnext hpipes
  | @pends now id target r hbefore htables =>
      have hids := SameIds.of_tables htables
      have hnone : s.opening.reservation? = none := by rw [hbefore]; rfl
      exact .rests hids.reservations hnone.symm hids.nextId (pipes_of_tables htables :)

section Shifts

variable {h : List (Memories × MemoryLabel)} {s s' : Memories} {l : MemoryLabel}

/-- What a step does to the five tables. -/
theorem shifts_of_step (hk : Kept h s) (hs : system.step l s = some s') :
    Shifts s.router l s'.router := by
  rcases router_of_step hs with ⟨rl, rfl, hstep⟩ | ⟨-, -, hopening, hrest⟩
  · exact shifts_of_routerStep hk.disciplined hstep
  · exact .rests (congrArg Routing.reservations hrest :) (congrArg Opening.reservation? hopening)
      (congrArg Routing.nextId hrest :) (congrArg Routing.pipes hrest :)

/-- A tombstone was there before, or is that of the pipe that is evicted. -/
theorem tombstone_of_routerStep {r r' : Router} {rl : RouterLabel}
    (hs : Router.system.step rl r = some r') {p : StableConnId} {t : PipeTombstone}
    (ht : r'.routing.pipeTombstones.lookup p = some t) :
    r.routing.pipeTombstones.lookup p = some t ∨ ∃ now pipe, rl = .evictPipe now p ∧
      r.routing.pipes.lookup p = some pipe ∧
      t = ⟨pipe.deviceId, pipe.direction, now - pipe.createdAt, now, 0⟩ := by
  have hsame : ∀ {m : Map StableConnId PipeTombstone}, m = r.routing.pipeTombstones →
      m.lookup p = some t → r.routing.pipeTombstones.lookup p = some t := by
    rintro m rfl hlook
    exact hlook
  have herase : ∀ {id : StableConnId} {m : Map StableConnId PipeTombstone},
      (m.erase id).lookup p = some t → m.lookup p = some t := by
    intro id m hlook
    rw [Map.lookup_erase_ite] at hlook
    split at hlook
    · cases hlook
    · exact hlook
  have hconsumed : ∀ out : Routing × Option Reservation, Consumed r.routing out →
      out.1.pipeTombstones.lookup p = some t → r.routing.pipeTombstones.lookup p = some t := by
    rintro out (rfl | ⟨k, x, -, rfl⟩) hlook
    · exact hlook
    · exact herase hlook
  cases rl with
  | startPipe device role target =>
      simp only [Router.system, Router.step, Router.startPipe] at hs
      split at hs
      · split at hs
        · obtain rfl := Option.some.inj hs
          exact .inl ht
        · rename_i endpoint
          have hout := hconsumed _ (consumed_forPrefix (prefixFromEndpoint endpoint) r.routing)
          split at hs
          · rename_i routing x heq
            obtain rfl := Option.some.inj hs
            rw [show r.routing.consumeReservationForPrefix _ = _ from heq] at hout
            exact .inl (hout ht)
          · rename_i routing heq
            obtain rfl := Option.some.inj hs
            rw [show r.routing.consumeReservationForPrefix _ = _ from heq] at hout
            exact .inl (hout ht)
      · cases hs
  | consumeForDevice =>
      simp only [Router.system, Router.step, Router.consumeForDevice] at hs
      split at hs
      · rename_i device role _
        obtain rfl := Option.some.inj hs
        exact .inl (hconsumed _ (consumed_forDevice device r.routing) ht)
      · cases hs
  | register now =>
      simp only [Router.system, Router.step, Router.register] at hs
      split at hs
      · obtain rfl := Option.some.inj hs
        exact .inl (Map.lookup_of_prune (herase ht))
      · obtain rfl := Option.some.inj hs
        exact .inl (Map.lookup_of_prune ht)
      · cases hs
  | registerPending now =>
      simp only [Router.system, Router.step, Router.registerPending] at hs
      split at hs
      · rename_i id target _
        obtain rfl := Option.some.inj hs
        refine .inl (hsame ?_ ht)
        exact (tombstones_of_tables (tables_wakeFor target _) :)
      · cases hs
  | promote now q e =>
      simp only [Router.system, Router.step] at hs
      split at hs
      · cases hs
      · obtain rfl := Option.some.inj hs
        rcases promote_cases now q r.self e r.routing with ⟨hr, -⟩ | ⟨r', ps, hr, hpromotes⟩
        · rw [hr] at ht
          exact .inl ht
        · rw [hr] at ht
          exact .inl (hsame (congrArg Routing.pipeTombstones hpromotes.rest :) ht)
  | evictRoutableIfPipe e q =>
      obtain rfl := Option.some.inj hs
      rcases evictRoutableIfPipe_cases e q r.routing with ⟨hr, -⟩ | ⟨x, -, -, hr⟩
      · rw [hr] at ht
        exact .inl ht
      · rw [hr] at ht
        exact .inl ht
  | evictPipeState q =>
      simp only [Router.system, Router.step] at hs
      split at hs
      · cases hs
      · obtain rfl := Option.some.inj hs
        have htables := tombstones_of_tables (evictPipeState_tables q r.routing)
        have hrest := (Evicts.evictContender q r.routing).rest
        exact .inl (hsame (htables.trans (congrArg Routing.pipeTombstones hrest :)) ht)
  | evictPipe now q =>
      simp only [Router.system, Router.step] at hs
      split at hs
      · cases hs
      · obtain rfl := Option.some.inj hs
        dsimp only at ht
        unfold Routing.evictPipe at ht
        cases hq : r.routing.pipes.lookup q with
        | none =>
            rw [hq] at ht
            exact .inl ht
        | some pipe =>
            rw [hq] at ht
            dsimp only at ht
            rw [Map.lookup_insert_ite] at ht
            split at ht
            · rename_i hpq
              subst hpq
              exact .inr ⟨now, pipe, rfl, hq, (Option.some.inj ht).symm⟩
            · exact .inl (Map.lookup_of_prune ht)
  | noteScanHint k d =>
      obtain rfl := Option.some.inj hs
      rcases noteScanHint_tables k d r.routing with hr | hr
      · rw [hr] at ht
        exact .inl ht
      · exact .inl (hsame (tombstones_of_tables hr :) ht)
  | reserveOutbound now e =>
      obtain rfl := Option.some.inj hs
      have hpruned : (r.routing.reserveOutbound now e).1.pipeTombstones =
          prunedTombstones now r.routing.pipeTombstones := by
        unfold Routing.reserveOutbound
        dsimp only
        split <;> rfl
      dsimp only at ht
      rw [hpruned] at ht
      exact .inl (Map.lookup_of_prune ht)
  | registerEndpointWaker e w =>
      obtain rfl := Option.some.inj hs
      exact .inl ht
  | rehash o =>
      obtain ⟨r', hr, rfl⟩ := Option.map_eq_some_iff.mp hs
      unfold Routing.rehash at hr
      split at hr
      · rename_i hperm
        obtain rfl := Option.some.inj hr
        exact .inl ((Map.lookup_reorder hperm.1 p).symm.trans ht)
      · cases hr

/-- A tombstone was there before, has counted one more transmit, or is new. -/
theorem tombstone_of_step (hs : system.step l s = some s') {p : StableConnId} {t : PipeTombstone}
    (ht : s'.tombstones.lookup p = some t) :
    s.tombstones.lookup p = some t ∨
      (∃ now t₀, l = .noteTombstonedTransmit now p ∧ s.tombstones.lookup p = some t₀ ∧
        t = { t₀ with droppedTransmits := t₀.droppedTransmits + 1 }) ∨
      ∃ now pipe, l = .routing (.evictPipe now p) ∧ s.router.routing.pipes.lookup p = some pipe ∧
        t = ⟨pipe.deviceId, pipe.direction, now - pipe.createdAt, now, 0⟩ := by
  obtain ⟨a, ha, hrouter, -, -, -⟩ := act_of_step hs
  unfold tombstones at ht
  rw [hrouter] at ht
  cases l with
  | routing rl =>
      obtain ⟨r, hr, rfl⟩ := Option.map_eq_some_iff.mp ha
      rcases tombstone_of_routerStep hr ht with hold | ⟨now, pipe, rfl, hnew⟩
      · exact .inl hold
      · exact .inr (.inr ⟨now, pipe, rfl, hnew⟩)
  -- a late transmit prunes and counts
  | noteTombstonedTransmit now q =>
      obtain rfl := Option.some.inj ha
      dsimp only at ht
      unfold Routing.noteTombstonedTransmit at ht
      dsimp only at ht
      split at ht
      · exact .inl (Map.lookup_of_prune ht)
      · rename_i t₀ ht₀
        dsimp only at ht
        rw [Map.lookup_replace_ite] at ht
        split at ht
        · rename_i hpq
          subst hpq
          rw [ht₀] at ht
          have hcounted := Option.some.inj ht
          exact .inr (.inl ⟨now, t₀, rfl, Map.lookup_of_prune ht₀, hcounted.symm⟩)
        · exact .inl (Map.lookup_of_prune ht)
  | insert now e q conn =>
      obtain rfl := Option.some.inj ha
      exact .inl ht
  | removeAndIsEmpty e q watch =>
      obtain rfl := Option.some.inj ha
      exact .inl ht
  | closePipe now q code reason =>
      obtain rfl := Option.some.inj ha
      exact .inl ht

end Shifts

section Shifts

variable {k : List (Router × RouterLabel)} {r r' : Router} {l : MemoryLabel}

/-- A reservation was there before, or has just been made. -/
theorem reservation_of_shifts (h : Shifts r l r') {e : KeyPrefix} {x : Reservation}
    (hx : r'.routing.reservations.lookup e = some x) : r.routing.reservations.lookup e = some x ∨
      ∃ now endpoint, l = .routing (.reserveOutbound now endpoint) ∧
        prefixFromEndpoint endpoint = e ∧ x = ⟨⟨r.routing.nextId + 1⟩, endpoint, now⟩ ∧
        r.routing.reservations.lookup e = none := by
  cases h with
  | rests hres _ _ _ => exact .inl (hres ▸ hx)
  | closes hres _ _ _ => exact .inl (hres ▸ hx)
  | @reserves now endpoint _ hfree hres _ _ _ =>
      rw [hres, Map.lookup_insert_ite] at hx
      split at hx
      · rename_i he
        subst he
        exact .inr ⟨now, endpoint, rfl, rfl, (Option.some.inj hx).symm, hfree⟩
      · exact .inl hx
  | consumes _ _ hres _ _ _ =>
      rw [hres, Map.lookup_erase_ite] at hx
      split at hx
      · cases hx
      · exact .inl hx
  | binds _ hres _ _ _ => exact .inl (hres ▸ hx)
  | mints _ hres _ _ _ => exact .inl (hres ▸ hx)

/-- The reservation in hand was there before, or has just been taken from the table. -/
theorem hand_of_shifts (h : Shifts r l r') {x : Reservation}
    (hx : r'.opening.reservation? = some x) : r.opening.reservation? = some x ∨
      ∃ e, r.routing.reservations.lookup e = some x := by
  cases h with
  | rests _ hhand _ _ => exact .inl (hhand ▸ hx)
  | closes _ hhand _ _ => exact .inl (hhand ▸ hx)
  | reserves _ _ hhand _ _ => exact .inl (hhand ▸ hx)
  | consumes _ hfound _ hhand _ _ =>
      obtain rfl := Option.some.inj (hhand.symm.trans hx)
      exact .inr ⟨_, hfound⟩
  | binds _ _ hhand _ _ =>
      rw [hhand] at hx
      cases hx
  | mints _ _ hhand _ _ =>
      rw [hhand] at hx
      cases hx

/-- A pipe was there before, or is the one that is registered. -/
theorem pipe_of_shifts (hd : Disciplined k r) (h : Shifts r l r') {id : StableConnId}
    {pipe : Pipe} (hpipe : r'.routing.pipes.lookup id = some pipe) :
    r.routing.pipes.lookup id = some pipe ∨ id ∉ boundIds k := by
  cases h with
  | rests _ _ _ hpipes => exact .inl (hpipes ▸ hpipe)
  | closes _ _ _ hpipes =>
      rw [hpipes, Map.lookup_erase_ite] at hpipe
      split at hpipe
      · cases hpipe
      · exact .inl hpipe
  | reserves _ _ _ _ hpipes => exact .inl (hpipes ▸ hpipe)
  | consumes _ _ _ _ _ hpipes => exact .inl (hpipes ▸ hpipe)
  | @binds now device role x _ hbefore _ _ _ hpipes =>
      rw [hpipes, Map.lookup_insert_ite] at hpipe
      split at hpipe
      · rename_i hid
        rw [hid]
        exact .inr (hd.hand x (by rw [hbefore]; rfl)).2.1
      · exact .inl hpipe
  | mints _ _ _ _ hpipes =>
      rw [hpipes, Map.lookup_insert_ite] at hpipe
      split at hpipe
      · rename_i hid
        rw [hid]
        exact .inr hd.issued.next.1
      · exact .inl hpipe

/-- A reservation stays, or is taken in hand. -/
theorem reservation_shifts (h : Shifts r l r') {e : KeyPrefix} {x : Reservation}
    (hx : r.routing.reservations.lookup e = some x) :
    r'.routing.reservations.lookup e = some x ∨
      r.opening.reservation? = none ∧ r'.opening.reservation? = some x := by
  cases h with
  | rests hres _ _ _ => exact .inl (hres ▸ hx)
  | closes hres _ _ _ => exact .inl (hres ▸ hx)
  | reserves hfree hres _ _ _ =>
      refine .inl ?_
      rw [hres, Map.lookup_insert_ite]
      split
      · rename_i he
        rw [he, hfree] at hx
        cases hx
      · exact hx
  | @consumes _ _ e' y hidle hfound hres hhand _ _ =>
      by_cases he : e = e'
      · subst he
        obtain rfl := Option.some.inj (hfound.symm.trans hx)
        exact .inr ⟨hidle, hhand⟩
      · refine .inl ?_
        rw [hres, Map.lookup_erase_ite, if_neg he]
        exact hx
  | binds _ hres _ _ _ => exact .inl (hres ▸ hx)
  | mints _ hres _ _ _ => exact .inl (hres ▸ hx)

/-- The reservation in hand stays there, or its id is bound to a pipe. -/
theorem hand_shifts (h : Shifts r l r') {x : Reservation} (hx : r.opening.reservation? = some x) :
    r'.opening.reservation? = some x ∨ ∃ now device role, l = .routing (.register now) ∧
      r.opening = .consumed device role (some x) ∧ r'.routing.pipes.lookup x.stableId =
        some ⟨x.stableId, device, directionForRole role, now⟩ := by
  cases h with
  | rests _ hhand _ _ => exact .inl (hhand.trans hx)
  | closes _ hhand _ _ => exact .inl (hhand.trans hx)
  | reserves _ _ hhand _ _ => exact .inl (hhand.trans hx)
  | consumes hidle _ _ _ _ _ =>
      rw [hidle] at hx
      cases hx
  | @binds now device role y _ hbefore _ _ _ hpipes =>
      rw [hbefore] at hx
      obtain rfl := Option.some.inj hx
      refine .inr ⟨now, device, role, rfl, hbefore, ?_⟩
      rw [hpipes]
      exact AList.lookup_insert _
  | mints hbefore _ _ _ _ =>
      rw [hbefore] at hx
      cases hx

/-- A live pipe stays, or is evicted. -/
theorem pipe_shifts (hd : Disciplined k r) (h : Shifts r l r') {id : StableConnId} {pipe : Pipe}
    (hpipe : r.routing.pipes.lookup id = some pipe) :
    r'.routing.pipes.lookup id = some pipe ∨ ∃ now, l = .routing (.evictPipe now id) := by
  have hbound := hd.live id pipe hpipe
  -- a pipe that is registered gets an id that was bound to none
  have hinsert : ∀ {id' pipe'}, id' ∉ boundIds k →
      (r.routing.pipes.insert id' pipe').lookup id = some pipe := by
    intro id' pipe' hfresh
    rw [Map.lookup_insert_ite, if_neg]
    · exact hpipe
    · rintro rfl
      exact hfresh hbound
  cases h with
  | rests _ _ _ hpipes => exact .inl (hpipes ▸ hpipe)
  | @closes now p _ _ _ _ hpipes =>
      -- the pipe itself, or another one
      by_cases hp : id = p
      · subst hp
        exact .inr ⟨now, rfl⟩
      · refine .inl ?_
        rw [hpipes, Map.lookup_erase_ite, if_neg hp]
        exact hpipe
  | reserves _ _ _ _ hpipes => exact .inl (hpipes ▸ hpipe)
  | consumes _ _ _ _ _ hpipes => exact .inl (hpipes ▸ hpipe)
  | @binds now device role x _ hbefore _ _ _ hpipes =>
      refine .inl ?_
      rw [hpipes]
      exact hinsert (hd.hand x (by rw [hbefore]; rfl)).2.1
  | mints _ _ _ _ hpipes =>
      refine .inl ?_
      rw [hpipes]
      exact hinsert hd.issued.next.1

/-- The counter moves only when an id is reserved or bound. -/
theorem nextId_shifts (h : Shifts r l r') : r'.routing.nextId = r.routing.nextId ∨
    r'.routing.nextId = r.routing.nextId + 1 ∧
      ((∃ now e, l = .routing (.reserveOutbound now e) ∧
        r.routing.reservations.lookup (prefixFromEndpoint e) = none ∧
        r'.routing.reservations.lookup (prefixFromEndpoint e) =
          some ⟨⟨r.routing.nextId + 1⟩, e, now⟩) ∨
      ∃ now device role, l = .routing (.register now) ∧ r.opening = .consumed device role none ∧
        r'.routing.pipes.lookup ⟨r.routing.nextId + 1⟩ =
          some ⟨⟨r.routing.nextId + 1⟩, device, directionForRole role, now⟩) := by
  cases h with
  | rests _ _ hnext _ => exact .inl hnext
  | closes _ _ hnext _ => exact .inl hnext
  | @reserves now e _ hfree hres _ hnext _ =>
      refine .inr ⟨hnext, .inl ⟨now, e, rfl, hfree, ?_⟩⟩
      rw [hres]
      exact AList.lookup_insert _
  | consumes _ _ _ _ hnext _ => exact .inl hnext
  | binds _ _ _ hnext _ => exact .inl hnext
  | @mints now device role _ hbefore _ _ hnext hpipes =>
      refine .inr ⟨hnext, .inr ⟨now, device, role, rfl, hbefore, ?_⟩⟩
      rw [hpipes]
      exact AList.lookup_insert _

end Shifts

/-! ## Where an id can be -/

/-- What the ids that have been given out are used for. -/
structure Placed (k : List (Router × RouterLabel)) (r : Router) : Prop where
  minted : ∀ id, id ∈ mintedIds k ↔ 0 < id.raw ∧ id.raw ≤ r.routing.nextId
  reserved : ∀ e x, r.routing.reservations.lookup e = some x →
    x.stableId ∈ mintedIds k ∧ prefixFromEndpoint x.endpointId = e
  hand : ∀ x, r.opening.reservation? = some x → x.stableId ∈ mintedIds k
  bound : ∀ id ∈ boundIds k, id ∈ mintedIds k
  used : ∀ id ∈ mintedIds k, (∃ e x, r.routing.reservations.lookup e = some x ∧ x.stableId = id) ∨
    (∃ x, r.opening.reservation? = some x ∧ x.stableId = id) ∨ id ∈ boundIds k

/-- An empty table holds no id. -/
theorem placed_init {r : Router} (hr : Router.system.Init r) : Placed [] r := by
  obtain ⟨self, rfl⟩ := hr
  constructor
  · intro id
    constructor
    · intro hid
      cases hid
    · rintro ⟨hpos, hle⟩
      have hle' : id.raw ≤ 0 := hle
      omega
  · intro e x hx
    cases hx
  · intro x hx
    cases hx
  · intro id hid
    cases hid
  · intro id hid
    cases hid

/-- A pipe gets the id in hand, or a new one. -/
theorem binds_eq_some {x : Router × RouterLabel} {id : StableConnId}
    (h : Router.binds x = some id) :
    (∃ y, x.1.opening.reservation? = some y ∧ y.stableId = id) ∨ minted x = some id := by
  obtain ⟨s, l⟩ := x
  cases l with
  | register now =>
      cases hopening : s.opening with
      | consumed device role z =>
          cases z with
          | some y =>
              rw [binds_of_reserved hopening] at h
              exact .inl ⟨y, rfl, Option.some.inj h⟩
          | none =>
              rw [binds_of_unreserved hopening] at h
              rw [minted_of_unreserved hopening]
              exact .inr h
      | _ =>
          -- the driver has no pipe to register
          simp only [Router.binds, Router.register, hopening] at h
          cases h
  | _ => cases h

/-- A new id is reserved, or bound at once. -/
theorem minted_eq_some {r r' : Router} {rl : RouterLabel}
    (h : r'.routing.nextId = r.routing.nextId + 1 ∧
      ((∃ now e, MemoryLabel.routing rl = .routing (.reserveOutbound now e) ∧
        r.routing.reservations.lookup (prefixFromEndpoint e) = none ∧
        r'.routing.reservations.lookup (prefixFromEndpoint e) =
          some ⟨⟨r.routing.nextId + 1⟩, e, now⟩) ∨
      ∃ now device role, MemoryLabel.routing rl = .routing (.register now) ∧
        r.opening = .consumed device role none ∧
        r'.routing.pipes.lookup ⟨r.routing.nextId + 1⟩ =
          some ⟨⟨r.routing.nextId + 1⟩, device, directionForRole role, now⟩)) :
    minted (r, rl) = some ⟨r.routing.nextId + 1⟩ ∧
      ((∃ e x, r'.routing.reservations.lookup e = some x ∧
        x.stableId = ⟨r.routing.nextId + 1⟩) ∨
      Router.binds (r, rl) = some ⟨r.routing.nextId + 1⟩) := by
  obtain ⟨-, ⟨now, e, hlabel, hfree, hres⟩ | ⟨now, device, role, hlabel, hbefore, -⟩⟩ := h
  · obtain rfl := MemoryLabel.routing.inj hlabel
    exact ⟨minted_of_free hfree, .inl ⟨_, _, hres, rfl⟩⟩
  · obtain rfl := MemoryLabel.routing.inj hlabel
    exact ⟨minted_of_unreserved hbefore, .inr (binds_of_unreserved hbefore)⟩

/-- A step keeps every id in its place. -/
theorem placed_step {k : List (Router × RouterLabel)} {r r' : Router} {rl : RouterLabel}
    (hp : Placed k r) (hd : Disciplined k r) (hs : Router.system.step rl r = some r') :
    Placed (k ++ [(r, rl)]) r' := by
  have hmem : ∀ id, id ∈ mintedIds (k ++ [(r, rl)]) ↔
      id ∈ mintedIds k ∨ minted (r, rl) = some id := by
    intro id
    rw [mintedIds_append, List.mem_append, Option.mem_toList]
  have hbound : ∀ id, id ∈ boundIds (k ++ [(r, rl)]) ↔
      id ∈ boundIds k ∨ Router.binds (r, rl) = some id := by
    intro id
    rw [boundIds_append, List.mem_append, Option.mem_toList]
  have hrange := (hd.step hs).range
  have hshifts := shifts_of_routerStep hd hs
  have hnext := nextId_shifts hshifts
  -- an id is minted exactly if the counter moves on to it
  have hminted : ∀ id, id ∈ mintedIds (k ++ [(r, rl)]) ↔
      0 < id.raw ∧ id.raw ≤ r'.routing.nextId := by
    intro id
    refine ⟨hrange id, ?_⟩
    rintro ⟨hpos, hle⟩
    by_cases hlt : id.raw ≤ r.routing.nextId
    · exact (hmem id).mpr (.inl ((hp.minted id).mpr ⟨hpos, hlt⟩))
    · rcases hnext with hsame | hmoved
      · omega
      · have hid : id = ⟨r.routing.nextId + 1⟩ := by
          obtain ⟨raw⟩ := id
          rw [StableConnId.mk.injEq]
          dsimp only at hlt hle
          omega
        exact (hmem id).mpr (.inr (hid ▸ (minted_eq_some hmoved).1))
  constructor
  · exact hminted
  · intro e x hx
    rcases reservation_of_shifts hshifts hx with hx | ⟨now, endpoint, hlabel, he, rfl, hfree⟩
    · exact ⟨(hmem _).mpr (.inl (hp.reserved e x hx).1), (hp.reserved e x hx).2⟩
    · obtain rfl := MemoryLabel.routing.inj hlabel
      subst he
      exact ⟨(hmem _).mpr (.inr (minted_of_free hfree)), rfl⟩
  · intro x hx
    refine (hmem _).mpr (.inl ?_)
    rcases hand_of_shifts hshifts hx with hx | ⟨e, hx⟩
    · exact hp.hand x hx
    · exact (hp.reserved e x hx).1
  · intro id hid
    rcases (hbound id).mp hid with hid | hbinds
    · exact (hmem id).mpr (.inl (hp.bound id hid))
    · rcases binds_eq_some hbinds with ⟨y, hy, rfl⟩ | hmint
      · exact (hmem _).mpr (.inl (hp.hand y hy))
      · exact (hmem id).mpr (.inr hmint)
  · intro id hid
    by_cases hold : id ∈ mintedIds k
    · rcases hp.used id hold with ⟨e, x, hx, rfl⟩ | ⟨x, hx, rfl⟩ | hid
      · rcases reservation_shifts hshifts hx with hx | ⟨-, hx⟩
        · exact .inl ⟨e, x, hx, rfl⟩
        · exact .inr (.inl ⟨x, hx, rfl⟩)
      · rcases hand_shifts hshifts hx with hx | ⟨now, device, role, hlabel, hbefore, -⟩
        · exact .inr (.inl ⟨x, hx, rfl⟩)
        · obtain rfl := MemoryLabel.routing.inj hlabel
          exact .inr (.inr ((hbound _).mpr (.inr (binds_of_reserved hbefore))))
      · exact .inr (.inr ((hbound id).mpr (.inl hid)))
    · -- the id is the one that the counter has moved on to
      have hnew := (hmem id).mp hid |>.resolve_left hold
      rcases hnext with hsame | hmoved
      · have hle := (hminted id).mp hid
        rw [hsame] at hle
        exact absurd ((hp.minted id).mpr hle) hold
      · obtain ⟨hmint, hused⟩ := minted_eq_some hmoved
        obtain rfl := Option.some.inj (hmint.symm.trans hnew)
        rcases hused with ⟨e, x, hx, hid⟩ | hbinds
        · exact .inl ⟨e, x, hx, hid⟩
        · exact .inr (.inr ((hbound _).mpr (.inr hbinds)))

/-- Which table holds an id, and what it says of it. -/
inductive Stands (h : List (Memories × MemoryLabel)) (s : Memories) (id : StableConnId) :
    Standing → Prop where
  | unminted (fresh : id ∉ mintedIds (routerSteps h)) : Stands h s id .unminted
  | reserved {e : KeyPrefix} {x : Reservation}
      (found : s.router.routing.reservations.lookup e = some x) (own : x.stableId = id) :
      Stands h s id (.reserved x)
  | opening {x : Reservation} (hand : s.router.opening.reservation? = some x)
      (own : x.stableId = id) : Stands h s id (.opening x)
  | live {pipe : Pipe} (found : s.router.routing.pipes.lookup id = some pipe) :
      Stands h s id (.live pipe)
  | buried {t : PipeTombstone} (found : s.tombstones.lookup id = some t) : Stands h s id (.buried t)
  | gone (bound : id ∈ boundIds (routerSteps h)) (dead : s.router.routing.pipes.lookup id = none)
      (forgotten : s.tombstones.lookup id = none) : Stands h s id .gone

/-- What holds in every state, of the tables and of the ids. -/
structure Orderly (h : List (Memories × MemoryLabel)) (s : Memories) : Prop where
  kept : Kept h s
  placed : Placed (routerSteps h) s.router

section Stands

variable {h : List (Memories × MemoryLabel)} {s s' : Memories} {l : MemoryLabel} {id : StableConnId}

/-- Places do not depend on the tombstones. -/
theorem Placed.of_eq {k : List (Router × RouterLabel)} {a b : Router} (hp : Placed k a)
    (hopening : b.opening = a.opening) (hrest : { b.routing with pipeTombstones := ∅ } =
      { a.routing with pipeTombstones := ∅ }) : Placed k b := by
  have hnext : b.routing.nextId = a.routing.nextId := (congrArg Routing.nextId hrest :)
  have hres : b.routing.reservations = a.routing.reservations :=
    (congrArg Routing.reservations hrest :)
  constructor
  · rw [hnext]
    exact hp.minted
  · rw [hres]
    exact hp.reserved
  · rw [hopening]
    exact hp.hand
  · exact hp.bound
  · rw [hres, hopening]
    exact hp.used

/-- A step keeps the whole order. -/
theorem Orderly.step (ho : Orderly h s) (hs : system.step l s = some s') :
    Orderly (h ++ [(s, l)]) s' := by
  refine ⟨ho.kept.step hs, ?_⟩
  rw [routerSteps_append]
  rcases router_of_step hs with ⟨rl, rfl, hstep⟩ | ⟨hnil, -, hopening, hrest⟩
  · exact placed_step ho.placed ho.kept.disciplined hstep
  · rw [hnil, List.append_nil]
    exact ho.placed.of_eq hopening hrest

theorem orderly_of_run (hrun : system.Run h s) : Orderly h s := by
  induction hrun with
  | init hs =>
      obtain ⟨self, rfl⟩ := hs
      exact ⟨kept_init ⟨self, rfl⟩, placed_init ⟨self, rfl⟩⟩
  | step _ hs ih => exact ih.step hs

/-- A reservation is found by its id. -/
theorem reservationWith_eq_some {r : Routing} (hinv : r.Inverse) {x : Reservation} :
    r.reservationWith id = some x ↔ ∃ e, r.reservations.lookup e = some x ∧ x.stableId = id := by
  unfold Routing.reservationWith
  rw [Option.bind_eq_some_iff]
  constructor
  · rintro ⟨e, he, hx⟩
    obtain ⟨y, hy, hid⟩ := (hinv e id).mpr he
    obtain rfl := Option.some.inj (hy.symm.trans hx)
    exact ⟨e, hx, hid⟩
  · rintro ⟨e, hx, hid⟩
    exact ⟨e, (hinv e id).mp ⟨x, hx, hid⟩, hx⟩

theorem reservationFor_eq_some {o : Opening} {x : Reservation} :
    o.reservationFor id = some x ↔ o.reservation? = some x ∧ x.stableId = id := by
  unfold Opening.reservationFor
  rw [Option.filter_eq_some_iff]
  simp

/-- The tables that an id is in, and what is left when it is in none. -/
theorem stands_standing (ho : Orderly h s) (id : StableConnId) :
    Stands h s id (s.standing id) := by
  unfold standing
  cases hres : s.router.routing.reservationWith id with
  | some x =>
      obtain ⟨e, hx, hid⟩ := (reservationWith_eq_some ho.kept.disciplined.inverse).mp hres
      exact .reserved hx hid
  | none =>
    cases hhand : s.router.opening.reservationFor id with
    | some x =>
        obtain ⟨hx, hid⟩ := reservationFor_eq_some.mp hhand
        exact .opening hx hid
    | none =>
      cases hpipe : s.router.routing.pipes.lookup id with
      | some pipe => exact .live hpipe
      | none =>
        cases ht : s.tombstones.lookup id with
        | some t => exact .buried ht
        -- in no table: minted and gone, or not minted yet
        | none =>
            dsimp only
            split
            · rename_i hrange
              have hminted := (ho.placed.minted id).mpr hrange
              rcases ho.placed.used id hminted with ⟨e, x, hx, hid⟩ | ⟨x, hx, hid⟩ | hbound
              · rw [(reservationWith_eq_some ho.kept.disciplined.inverse).mpr ⟨e, hx, hid⟩] at hres
                cases hres
              · rw [reservationFor_eq_some.mpr ⟨hx, hid⟩] at hhand
                cases hhand
              · exact .gone hbound hpipe ht
            · rename_i hrange
              exact .unminted fun hminted => hrange ((ho.placed.minted id).mp hminted)

/-- No two tables hold the same id. -/
theorem Stands.unique (ho : Orderly h s) {x y : Standing} (hx : Stands h s id x)
    (hy : Stands h s id y) : x = y := by
  have hd := ho.kept.disciplined
  have hreserved : ∀ {e z}, s.router.routing.reservations.lookup e = some z → z.stableId = id →
      id ∈ mintedIds (routerSteps h) ∧ id ∉ boundIds (routerSteps h) := by
    rintro e z hz rfl
    exact ⟨(ho.placed.reserved e z hz).1, (hd.issued.reserved e z hz).2⟩
  have hhand : ∀ {z}, s.router.opening.reservation? = some z → z.stableId = id →
      id ∈ mintedIds (routerSteps h) ∧ id ∉ boundIds (routerSteps h) := by
    rintro z hz rfl
    exact ⟨ho.placed.hand z hz, (hd.hand z hz).2.1⟩
  have hbound : ∀ {z}, s.router.routing.pipes.lookup id = some z →
      id ∈ boundIds (routerSteps h) := fun hz => hd.live id _ hz
  have hburied : ∀ {t}, s.tombstones.lookup id = some t →
      id ∈ boundIds (routerSteps h) ∧ s.router.routing.pipes.lookup id = none :=
    fun ht => ho.kept.buried id _ ht
  have hminted := ho.placed.bound id
  -- two standings of one id: each pair but the equal ones is against the order of mints, bindings
  -- and burials
  cases hx with
  | unminted hfresh =>
      cases hy with
      | unminted _ => rfl
      | reserved hz hid => exact absurd (hreserved hz hid).1 hfresh
      | opening hz hid => exact absurd (hhand hz hid).1 hfresh
      | live hz => exact absurd (hminted (hbound hz)) hfresh
      | buried ht => exact absurd (hminted (hburied ht).1) hfresh
      | gone hb _ _ => exact absurd (hminted hb) hfresh
  | @reserved e x hfound hid =>
      cases hy with
      | unminted hfresh => exact absurd (hreserved hfound hid).1 hfresh
      | @reserved e' x' hfound' hid' =>
          -- the id leads back to its prefix
          have he := (hd.inverse e id).mp ⟨x, hfound, hid⟩
          have he' := (hd.inverse e' id).mp ⟨x', hfound', hid'⟩
          obtain rfl := Option.some.inj (he.symm.trans he')
          obtain rfl := Option.some.inj (hfound.symm.trans hfound')
          rfl
      | opening hz hid' => exact absurd (hid.trans hid'.symm) ((hd.hand _ hz).2.2 e x hfound)
      | live hz => exact absurd (hbound hz) (hreserved hfound hid).2
      | buried ht => exact absurd (hburied ht).1 (hreserved hfound hid).2
      | gone hb _ _ => exact absurd hb (hreserved hfound hid).2
  | @opening x hfound hid =>
      cases hy with
      | unminted hfresh => exact absurd (hhand hfound hid).1 hfresh
      | @reserved e z hz hid' =>
          exact absurd (hid'.trans hid.symm) ((hd.hand x hfound).2.2 e z hz)
      | opening hz _ =>
          obtain rfl := Option.some.inj (hfound.symm.trans hz)
          rfl
      | live hz => exact absurd (hbound hz) (hhand hfound hid).2
      | buried ht => exact absurd (hburied ht).1 (hhand hfound hid).2
      | gone hb _ _ => exact absurd hb (hhand hfound hid).2
  | live hfound =>
      cases hy with
      | unminted hfresh => exact absurd (hminted (hbound hfound)) hfresh
      | reserved hz hid => exact absurd (hbound hfound) (hreserved hz hid).2
      | opening hz hid => exact absurd (hbound hfound) (hhand hz hid).2
      | live hz =>
          obtain rfl := Option.some.inj (hfound.symm.trans hz)
          rfl
      | buried ht =>
          rw [(hburied ht).2] at hfound
          cases hfound
      | gone _ hdead _ =>
          rw [hdead] at hfound
          cases hfound
  | buried ht =>
      cases hy with
      | unminted hfresh => exact absurd (hminted (hburied ht).1) hfresh
      | reserved hz hid => exact absurd (hburied ht).1 (hreserved hz hid).2
      | opening hz hid => exact absurd (hburied ht).1 (hhand hz hid).2
      | live hz =>
          rw [(hburied ht).2] at hz
          cases hz
      | buried ht' =>
          obtain rfl := Option.some.inj (ht.symm.trans ht')
          rfl
      | gone _ _ hforgotten =>
          rw [hforgotten] at ht
          cases ht
  | gone hb hdead hforgotten =>
      cases hy with
      | unminted hfresh => exact absurd (hminted hb) hfresh
      | reserved hz hid => exact absurd hb (hreserved hz hid).2
      | opening hz hid => exact absurd hb (hhand hz hid).2
      | live hz =>
          rw [hdead] at hz
          cases hz
      | buried ht =>
          rw [hforgotten] at ht
          cases ht
      | gone _ _ _ => rfl

/-- The order in which the tables are asked makes no difference. -/
theorem stands_iff (ho : Orderly h s) {x : Standing} : Stands h s id x ↔ s.standing id = x := by
  constructor
  · intro hx
    exact (stands_standing ho id).unique ho hx
  · rintro rfl
    exact stands_standing ho id

/-- One step of the life of an id. -/
theorem moves_of_step (ho : Orderly h s) (hs : system.step l s = some s') (id : StableConnId) :
    Moves id s l s' (s.standing id) (s'.standing id) := by
  have ho' := ho.step hs
  have hshifts := shifts_of_step ho.kept hs
  have hd := ho.kept.disciplined
  -- it is enough to know what the tables hold afterwards
  suffices hnext : ∃ y, Stands (h ++ [(s, l)]) s' id y ∧ Moves id s l s' (s.standing id) y by
    obtain ⟨y, hy, hmoves⟩ := hnext
    rw [(stands_iff ho').mp hy]
    exact hmoves
  -- a pipe that is gone does not come back
  have hburied : id ∈ boundIds (routerSteps h) → s.router.routing.pipes.lookup id = none →
      s'.tombstones.lookup id = none → Stands (h ++ [(s, l)]) s' id .gone := by
    intro hbound hdead hforgotten
    refine .gone ?_ ?_ hforgotten
    · rw [routerSteps_append]
      unfold boundIds
      rw [List.filterMap_append]
      exact List.mem_append_left _ hbound
    · cases hpipe : s'.router.routing.pipes.lookup id with
      | none => rfl
      | some pipe =>
          rcases pipe_of_shifts hd hshifts hpipe with hlive | hfresh
          · rw [hdead] at hlive
            cases hlive
          · exact absurd hbound hfresh
  have hstands := stands_standing ho id
  generalize s.standing id = x at hstands ⊢
  cases hstands with
  | unminted hfresh =>
      by_cases hminted : id ∈ mintedIds (routerSteps (h ++ [(s, l)]))
      · -- the counter has moved on to it
        have hout : ¬ (0 < id.raw ∧ id.raw ≤ s.router.routing.nextId) := by
          intro hin
          exact hfresh ((ho.placed.minted id).mpr hin)
        have hin := (ho'.placed.minted id).mp hminted
        rcases nextId_shifts hshifts with hsame | ⟨hmoved, hused⟩
        · rw [hsame] at hin
          exact absurd hin hout
        · have hid : id = ⟨s.router.routing.nextId + 1⟩ := by
            obtain ⟨raw⟩ := id
            rw [StableConnId.mk.injEq]
            dsimp only at hin hout
            omega
          subst hid
          rcases hused with ⟨now, e, rfl, hfree, hres⟩ | ⟨now, device, role, rfl, hbefore, hpipe⟩
          · exact ⟨_, .reserved hres rfl, .reserve now e hfree⟩
          · exact ⟨_, .live hpipe, .mint now device role hbefore⟩
      · exact ⟨_, .unminted hminted, .stays _⟩
  | reserved hfound hid =>
      rcases reservation_shifts hshifts hfound with hsame | ⟨hidle, hhand⟩
      · exact ⟨_, .reserved hsame hid, .stays _⟩
      · exact ⟨_, .opening hhand hid, .consume _ hidle⟩
  | opening hfound hid =>
      rcases hand_shifts hshifts hfound with hsame | ⟨now, device, role, rfl, hbefore, hpipe⟩
      · exact ⟨_, .opening hsame hid, .stays _⟩
      · subst hid
        exact ⟨_, .live hpipe, .bind now device role _ hbefore⟩
  | @live pipe hfound =>
      rcases pipe_shifts hd hshifts hfound with hsame | ⟨now, rfl⟩
      · exact ⟨_, .live hsame, .stays _⟩
      · have hrecord := (records_of_step ho.kept hs).evicted now id pipe rfl hfound
        exact ⟨_, .buried hrecord, .evict now pipe⟩
  | @buried t hfound =>
      obtain ⟨hbound, hdead⟩ := ho.kept.buried id t hfound
      cases hnew : s'.tombstones.lookup id with
      | some t' =>
          rcases tombstone_of_step hs hnew with hold | ⟨now, t₀, rfl, hold, rfl⟩ |
            ⟨now, pipe, -, hlive, -⟩
          · obtain rfl := Option.some.inj (hfound.symm.trans hold)
            exact ⟨_, .buried hnew, .stays _⟩
          · obtain rfl := Option.some.inj (hfound.symm.trans hold)
            exact ⟨_, .buried hnew, .count now t⟩
          · rw [hdead] at hlive
            cases hlive
      | none =>
          refine ⟨_, hburied hbound hdead hnew, .forget t ?_⟩
          by_cases hlive : s'.clock - t.evictedAt ≤ pipeTombstoneTtl
          · exact .inr (dropsOldest_tombstones ho.kept hs hfound hlive hnew)
          · exact .inl (Nat.lt_of_not_le hlive)
  | gone hbound hdead hforgotten =>
      refine ⟨_, hburied hbound hdead ?_, .stays _⟩
      cases hnew : s'.tombstones.lookup id with
      | none => rfl
      | some t' =>
          rcases tombstone_of_step hs hnew with hold | ⟨now, t₀, rfl, hold, rfl⟩ |
            ⟨now, pipe, -, hlive, -⟩
          · rw [hforgotten] at hold
            cases hold
          · rw [hforgotten] at hold
            cases hold
          · rw [hdead] at hlive
            cases hlive

end Stands

/-- An id does not come back to where it was. -/
theorem rank_of_run {h : List (Memories × MemoryLabel)} {s : Memories} (hrun : system.Run h s)
    (id : StableConnId) {x : Memories × MemoryLabel} (hx : x ∈ h) :
    (x.1.standing id).rank ≤ (s.standing id).rank := by
  induction hrun with
  | init _ => cases hx
  | @step h s s' l hrun hs ih =>
      have hstep := (moves_of_step (orderly_of_run hrun) hs id).rank_le
      rcases List.mem_append.mp hx with hx | hx
      · exact (ih hx).trans hstep
      · rw [List.mem_singleton.mp hx]
        exact hstep

/-- The life of a stable id in every run, before the `u64` counter wraps: at every moment it
stands in exactly one table, or has not been minted, or is gone; every step leaves it where it
is or takes it to the next place with what was recorded of it; and it never comes back to a
place that it has left. A tombstone is dropped only when it has expired, or when as many as the
table is to hold are left and none of them is older. -/
theorem id_life {h : List (Memories × MemoryLabel)} {s : Memories} (hrun : system.Run h s)
    (id : StableConnId) :
    (∀ x, Stands h s id x ↔ s.standing id = x) ∧
      (∀ x ∈ h, (x.1.standing id).rank ≤ (s.standing id).rank) ∧
      ∀ l s', system.step l s = some s' → Moves id s l s' (s.standing id) (s'.standing id) := by
  have ho := orderly_of_run hrun
  refine ⟨fun x => stands_iff ho, ?_, ?_⟩
  · intro x hx
    exact rank_of_run hrun id hx
  · intro l s' hs
    exact moves_of_step ho hs id

/-- A reserved id is bound, used, and forgotten half a minute after its pipe is gone. -/
def lifeRun : List MemoryLabel :=
  [.routing (.noteScanHint (prefixFromEndpoint peerEndpoint) "peer"),
    .routing (.reserveOutbound 1 peerEndpoint),
    .routing (.startPipe "peer" .central (some peerEndpoint)), .routing (.register 2),
    .routing (.registerPending 2), .routing (.evictPipeState ⟨1⟩), .routing (.evictPipe 5 ⟨1⟩),
    .noteTombstonedTransmit 6 ⟨1⟩, .noteTombstonedTransmit (6 + pipeTombstoneTtl) ⟨1⟩]

/-- A run that takes an id through its whole life. -/
theorem id_life_lifeRun : ∃ h s, system.Run h s ∧ h.map Prod.snd = lifeRun ∧
    Stands h s ⟨1⟩ .gone ∧ h.map (fun x => (x.1.standing ⟨1⟩).rank) = [0, 0, 1, 2, 3, 3, 3, 4, 4] := by
  obtain ⟨h, s, hrun, hlabels, hgone, hranks⟩ := System.Run.of_trace
    (P := fun h s => s.standing ⟨1⟩ = .gone ∧
      h.map (fun x => (x.1.standing ⟨1⟩).rank) = [0, 0, 1, 2, 3, 3, 3, 4, 4])
    lifeRun (init_new localEndpoint) (by decide +kernel)
  exact ⟨h, s, hrun, hlabels, ((id_life hrun ⟨1⟩).1 _).mpr hgone, hranks⟩

end Memories

end IrohBle
