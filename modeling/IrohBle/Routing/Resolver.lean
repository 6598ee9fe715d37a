import IrohBle.Routing.Answer

/-! # Routing.Resolver: parked resolver streams

`EndpointResolveStream::poll_next` parks its waker, computes the answer and returns `Pending`
when that is what it emitted last, or when there is none. It is polled again after a wake, so a
change that wakes nobody leaves it with an answer that holds no longer.

* A run is any interleaving of the operations on the table with polls of any number of streams.
  A stream that returned `Pending` keeps the waker and the answer of that poll, until the waker
  is woken.
* `Careful`: no operation takes from an endpoint that waits what another endpoint is woken for.
* `no_lost_wakeup`: in a run of such operations a parked stream would give the answer that it
  has computed.
* `other_peer_loses_wakeup`: a pipe that was dialled for one endpoint is verified as another
  one, and the resolver of the first keeps the dead answer.
-/

namespace IrohBle

open Lib

/-- The poll that returned `Pending`. -/
structure Parked where
  waker : Waker
  answer : Option Answer
deriving DecidableEq

/-- `EndpointResolveStream`: its endpoint, and what it has emitted last. -/
structure EndpointResolveStream where
  endpointId : EndpointId
  lastEmitted : Option StableConnId := none
  /-- Set from a poll that returned `Pending` until its waker is woken. -/
  parked : Option Parked := none
deriving DecidableEq

/-- The id that is emitted. -/
def Answer.stableId : Answer → Option StableConnId
  | .routable id | .pending id | .reservation id => some id
  | .hint => none

namespace Routing

/-- The answer of a poll. Where the prefix is only hinted at, it reserves an id. -/
def current (now : ℕ) (e : EndpointId) (r : Routing) : Routing × Option Answer :=
  match r.answer e with
  | some .hint =>
    match r.reserveOutbound now e with
    | (r, id) => (r, some (.reservation id))
  | answer => (r, answer)

end Routing

namespace EndpointResolveStream

/-- `poll_next`. -/
def pollNext (now : ℕ) (waker : Waker) (x : EndpointResolveStream) (r : Routing) :
    Routing × EndpointResolveStream :=
  match (r.registerEndpointWaker x.endpointId waker).current now x.endpointId with
  | (r, current) =>
    match current.bind Answer.stableId with
    | some id =>
      if some id = x.lastEmitted then (r, { x with parked := some ⟨waker, current⟩ })
      else (r, { x with lastEmitted := some id, parked := none })
    | none => (r, { x with parked := some ⟨waker, current⟩ })

/-- A woken stream is not parked any more. -/
def hear (woken : List Waker) (x : EndpointResolveStream) : EndpointResolveStream :=
  { x with parked := x.parked.filter fun y => decide (y.waker ∉ woken) }

end EndpointResolveStream

/-- The table and the streams that resolve endpoints from it. -/
structure Resolver where
  router : Router
  streams : List EndpointResolveStream := []

/-- The steps: a new stream, a poll, a pipe, and the other operations on the table. -/
inductive ResolverLabel where
  | resolve (endpoint : EndpointId)
  | poll (stream now : ℕ) (waker : Waker)
  /-- `execute(StartDataPipe)`. -/
  | openPipe (now : ℕ) (device : DeviceId) (role : ConnectRole) (target : Option EndpointId)
  /-- Any other operation. -/
  | operate (l : RouterLabel)

/-- One operation by itself. Opening a pipe and parking a waker are parts of other labels. -/
def RouterLabel.operates : RouterLabel → Bool
  | .promote .. | .evictRoutableIfPipe .. | .evictPipeState _ | .evictPipe .. | .noteScanHint ..
  | .reserveOutbound .. | .rehash _ => true
  | _ => false

namespace Resolver

/-- The table has changed, and the streams hear of it whose wakers were woken. -/
def change (s : Resolver) (router : Router) : Resolver where
  router := router
  streams := s.streams.map
    (EndpointResolveStream.hear (Routing.newlyWoken s.router.routing router.routing))

/-- A poll of the `i`th stream. -/
def poll (i now : ℕ) (waker : Waker) (s : Resolver) : Option Resolver :=
  match s.streams[i]? with
  | none => none
  | some x =>
    match x.pollNext now waker s.router.routing with
    | (r, x) => some { router := { s.router with routing := r }, streams := s.streams.set i x }

/-- One step. -/
def step : ResolverLabel → Resolver → Option Resolver
  | .resolve e, s => some { s with streams := s.streams ++ [{ endpointId := e }] }
  | .poll i now waker, s => s.poll i now waker
  | .openPipe now device role target, s =>
    some (s.change
      { s.router with routing := (s.router.routing.openPipe now device role target).1 })
  | .operate l, s => if l.operates then (Router.step l s.router).map s.change else none

/-- The table with its resolver streams as a transition system. -/
def system : System Resolver ResolverLabel where
  Init s := ∃ self, s = { router := { self := self } }
  step := step

/-- The endpoints of the parked streams. -/
def waiting (s : Resolver) : List EndpointId :=
  (s.streams.filter fun x => x.parked.isSome).map EndpointResolveStream.endpointId

/-- A parked stream waits for its endpoint. -/
theorem mem_waiting {s : Resolver} {x : EndpointResolveStream} {y : Parked} (hx : x ∈ s.streams)
    (hy : x.parked = some y) : x.endpointId ∈ s.waiting := by
  refine List.mem_map.mpr ⟨x, List.mem_filter.mpr ⟨hx, ?_⟩, rfl⟩
  rw [hy]
  rfl

/-- An endpoint that is waited for has a parked stream. -/
theorem of_mem_waiting {s : Resolver} {e : EndpointId} (he : e ∈ s.waiting) :
    ∃ x ∈ s.streams, ∃ y, x.parked = some y ∧ x.endpointId = e := by
  rcases List.mem_map.mp he with ⟨x, hx, rfl⟩
  rcases List.mem_filter.mp hx with ⟨hx, hsome⟩
  rcases Option.isSome_iff_exists.mp hsome with ⟨y, hy⟩
  exact ⟨x, hx, y, hy, rfl⟩

/-- What an operation does to the endpoints that wait and that it does not wake:

* a promotion binds no pipe to another endpoint that one of them waits on as pending, and does
  not find its routable entry in place of the incumbent;
* opening a pipe does not use up a reservation that one of them waits on;
* an id is not reserved for a prefix that one of them waits on with no answer;
* the order of the pending pool does not change while two pipes target one of them. -/
def Careful (s : Resolver) (l : ResolverLabel) : Prop :=
  match l with
  -- the promoted pipe, and the pipe that `routable` loses, must not be what somebody else waits on
  | .operate (.promote _ p e) => s.router.routing.accepts p s.router.self e = true →
      ∀ e' ∈ s.waiting, e' ≠ e → s.router.routing.answer e' ≠ some (.pending p) ∧
        ∀ x ∈ s.router.routing.routable.lookup e, x.pipe ≠ p →
          s.router.routing.routableEndpoint x.pipe ≠ some e'
  -- nor may a reservation that is consumed
  | .openPipe _ device _ target => ∀ x ∈ s.router.routing.reservationOf device target,
      ∀ e ∈ s.waiting, s.router.routing.answer e = some (.reservation x.stableId) →
        e = x.endpointId
  -- a new reservation answers everybody with its prefix
  | .operate (.reserveOutbound _ e) =>
      s.router.routing.reservationForPrefix (prefixFromEndpoint e) = none →
        ∀ e' ∈ s.waiting, prefixFromEndpoint e' = prefixFromEndpoint e →
          s.router.routing.answer e' ≠ none
  -- of two pending pipes for one endpoint, another order would give the other one
  | .operate (.rehash _) => ∀ e ∈ s.waiting, ∀ x ∈ s.router.routing.pending.entries,
      ∀ y ∈ s.router.routing.pending.entries, x.2.targetEndpoint = some e →
        y.2.targetEndpoint = some e → x.1 = y.1
  | _ => True

/-! ## A poll -/

end Resolver

namespace Routing

/-- The answer of a poll: one that is there, or a reservation made on the spot. -/
theorem current_cases (now : ℕ) (e : EndpointId) (r : Routing) :
    (r.answer e ≠ some .hint ∧ r.current now e = (r, r.answer e)) ∨
    (r.answer e = some .hint ∧ r.current now e =
      ((r.reserveOutbound now e).1, some (.reservation (r.reserveOutbound now e).2))) := by
  unfold current
  split
  · rename_i hhint
    exact Or.inr ⟨hhint, rfl⟩
  · rename_i hother
    exact Or.inl ⟨hother, rfl⟩

/-- What a poll reserves is its answer from then on. -/
theorem answer_reserveOutbound {now : ℕ} {e : EndpointId} {r : Routing}
    (h : r.answer e = some .hint) : (r.reserveOutbound now e).1.answer e =
      some (.reservation (r.reserveOutbound now e).2) := by
  rcases answer_eq_hint h with ⟨hr, hp, hx, -⟩
  have hnone : (r.prunePipeTombstones now).reservations.lookup (prefixFromEndpoint e) = none := hx
  unfold reserveOutbound
  dsimp only
  rw [hnone]
  refine answer_of_reservation (x := ⟨⟨r.nextId + 1⟩, e, now⟩) ?_ ?_ ?_
  · exact hr
  · exact hp
  · exact AList.lookup_insert _

/-- After the poll it is the answer of the table. -/
theorem answer_current (now : ℕ) (e : EndpointId) (r : Routing) :
    (r.current now e).1.answer e = (r.current now e).2 ∧ (r.current now e).2 ≠ some .hint := by
  rcases current_cases now e r with ⟨hne, hr⟩ | ⟨hhint, hr⟩
  · rw [hr]
    exact ⟨rfl, hne⟩
  · rw [hr]
    exact ⟨answer_reserveOutbound hhint, by simp⟩

/-- A hinted prefix always has an answer. -/
theorem answer_ne_none {e : EndpointId} {r : Routing}
    (h : (r.scanHintForPrefix (prefixFromEndpoint e)).isSome = true) : r.answer e ≠ none := by
  unfold answer
  split
  · simp
  · split
    · simp
    · split
      · simp
      · rw [if_pos h]
        simp

/-- A poll parks its waker. -/
theorem mem_wakersOf_register (e : EndpointId) (w : Waker) (r : Routing) :
    w ∈ (r.registerEndpointWaker e w).wakersOf e := by
  unfold wakersOf registerEndpointWaker
  rw [Map.lookup_insert_ite, if_pos rfl, Option.getD_some]
  split
  · assumption
  · simp

/-- A poll that parks its waker takes nobody else's out. -/
theorem wakersOf_register_mono {e e' : EndpointId} {w w' : Waker} {r : Routing}
    (h : w' ∈ r.wakersOf e') : w' ∈ (r.registerEndpointWaker e w).wakersOf e' := by
  unfold wakersOf at h
  unfold wakersOf registerEndpointWaker
  rw [Map.lookup_insert_ite]
  split
  · rename_i he
    rw [he] at h
    rw [Option.getD_some]
    split
    · exact h
    · exact List.mem_append_left _ h
  · exact h

/-- Registering a waker is no change to the tables. -/
theorem tables_registerEndpointWaker (e : EndpointId) (w : Waker) (r : Routing) :
    (r.registerEndpointWaker e w).tables = r.tables := rfl

/-- A reservation wakes nobody. -/
theorem woken_reserveOutbound (now : ℕ) (e : EndpointId) (r : Routing) :
    (r.reserveOutbound now e).1.woken = r.woken := by
  unfold reserveOutbound
  dsimp only
  split <;> rfl

theorem wakersOf_reserveOutbound (now : ℕ) (e e' : EndpointId) (r : Routing) :
    (r.reserveOutbound now e).1.wakersOf e' = r.wakersOf e' := by
  unfold reserveOutbound
  dsimp only
  split <;> rfl

end Routing

namespace EndpointResolveStream

open Routing

/-- A poll leaves the table with the answer, and the stream parked on it or emitting it. -/
theorem pollNext_cases (now : ℕ) (w : Waker) (x : EndpointResolveStream) (r : Routing) :
    (x.pollNext now w r).1 = ((r.registerEndpointWaker x.endpointId w).current now x.endpointId).1 ∧
    (x.pollNext now w r).2.endpointId = x.endpointId ∧
    ∀ y, (x.pollNext now w r).2.parked = some y →
      y = ⟨w, ((r.registerEndpointWaker x.endpointId w).current now x.endpointId).2⟩ := by
  unfold pollNext
  dsimp only
  split
  · split
    · refine ⟨rfl, rfl, ?_⟩
      intro y hy
      exact (Option.some.inj hy).symm
    · refine ⟨rfl, rfl, ?_⟩
      intro y hy
      cases hy
  · refine ⟨rfl, rfl, ?_⟩
    intro y hy
    exact (Option.some.inj hy).symm

end EndpointResolveStream

namespace Resolver

open Routing

/-! ## The table of a run -/

/-- A poll, with the table and the stream written out. -/
theorem poll_eq_some {s s' : Resolver} {i now : ℕ} {w : Waker} (hs : s.poll i now w = some s') :
    ∃ x, s.streams[i]? = some x ∧ s' =
      { router := { s.router with routing := (x.pollNext now w s.router.routing).1 }
        streams := s.streams.set i (x.pollNext now w s.router.routing).2 } := by
  unfold poll at hs
  split at hs
  · cases hs
  · rename_i x hx
    exact ⟨x, hx, (Option.some.inj hs).symm⟩

/-- An operation, with the table written out. -/
theorem operate_eq_some {s s' : Resolver} {l : RouterLabel}
    (hs : system.step (.operate l) s = some s') :
    l.operates = true ∧ ∃ t, Router.system.step l s.router = some t ∧ s' = s.change t := by
  simp only [system, step] at hs
  split at hs
  · rename_i hl
    rcases Option.map_eq_some_iff.mp hs with ⟨t, ht, rfl⟩
    exact ⟨hl, t, ht, rfl⟩
  · cases hs

/-- An operation of the others does not open a pipe. -/
theorem opening_operate {s t : Router} {l : RouterLabel} (hl : l.operates = true)
    (hs : Router.system.step l s = some t) : t.opening = s.opening := by
  cases l with
  | promote now p e =>
      simp only [Router.system, Router.step, Option.ite_none_left_eq_some] at hs
      obtain rfl := Option.some.inj hs.2
      rfl
  | evictPipeState p =>
      simp only [Router.system, Router.step, Option.ite_none_left_eq_some] at hs
      obtain rfl := Option.some.inj hs.2
      rfl
  | evictPipe now p =>
      simp only [Router.system, Router.step, Option.ite_none_left_eq_some] at hs
      obtain rfl := Option.some.inj hs.2
      rfl
  | rehash o =>
      rcases Option.map_eq_some_iff.mp hs with ⟨r, -, rfl⟩
      rfl
  | evictRoutableIfPipe e p =>
      obtain rfl := Option.some.inj hs
      rfl
  | noteScanHint k d =>
      obtain rfl := Option.some.inj hs
      rfl
  | reserveOutbound now e =>
      obtain rfl := Option.some.inj hs
      rfl
  | _ => cases hl

/-- The table alone takes the steps of a router that opens its pipes without a break. -/
theorem router_run {h : List (Resolver × ResolverLabel)} {s : Resolver} (hrun : system.Run h s) :
    ∃ k, Router.system.Run k s.router ∧ s.router.opening = .idle := by
  -- induction on the run: a poll is up to two operations, the opening of a pipe all of its four
  induction hrun with
  | init hs =>
      rcases hs with ⟨self, rfl⟩
      exact ⟨[], .init ⟨self, rfl⟩, rfl⟩
  | @step h s s' l _ hs ih =>
      rcases ih with ⟨k, hk, hidle⟩
      cases l with
      | resolve e =>
          obtain rfl := Option.some.inj hs
          exact ⟨k, hk, hidle⟩
      | poll i now w =>
          rcases poll_eq_some hs with ⟨x, -, rfl⟩
          rcases x.pollNext_cases now w s.router.routing with ⟨hr, -⟩
          have hwaker := hk.step (l := .registerEndpointWaker x.endpointId w) rfl
          rcases current_cases now x.endpointId
            (s.router.routing.registerEndpointWaker x.endpointId w) with ⟨-, hc⟩ | ⟨-, hc⟩
          · -- the answer was there, so only the waker is parked
            rw [hc] at hr
            rw [hr]
            exact ⟨_, hwaker, hidle⟩
          · rw [hc] at hr
            rw [hr]
            exact ⟨_, hwaker.step (l := .reserveOutbound now x.endpointId) rfl, hidle⟩
      | openPipe now device role target =>
          obtain rfl := Option.some.inj hs
          rcases hk.extend _ (Router.exec_opening hidle) with ⟨k', hk', -⟩
          refine ⟨k ++ k', ?_, hidle⟩
          simpa only [hidle, change] using hk'
      | operate l =>
          rcases operate_eq_some hs with ⟨hl, t, ht, rfl⟩
          refine ⟨_, hk.step ht, ?_⟩
          exact (opening_operate hl ht).trans hidle

/-! ## Parked streams -/

/-- A parked stream can be woken, and would give the answer that it has computed. -/
def Listening (s : Resolver) : Prop :=
  ∀ x ∈ s.streams, ∀ y, x.parked = some y →
    y.waker ∈ s.router.routing.wakersOf x.endpointId ∧
    s.router.routing.answer x.endpointId = y.answer ∧ y.answer ≠ some .hint

/-- Where every answer that changes is told, the streams stay listening. -/
theorem Listening.change {s : Resolver} {t : Router} (hl : Listening s)
    (h : Tells (· ∈ s.waiting) s.router.routing t.routing) : Listening (s.change t) := by
  intro x' hx' y hy
  rcases List.mem_map.mp hx' with ⟨x, hx, rfl⟩
  rcases Option.filter_eq_some_iff.mp hy with ⟨hy, hsilent⟩
  rcases hl x hx y hy with ⟨hwaker, hanswer, hhint⟩
  have hkeeps := h.keeps (mem_waiting hx hy) hwaker (of_decide_eq_true hsilent)
  exact ⟨hkeeps.1, hkeeps.2.trans hanswer, hhint⟩

/-- A poll reserves an id only for a hinted prefix, which nobody waits on without an answer. -/
theorem Listening.tells_current {s : Resolver} (hl : Listening s) (now : ℕ) (w : Waker)
    (e : EndpointId) :
    Tells (· ∈ s.waiting) (s.router.routing.registerEndpointWaker e w)
      ((s.router.routing.registerEndpointWaker e w).current now e).1 := by
  rcases current_cases now e (s.router.routing.registerEndpointWaker e w) with
    ⟨-, hr⟩ | ⟨hhint, hr⟩
  · rw [hr]
    exact ⟨[], .of_eq rfl rfl, fun _ _ _ => rfl⟩
  · rw [hr]
    refine tells_reserveOutbound now e ?_
    intro _ e' he' hsame
    rw [answer_of_tables (tables_registerEndpointWaker e w _)]
    constructor
    · refine answer_ne_none ?_
      rw [hsame]
      exact (answer_eq_hint hhint).2.2.2
    · rcases of_mem_waiting he' with ⟨x, hx, y, hy, rfl⟩
      rcases hl x hx y hy with ⟨-, hanswer, hne⟩
      rw [hanswer]
      exact hne

/-- The answer of a poll wakes nobody. -/
theorem newlyWoken_current (now : ℕ) (e : EndpointId) (r : Routing) :
    newlyWoken r (r.current now e).1 = [] := by
  have hwoken : (r.current now e).1.woken = r.woken := by
    rcases current_cases now e r with ⟨-, hr⟩ | ⟨-, hr⟩
    · rw [hr]
    · rw [hr]
      exact woken_reserveOutbound now e r
  unfold newlyWoken
  rw [hwoken, List.drop_length]

theorem wakersOf_current (now : ℕ) (e e' : EndpointId) (r : Routing) :
    (r.current now e).1.wakersOf e' = r.wakersOf e' := by
  rcases current_cases now e r with ⟨-, hr⟩ | ⟨-, hr⟩
  · rw [hr]
  · rw [hr]
    exact wakersOf_reserveOutbound now e e' r

/-- A poll keeps the streams listening. -/
theorem Listening.poll {s s' : Resolver} (hl : Listening s) {i now : ℕ} {w : Waker}
    (hs : s.poll i now w = some s') : Listening s' := by
  rcases poll_eq_some hs with ⟨x, -, rfl⟩
  rcases x.pollNext_cases now w s.router.routing with ⟨hr, hendpoint, hparked⟩
  intro x' hx' y hy
  dsimp only at hx' ⊢
  rw [hr]
  rcases List.mem_or_eq_of_mem_set hx' with hold | rfl
  · -- another stream
    rcases hl x' hold y hy with ⟨hwaker, hanswer, hhint⟩
    have hwaker' := wakersOf_register_mono (e := x.endpointId) (w := w) hwaker
    have hkeeps := (hl.tells_current now w x.endpointId).keeps (mem_waiting hold hy) hwaker' (by
      rw [newlyWoken_current]
      exact List.not_mem_nil)
    have hsame := answer_of_tables (e := x'.endpointId)
      (tables_registerEndpointWaker x.endpointId w s.router.routing)
    exact ⟨hkeeps.1, (hkeeps.2.trans hsame).trans hanswer, hhint⟩
  · -- the stream that was polled
    obtain rfl := hparked y hy
    rw [hendpoint]
    refine ⟨?_, answer_current now x.endpointId _⟩
    rw [wakersOf_current]
    exact mem_wakersOf_register x.endpointId w s.router.routing

/-! ## Runs -/

/-- What the run of the table says of its pools. -/
theorem pools_of_run {k : List (Router × RouterLabel)} {s : Router} (hk : Router.system.Run k s) :
    s.routing.PendingKeys ∧ s.routing.Apart ∧
    s.routing.pending.lookup ⟨s.routing.nextId + 1⟩ = none ∧
    ∀ p x, s.routing.reservations.lookup p = some x →
      s.routing.pending.lookup x.stableId = none := by
  have hpooled := Router.pooled_of_run hk
  have hissued := (Router.disciplined_of_run hk).issued
  have hunbound : ∀ id, id ∉ Router.boundIds k → s.routing.pending.lookup id = none := by
    intro id hid
    refine Option.eq_none_iff_forall_ne_some.mpr ?_
    intro x hx
    exact hid (hpooled.pending id x hx).1
  refine ⟨fun q x hx => (hpooled.pending q x hx).2, hpooled.apart, ?_, ?_⟩
  · exact hunbound _ hissued.next.1
  · intro p x hx
    exact hunbound _ (hissued.reserved p x hx).2

/-- A careful operation keeps the streams listening. -/
theorem Listening.operate {s s' : Resolver} {l : RouterLabel} (hl : Listening s)
    (hkeys : s.router.routing.PendingKeys) (hapart : s.router.routing.Apart)
    (hC : Careful s (.operate l)) (hs : system.step (.operate l) s = some s') : Listening s' := by
  rcases operate_eq_some hs with ⟨hop, t, ht, rfl⟩
  refine hl.change ?_
  cases l with
  -- the one operation that takes pipes from others while it wakes its own endpoint
  | promote now p e =>
      simp only [Router.system, Router.step, Option.ite_none_left_eq_some] at ht
      obtain rfl := Option.some.inj ht.2
      refine tells_promote hkeys hapart now p s.router.self e ?_
      intro haccepts e' he' hne
      rcases hC haccepts e' he' hne with ⟨hpending, hfound⟩
      exact ⟨hpending, fun x hx => hfound x hx⟩
  | evictRoutableIfPipe e p =>
      obtain rfl := Option.some.inj ht
      exact tells_evictRoutableIfPipe e p
  | evictPipeState p =>
      simp only [Router.system, Router.step, Option.ite_none_left_eq_some] at ht
      obtain rfl := Option.some.inj ht.2
      exact tells_evictPipeState hkeys p
  | evictPipe now p =>
      simp only [Router.system, Router.step, Option.ite_none_left_eq_some] at ht
      obtain rfl := Option.some.inj ht.2
      exact tells_evictPipe now p
  | noteScanHint k d =>
      obtain rfl := Option.some.inj ht
      refine tells_noteScanHint k d ?_
      intro e he hnil
      rcases of_mem_waiting he with ⟨x, hx, y, hy, rfl⟩
      have hwaker := (hl x hx y hy).1
      rw [hnil] at hwaker
      cases hwaker
  | reserveOutbound now e =>
      obtain rfl := Option.some.inj ht
      refine tells_reserveOutbound now e ?_
      intro hfree e' he' hsame
      refine ⟨hC hfree e' he' hsame, ?_⟩
      rcases of_mem_waiting he' with ⟨x, hx, y, hy, rfl⟩
      rcases hl x hx y hy with ⟨-, hanswer, hne⟩
      rw [hanswer]
      exact hne
  | rehash o =>
      rcases Option.map_eq_some_iff.mp ht with ⟨r, hr, rfl⟩
      refine tells_rehash hr ?_
      intro e he q q' x x' hx hx' htarget htarget'
      exact hC e he ⟨q, x⟩ ((Map.mem_entries_iff _ _ _).mpr hx) ⟨q', x'⟩
        ((Map.mem_entries_iff _ _ _).mpr hx') htarget htarget'
  | _ => cases hop

/-- Every careful step keeps the streams listening. -/
theorem listening_step {h : List (Resolver × ResolverLabel)} {s s' : Resolver} {l : ResolverLabel}
    (hrun : system.Run h s) (hl : Listening s) (hC : Careful s l)
    (hs : system.step l s = some s') : Listening s' := by
  rcases router_run hrun with ⟨k, hk, -⟩
  rcases pools_of_run hk with ⟨hkeys, hapart, hfresh, hreserved⟩
  cases l with
  | resolve e =>
      obtain rfl := Option.some.inj hs
      intro x hx y hy
      rcases List.mem_append.mp hx with hx | hx
      · exact hl x hx y hy
      · -- a new stream was not polled yet
        obtain rfl := List.mem_singleton.mp hx
        cases hy
  | poll i now w => exact hl.poll hs
  | openPipe now device role target =>
      obtain rfl := Option.some.inj hs
      refine hl.change (tells_openPipe now device role target hfresh hreserved ?_)
      intro x hx e he
      exact hC x hx e he
  | operate l => exact hl.operate hkeys hapart hC hs

theorem listening_of_run {h : List (Resolver × ResolverLabel)} {s : Resolver}
    (hrun : system.Run h s) (hC : System.Meets Careful h) : Listening s := by
  induction hrun with
  | init hs =>
      rcases hs with ⟨self, rfl⟩
      intro x hx
      cases hx
  | step hr hs ih =>
      rw [System.meets_append, System.meets_singleton] at hC
      exact listening_step hr (ih hC.1) hC.2 hs

/-- In a run of careful operations, a stream that has returned `Pending`, and whose waker has
not been woken since, would compute the answer that it has computed at that poll. -/
theorem no_lost_wakeup {h : List (Resolver × ResolverLabel)} {s : Resolver}
    (hrun : system.Run h s) (hC : System.Meets Careful h) :
    ∀ x ∈ s.streams, ∀ y, x.parked = some y →
      s.router.routing.answer x.endpointId = y.answer := by
  intro x hx y hy
  exact (listening_of_run hrun hC x hx y hy).2.1

instance (s : Resolver) (l : ResolverLabel) : Decidable (Careful s l) :=
  match l with
  | .operate (.promote _ p e) =>
    inferInstanceAs (Decidable (s.router.routing.accepts p s.router.self e = true →
      ∀ e' ∈ s.waiting, e' ≠ e → s.router.routing.answer e' ≠ some (.pending p) ∧
        ∀ x ∈ s.router.routing.routable.lookup e, x.pipe ≠ p →
          s.router.routing.routableEndpoint x.pipe ≠ some e'))
  | .openPipe _ device _ target =>
    inferInstanceAs (Decidable (∀ x ∈ s.router.routing.reservationOf device target,
      ∀ e ∈ s.waiting, s.router.routing.answer e = some (.reservation x.stableId) →
        e = x.endpointId))
  | .operate (.reserveOutbound _ e) =>
    inferInstanceAs (Decidable (
      s.router.routing.reservationForPrefix (prefixFromEndpoint e) = none →
        ∀ e' ∈ s.waiting, prefixFromEndpoint e' = prefixFromEndpoint e →
          s.router.routing.answer e' ≠ none))
  | .operate (.rehash _) =>
    inferInstanceAs (Decidable (∀ e ∈ s.waiting, ∀ x ∈ s.router.routing.pending.entries,
      ∀ y ∈ s.router.routing.pending.entries, x.2.targetEndpoint = some e →
        y.2.targetEndpoint = some e → x.1 = y.1))
  | .operate (.startPipe ..) | .operate .consumeForDevice | .operate (.register _)
  | .operate (.registerPending _) | .operate (.evictRoutableIfPipe ..)
  | .operate (.evictPipeState _) | .operate (.evictPipe ..) | .operate (.noteScanHint ..)
  | .operate (.registerEndpointWaker ..) | .resolve _ | .poll .. =>
    isTrue trivial

theorem init_new (self : EndpointId) : system.Init { router := { self := self } } := ⟨self, rfl⟩

/-- The peer is scanned, reserved for and dialled, and its resolver waits on the pending pipe. -/
def dialRun : List ResolverLabel :=
  [.operate (.noteScanHint (prefixFromEndpoint peerEndpoint) "peer"),
    .resolve peerEndpoint, .poll 0 0 0, .poll 0 0 0,
    .openPipe 1 "peer" .central (some peerEndpoint), .poll 0 2 0]

/-- Then the pipe is verified as the peer's, which wakes it. -/
def verifiedRun : List ResolverLabel :=
  dialRun ++ [.operate (.promote 3 ⟨1⟩ peerEndpoint), .poll 0 4 0]

/-- A careful run in which a stream is parked on a verified pipe. -/
theorem no_lost_wakeup_verifiedRun : ∃ h s, system.Run h s ∧ System.Meets Careful h ∧
    h.map Prod.snd = verifiedRun ∧
    (∃ x ∈ s.streams, x.parked = some ⟨0, some (.routable ⟨1⟩)⟩) ∧
    ∀ x ∈ s.streams, ∀ y, x.parked = some y →
      s.router.routing.answer x.endpointId = y.answer := by
  rcases System.Run.of_execMeets (C := Careful)
    (P := fun s : Resolver => ∃ x ∈ s.streams, x.parked = some ⟨0, some (.routable ⟨1⟩)⟩)
    verifiedRun (init_new localEndpoint) (by decide +kernel) with
    ⟨h, s, hrun, hC, hlabels, hparked⟩
  exact ⟨h, s, hrun, hC, hlabels, hparked, no_lost_wakeup hrun hC⟩

/-- The pipe that was dialled for the peer is verified as another endpoint's. -/
def otherPeerRun : List ResolverLabel :=
  dialRun ++ [.operate (.promote 3 ⟨1⟩ otherEndpoint)]

/-- The resolver of the peer is not woken, and waits on a pipe that is pending no more. -/
theorem other_peer_loses_wakeup : ∃ h s, system.Run h s ∧ h.map Prod.snd = otherPeerRun ∧
    ∃ x ∈ s.streams, x.parked = some ⟨0, some (.pending ⟨1⟩)⟩ ∧
      s.router.routing.answer x.endpointId = some .hint := by
  rcases System.Run.of_exec (P := fun s : Resolver => ∃ x ∈ s.streams,
      x.parked = some ⟨0, some (.pending ⟨1⟩)⟩ ∧
        s.router.routing.answer x.endpointId = some .hint)
    otherPeerRun (init_new localEndpoint) (by decide +kernel) with
    ⟨h, s, hrun, hlabels, hparked⟩
  exact ⟨h, s, hrun, hlabels, hparked⟩

end Resolver

end IrohBle
