import IrohBle.Routing.Discipline

/-! # Routing.Pools: the pending and the routable pool over whole runs

A pipe is pending from its opening to its first promotion and routable from then on, and both
pools are emptied by pipe while the routable one is keyed by endpoint.

* `Pooled`: the invariant of the two pools. Both hold only ids that were bound to a pipe, so a
  pipe that is being opened is in neither.
* `promotion_never_demotes`: no pipe is in both pools, what a promotion changes and evicts, and
  that an endpoint with a high-dialled pipe keeps one until that pipe is evicted.
-/

namespace IrohBle

open Lib

namespace Router

open Routing

/-- The two pools at the end of a run. -/
structure Pooled (h : List (Router × RouterLabel)) (s : Router) : Prop where
  pending : ∀ p x, s.routing.pending.lookup p = some x → p ∈ boundIds h ∧ x.pipe = p
  routable : ∀ e x, s.routing.routable.lookup e = some x → x.pipe ∈ boundIds h
  apart : ∀ p x e y, s.routing.pending.lookup p = some x → s.routing.routable.lookup e = some y →
    y.pipe ≠ p
  hand : ∀ id target, s.opening = .registered id target → id ∈ boundIds h ∧
    s.routing.pending.lookup id = none ∧ ∀ e x, s.routing.routable.lookup e = some x → x.pipe ≠ id
  dialer : ∀ e x y, s.routing.routable.lookup e = some x → s.routing.pipes.lookup x.pipe = some y →
    Dialer.compute s.self e y.direction = x.dialer

/-- The driver is not opening a pipe exactly where it has registered no such id. -/
theorem opens_eq_false {s : Router} {p : StableConnId} :
    s.opens p = false ↔ ∀ id target, s.opening = .registered id target → id ≠ p := by
  unfold opens
  cases s.opening with
  | registered id target => simp
  | idle => simp
  | unreserved device role => simp
  | consumed device role x => simp

/-- A pipe that is promoted is not just being opened. -/
theorem opens_of_promote {s s' : Router} {now : ℕ} {p : StableConnId} {e : EndpointId}
    (hs : system.step (.promote now p e) s = some s') : s.opens p = false := by
  simp only [system, Router.step] at hs
  split at hs
  · cases hs
  · rename_i hopens
    exact Bool.eq_false_of_not_eq_true hopens

theorem boundIds_mono {h : List (Router × RouterLabel)} (x : Router × RouterLabel)
    {id : StableConnId} (hid : id ∈ boundIds h) : id ∈ boundIds (h ++ [x]) := by
  rw [boundIds_append]
  exact List.mem_append_left _ hid

/-- Every step keeps the pools to bound ids, each to one pool. -/
theorem Pooled.step {h : List (Router × RouterLabel)} {s s' : Router} {l : RouterLabel}
    (hd : Disciplined h s) (hp : Pooled h s) (hs : system.step l s = some s') :
    Pooled (h ++ [(s, l)]) s' := by
  refine ⟨?_, ?_, ?_, ?_, ?_⟩
  · intro q x hx
    rcases pending_of_step hs hx with hold | ⟨target, hbefore, hpipe, -⟩
    · rcases hp.pending q x hold with ⟨hbound, hpipe⟩
      exact ⟨boundIds_mono _ hbound, hpipe⟩
    · exact ⟨boundIds_mono _ (hp.hand q target hbefore).1, hpipe⟩
  · intro e x hx
    rcases routable_of_step hs hx with hold | ⟨now, p, ps, -, rfl, hpromotes⟩
    · exact boundIds_mono _ (hp.routable e x hold)
    · rcases hpromotes.bound with ⟨y, hy, -⟩
      exact boundIds_mono _ (hd.live _ y hy)
  · intro q x e y hx hy
    rcases routable_of_step hs hy with hy | ⟨now, p, ps, -, rfl, hpromotes⟩
    · rcases pending_of_step hs hx with hx | ⟨target, hbefore, -, -⟩
      · exact hp.apart q x e y hx hy
      · exact (hp.hand q target hbefore).2.2 e y hy
    · -- the promoted pipe leaves the pending pool
      rintro rfl
      rw [hpromotes.pending, if_pos (Or.inl rfl)] at hx
      cases hx
  · intro id target hid
    rcases opening_of_step hs hid with hbefore | hbinds
    · rcases hp.hand id target hbefore with ⟨hbound, hnone, hother⟩
      refine ⟨boundIds_mono _ hbound, ?_, ?_⟩
      · refine Option.eq_none_iff_forall_ne_some.mpr ?_
        intro x hx
        rcases pending_of_step hs hx with hold | ⟨target', -, -, hidle⟩
        · rw [hnone] at hold
          cases hold
        · rw [hid] at hidle
          cases hidle
      · intro e x hx
        rcases routable_of_step hs hx with hold | ⟨now, p, ps, rfl, rfl, -⟩
        · exact hother e x hold
        · -- a pipe is not promoted while the driver has it in hand
          rintro rfl
          have hopens := opens_of_promote hs
          exact opens_eq_false.mp hopens _ target hbefore rfl
    · have hfresh := hd.binds_fresh hs hbinds
      refine ⟨?_, ?_, ?_⟩
      · rw [boundIds_append, hbinds]
        exact List.mem_append_right _ (List.mem_singleton_self id)
      · refine Option.eq_none_iff_forall_ne_some.mpr ?_
        intro x hx
        rcases pending_of_step hs hx with hold | ⟨target', -, -, hidle⟩
        · exact hfresh (hp.pending id x hold).1
        · rw [hid] at hidle
          cases hidle
      · intro e x hx
        rcases routable_of_step hs hx with hold | ⟨now, p, ps, rfl, -, -⟩
        · rintro rfl
          exact hfresh (hp.routable e x hold)
        · cases hbinds
  · intro e x y hx hy
    rw [self_of_step hs]
    rcases routable_of_step hs hx with hold | ⟨now, p, ps, rfl, hpipe, hpromotes⟩
    · rcases pipes_of_step hs hy with hy | hbinds
      · exact hp.dialer e x y hold hy
      · exact absurd (hp.routable e x hold) (hd.binds_fresh hs hbinds)
    · rcases hpromotes.bound with ⟨z, hz, hbound, -⟩
      rw [hbound] at hx
      obtain rfl := Option.some.inj hx
      rw [hpromotes.pipes, hpipe, hz] at hy
      obtain rfl := Option.some.inj hy
      rfl

/-- The pools are in order along every run. -/
theorem pooled_of_run {h : List (Router × RouterLabel)} {s : Router} (hrun : system.Run h s) :
    Pooled h s := by
  induction hrun with
  | init hs =>
      rcases hs with ⟨self, rfl⟩
      refine ⟨?_, ?_, ?_, ?_, ?_⟩
      · intro p x hx
        cases hx
      · intro e x hx
        cases hx
      · intro p x e y hx
        cases hx
      · intro id target hid
        cases hid
      · intro e x y hx
        cases hx
  | step hr hs ih => exact ih.step (disciplined_of_run hr) hs

/-! ## High-dialled pipes -/

/-- The step takes the pipe out of the pools: its own exit, a hang-up, or a promotion that
evicts it. -/
def EvictsPipe (p : StableConnId) (x : Router × RouterLabel) : Prop :=
  match x.2 with
  | .evictPipeState q => q = p
  | .evictRoutableIfPipe _ q => q = p
  | .promote now q e => ∃ r ps, x.1.routing.promote now q x.1.self e = (r, .accepted ps) ∧ p ∈ ps
  | _ => False

/-- The pipe is routable for the endpoint, and was dialled from the higher id. -/
def HighFor (s : Router) (e : EndpointId) (p : StableConnId) : Prop :=
  ∃ x, s.routing.routable.lookup e = some x ∧ x.pipe = p ∧ x.dialer = .high

section High

variable {h : List (Router × RouterLabel)} {s s' : Router} {l : RouterLabel} {e : EndpointId}
  {p : StableConnId}

theorem HighFor.congr (hhigh : HighFor s e p)
    (heq : s'.routing.routable.lookup e = s.routing.routable.lookup e) : HighFor s' e p := by
  rcases hhigh with ⟨x, hx, hp, hdialer⟩
  exact ⟨x, heq.trans hx, hp, hdialer⟩

/-- An accepted promotion for `e` never puts a low-dialled pipe in the place of a high-dialled
one. -/
theorem promotes_high (hpool : Pooled h s) {now : ℕ} {q : StableConnId} {ps : List StableConnId}
    {r : Routing} (hpromotes : Promotes now q s.self e ps s.routing r) (hhigh : HighFor s e p) :
    HighFor { s with routing := r } e q := by
  rcases hhigh with ⟨x, hx, hp, hdialer⟩
  rcases hpromotes.bound with ⟨y, hy, hbound, hlow⟩
  refine ⟨_, hbound, rfl, ?_⟩
  dsimp only
  by_cases hq : x.pipe = q
  · -- the pipe itself, promoted once more
    rw [← hdialer]
    refine hpool.dialer e x y hx ?_
    rw [hq]
    exact hy
  · have hcontender : (⟨x.pipe, x.dialer⟩ : Contender) ∈ s.routing.contenders q s.self e :=
      mem_contenders_iff.mpr (Or.inl ⟨x, hx, hq, rfl⟩)
    cases hnew : Dialer.compute s.self e y.direction with
    | high => rfl
    | low =>
        have hwrong := hlow hnew _ hcontender
        rw [hdialer] at hwrong
        cases hwrong

/-- A step that does not evict the pipe leaves it routable, and high-dialled. -/
-- the entry goes only with a pipe that is evicted, and that would be this one
theorem highFor_step (hpool : Pooled h s) (hhigh : HighFor s e p)
    (hkeep : ¬ EvictsPipe p (s, l)) (hs : system.step l s = some s') : HighFor s' e p := by
  cases does_of_step hs with
  | idles _ _ hpools _ => exact hhigh.congr (hpools.routable e)
  | closes _ _ hpools _ => exact hhigh.congr (hpools.routable e)
  | @evicts q r _ hevicts r' htables =>
      refine hhigh.congr ?_
      change r'.routable.lookup e = _
      rw [routable_of_tables htables]
      rcases hevicts.routable e with heq | ⟨-, y, hy, hmem⟩
      · exact heq
      · rcases hhigh with ⟨x, hx, hp, -⟩
        rw [hx] at hy
        obtain rfl := Option.some.inj hy
        exact absurd ((List.mem_singleton.mp hmem).symm.trans hp) hkeep
  | @hangsUp e' q x hx hq r htables =>
      refine hhigh.congr ?_
      have hroutable : r.routable = s.routing.routable.erase e' := (routable_of_tables htables :)
      change r.routable.lookup e = _
      rw [hroutable, Map.lookup_erase_ite]
      by_cases he : e = e'
      · -- the endpoint's own pipe was hung up
        rcases hhigh with ⟨y, hy, hp, -⟩
        rw [he, hx] at hy
        obtain rfl := Option.some.inj hy
        exact absurd (hq.symm.trans hp) hkeep
      · rw [if_neg he]
  | @promotes now q e' ps r hhand hpromotes =>
      have hnot : p ∉ ps := by
        intro hmem
        rcases promote_cases now q s.self e' s.routing with ⟨hrej, hreason⟩ | ⟨r₁, ps₁, hacc, hp₁⟩
        · rcases hpromotes.bound with ⟨y, hy, -, hlow⟩
          rcases hreason y hy with ⟨hcompute, c, hc, hcd⟩
          have hwrong := hlow hcompute c hc
          rw [hcd] at hwrong
          cases hwrong
        · refine hkeep ⟨r₁, ps₁, hacc, ?_⟩
          rw [hp₁.evicted]
          exact (hpromotes.evicted p).mp hmem
      by_cases he : e = e'
      · subst he
        rcases hhigh with ⟨x, hx, hp, hdialer⟩
        have hsame : q = p := by
          by_contra hne
          refine hnot ((hpromotes.evicted p).mpr ⟨fun heq => hne heq.symm, Or.inl ⟨x, hx, hp⟩⟩)
        subst hsame
        exact promotes_high hpool hpromotes ⟨x, hx, hp, hdialer⟩
      · rcases hpromotes.routable e he with heq | ⟨-, x, hx, hmem⟩
        · exact hhigh.congr heq
        · rcases hhigh with ⟨y, hy, hp, -⟩
          rw [hy] at hx
          obtain rfl := Option.some.inj hx
          rw [hp] at hmem
          exact absurd hmem hnot
  | reserves _ _ _ _ hpools _ => exact hhigh.congr (hpools.routable e)
  | misses => exact hhigh
  | consumes _ _ _ _ _ hpools _ => exact hhigh.congr (hpools.routable e)
  | binds _ _ hpools _ => exact hhigh.congr (hpools.routable e)
  | mints _ _ _ _ hpools _ => exact hhigh.congr (hpools.routable e)
  | @pends now id target r _ htables =>
      refine hhigh.congr ?_
      have hroutable : r.routable = s.routing.routable := (routable_of_tables htables :)
      change r.routable.lookup e = _
      rw [hroutable]

end High

/-- Promotion never demotes. At the end of every run: no pipe is in both pools; a rejected
promotion changes nothing; an accepted one binds the endpoint to the pipe, evicts exactly the
pipe that was routable for it and the other live pending pipes that target it, and leaves no
low-dialled pipe where there was a high-dialled one; and a high-dialled pipe that was routable
for an endpoint at some point still is, unless it was evicted since. -/
theorem promotion_never_demotes {h : List (Router × RouterLabel)} {s : Router}
    (hrun : system.Run h s) :
    (∀ p x e y, s.routing.pending.lookup p = some x → s.routing.routable.lookup e = some y →
      y.pipe ≠ p) ∧
    (∀ now p e r, s.routing.promote now p s.self e = (r, .rejected) → r = s.routing) ∧
    (∀ now p e r ps, s.routing.promote now p s.self e = (r, .accepted ps) →
      r.routablePipeFor e = some p ∧
      (∀ q, q ∈ ps ↔ q ≠ p ∧ (s.routing.routablePipeFor e = some q ∨
        ∃ x y, s.routing.pending.lookup q = some x ∧ x.targetEndpoint = some e ∧
          s.routing.pipes.lookup q = some y)) ∧
      ∀ q, HighFor s e q → HighFor { s with routing := r } e p) ∧
    (∀ h₁ x h₂ e p, h = h₁ ++ x :: h₂ → HighFor x.1 e p → (∀ z ∈ x :: h₂, ¬ EvictsPipe p z) →
      HighFor s e p) := by
  have hpool := pooled_of_run hrun
  refine ⟨hpool.apart, ?_, ?_, ?_⟩
  · intro now p e r hr
    -- one of the two is what the promotion has answered
    rcases promote_cases now p s.self e s.routing with ⟨hrej, -⟩ | ⟨r', ps, hacc, -⟩
    · rw [hrej] at hr
      exact (Prod.mk.inj hr).1.symm
    · rw [hacc] at hr
      cases hr
  · intro now p e r ps hr
    rcases promote_cases now p s.self e s.routing with ⟨hrej, -⟩ | ⟨r', ps', hacc, hpromotes⟩
    · rw [hrej] at hr
      cases hr
    · rw [hacc] at hr
      cases hr
      rcases hpromotes.bound with ⟨y, -, hbound, -⟩
      refine ⟨?_, ?_, fun q hq => promotes_high hpool hpromotes hq⟩
      · unfold routablePipeFor
        rw [hbound]
        rfl
      · intro q
        rw [hpromotes.evicted]
        unfold Contends routablePipeFor
        rw [Option.map_eq_some_iff]
  · rintro h₁ x h₂ e p rfl hhigh hkeep
    refine System.Run.since (C := fun s l => ¬ EvictsPipe p (s, l)) (P := fun _ s => HighFor s e p)
      hrun (fun z hz => hkeep z hz) hhigh ?_
    intro k s l s' hr hC hP hs
    exact highFor_step (pooled_of_run hr) hP hC hs

/-- The peer dials us and is verified; then we dial it. -/
def redialRun : List RouterLabel :=
  [.startPipe "in" .peripheral none, .consumeForDevice, .register 0, .registerPending 0,
    .promote 1 ⟨1⟩ peerEndpoint, .startPipe "out" .central none, .consumeForDevice, .register 2,
    .registerPending 2]

/-- A run in which the promotion of a second pipe is refused, the first being high-dialled. -/
theorem promotion_never_demotes_redialRun : ∃ h s, system.Run h s ∧ h.map Prod.snd = redialRun ∧
    (s.routing.promote 3 ⟨2⟩ s.self peerEndpoint).1 = s.routing ∧
    s.routing.routablePipeFor peerEndpoint = some ⟨1⟩ := by
  rcases System.Run.of_exec (P := fun s : Router =>
      (s.routing.promote 3 ⟨2⟩ s.self peerEndpoint).2 = .rejected ∧
        s.routing.routablePipeFor peerEndpoint = some ⟨1⟩)
    redialRun (init_new localEndpoint) (by decide +kernel) with
    ⟨h, s, hrun, hlabels, hrejected, hroutable⟩
  rcases promotion_never_demotes hrun with ⟨-, hsame, -, -⟩
  refine ⟨h, s, hrun, hlabels, ?_, hroutable⟩
  exact hsame 3 ⟨2⟩ peerEndpoint _ (Prod.ext rfl hrejected)

end Router

end IrohBle
