import IrohBle.Routing.Pools

/-! # Routing.Dangling: evicted pipes and the entries that name them

The routable pool is keyed by endpoint and emptied by pipe: `evict_pipe_state` and `promote`
search it for the pipe and remove the one entry they find.

* `SingleEndpoint`: a pipe is promoted only for the endpoint that it is routable for already, if
  it is for any.
* `no_dangling_entry`: in every run whose promotions are like that, an evicted pipe is in no
  pool, and after its exit the resolver never answers with it.
* `second_endpoint_dangles`: two peers verified over one pipe leave an entry behind that names
  the pipe after its exit.
-/

namespace IrohBle

open Lib

namespace Routing

/-- No entry of either pool names the pipe. -/
def Unnamed (r : Routing) (p : StableConnId) : Prop :=
  r.pending.lookup p = none ∧ ∀ e x, r.routable.lookup e = some x → x.pipe ≠ p

/-- The promotion rule lets the pipe through. -/
def accepts (p : StableConnId) (self remote : EndpointId) (r : Routing) : Bool :=
  match r.pipes.lookup p with
  | none => false
  | some y =>
    decideContenders (Dialer.compute self remote y.direction) (r.contenders p self remote) != .reject

/-- A promotion that took place was accepted. -/
theorem accepts_of_promotes {now : ℕ} {p : StableConnId} {self e : EndpointId}
    {ps : List StableConnId} {r r' : Routing} (h : Promotes now p self e ps r r') :
    r.accepts p self e = true := by
  rcases h.bound with ⟨y, hy, -, hlow⟩
  unfold accepts
  simp only [hy, bne_iff_ne, ne_eq]
  intro hreject
  rcases decideContenders_eq_reject.mp hreject with ⟨hd, c, hc, hcd⟩
  have hwrong := hlow hd c hc
  rw [hcd] at hwrong
  cases hwrong

/-- Where each pipe has one endpoint, what is evicted is gone from both pools. -/
theorem Evicts.unnamed {ps : List StableConnId} {r r' : Routing} (h : Evicts ps r r')
    (hone : r.OneEndpoint) {p : StableConnId} (hp : p ∈ ps) : r'.Unnamed p := by
  constructor
  · rw [h.pending, if_pos hp]
  · intro e x hx heq
    rw [← heq] at hp
    exact h.gone hone e x hx hp

/-- What a promotion evicts is in no pool afterwards, if pipes are for one endpoint each. -/
theorem Promotes.unnamed {now : ℕ} {p q : StableConnId} {self e : EndpointId}
    {ps : List StableConnId} {r r' : Routing} (h : Promotes now p self e ps r r')
    (hone : r.OneEndpoint) (hq : q ∈ ps) : r'.Unnamed q := by
  constructor
  · rw [h.pending, if_pos (Or.inr hq)]
  · intro e' x hx heq
    by_cases he : e' = e
    · -- the endpoint's own entry is the promoted pipe
      subst he
      rcases h.bound with ⟨y, -, hbound, -⟩
      rw [hbound] at hx
      obtain rfl := Option.some.inj hx
      exact ((h.evicted q).mp hq).1 heq.symm
    · rw [← heq] at hq
      exact h.gone hone e' x he hx hq

end Routing

namespace Router

open Routing

/-- A pipe that is promoted is routable for no other endpoint. -/
def SingleEndpoint (s : Router) (l : RouterLabel) : Prop :=
  match l with
  | .promote _ p e => s.routing.accepts p s.self e = true →
      ∀ x ∈ s.routing.routable.entries, x.2.pipe = p → x.1 = e
  | _ => True

section Runs

variable {h : List (Router × RouterLabel)} {s s' : Router} {l : RouterLabel} {p : StableConnId}

/-- A step keeps every pipe to one endpoint, promotions being for its own. -/
theorem oneEndpoint_step (hone : s.routing.OneEndpoint) (hC : SingleEndpoint s l)
    (hs : system.step l s = some s') : s'.routing.OneEndpoint := by
  -- a new entry names the promoted pipe, which no other entry named before
  have hnew : ∀ {now q ps e e' x}, l = .promote now q e →
      Promotes now q s.self e ps s.routing s'.routing → s.routing.routable.lookup e' = some x →
      x.pipe = q → e' = e := by
    intro now q ps e e' x hl hpromotes hx hq
    subst hl
    exact hC (accepts_of_promotes hpromotes) ⟨e', x⟩ ((Map.mem_entries_iff _ _ _).mpr hx) hq
  intro e₁ e₂ x₁ x₂ h₁ h₂ hpipe
  rcases routable_of_step hs h₁ with hold₁ | ⟨now₁, q₁, ps₁, hl₁, hq₁, hp₁⟩
  · rcases routable_of_step hs h₂ with hold₂ | ⟨now₂, q₂, ps₂, hl₂, hq₂, hp₂⟩
    · exact hone e₁ e₂ x₁ x₂ hold₁ hold₂ hpipe
    · exact hnew hl₂ hp₂ hold₁ (hpipe.trans hq₂)
  · rcases routable_of_step hs h₂ with hold₂ | ⟨now₂, q₂, ps₂, hl₂, hq₂, hp₂⟩
    · exact (hnew hl₁ hp₁ hold₂ (hpipe.symm.trans hq₁)).symm
    · rw [hl₁] at hl₂
      cases hl₂
      rfl

theorem oneEndpoint_of_run (hrun : system.Run h s) (hC : System.Meets SingleEndpoint h) :
    s.routing.OneEndpoint := by
  have hinit : ∀ s, system.Init s → s.routing.OneEndpoint := by
    rintro s ⟨self, rfl⟩ e e' x x' hx
    cases hx
  have hstep : ∀ s l s', s.routing.OneEndpoint → SingleEndpoint s l →
      system.step l s = some s' → s'.routing.OneEndpoint :=
    fun _ _ _ hone hC hs => oneEndpoint_step hone hC hs
  exact hrun.invariant hinit hstep hC

/-! ## After the exit of a pipe -/

/-- The pipe is in no pool, and is not about to be put into one. -/
def Cleared (p : StableConnId) (s : Router) : Prop :=
  s.routing.Unnamed p ∧ s.opens p = false

/-- A pipe that is in no pool stays out of both while it is not promoted: its id is bound, so
no other pipe is opened under it. -/
theorem cleared_step (hd : Disciplined h s) (hmem : p ∈ boundIds h) (hclear : Cleared p s)
    (hno : ∀ now e ps r, l = .promote now p e → ¬ Promotes now p s.self e ps s.routing r)
    (hs : system.step l s = some s') : Cleared p s' := by
  refine ⟨⟨?_, ?_⟩, ?_⟩
  · refine Option.eq_none_iff_forall_ne_some.mpr ?_
    intro x hx
    rcases pending_of_step hs hx with hold | ⟨target, hbefore, -, -⟩
    · rw [hclear.1.1] at hold
      cases hold
    · exact opens_eq_false.mp hclear.2 p target hbefore rfl
  · intro e x hx
    rcases routable_of_step hs hx with hold | ⟨now, q, ps, hl, hq, hpromotes⟩
    · exact hclear.1.2 e x hold
    · intro hxp
      obtain rfl : q = p := hq.symm.trans hxp
      exact hno now e ps _ hl hpromotes
  · refine opens_eq_false.mpr ?_
    intro id target hid
    rcases opening_of_step hs hid with hbefore | hbinds
    · exact opens_eq_false.mp hclear.2 id target hbefore
    · rintro rfl
      exact hd.binds_fresh hs hbinds hmem

theorem evictPipeState_unnamed (hone : s.routing.OneEndpoint) (p : StableConnId) :
    (s.routing.evictPipeState p).1.Unnamed p := by
  have hevicts := Evicts.evictContender p s.routing
  have htables := evictPipeState_tables p s.routing
  have hgone := hevicts.unnamed hone (List.mem_singleton_self p)
  refine ⟨?_, ?_⟩
  · rw [pending_of_tables htables]
    exact hgone.1
  · rw [routable_of_tables htables]
    exact hgone.2

/-- Once `evict_pipe_state` has run for a live pipe, the pipe is in no pool until it is
promoted again. -/
theorem cleared_since {h₁ h₂ : List (Router × RouterLabel)} {s₁ : Router}
    (hrun : system.Run (h₁ ++ (s₁, .evictPipeState p) :: h₂) s)
    (hC : System.Meets SingleEndpoint (h₁ ++ (s₁, .evictPipeState p) :: h₂))
    (hlive : (s₁.routing.pipes.lookup p).isSome = true)
    (hno : ∀ x ∈ h₂, ∀ now e, x.2 ≠ .promote now p e) :
    p ∈ boundIds (h₁ ++ (s₁, .evictPipeState p) :: h₂) ∧ Cleared p s := by
  have hC₁ : System.Meets SingleEndpoint h₁ := (System.meets_append.mp hC).1
  refine hrun.since_step (C := fun _ l => ∀ now e, l ≠ .promote now p e)
    (P := fun k s => p ∈ boundIds (h₁ ++ k) ∧ Cleared p s) (fun x hx => hno x hx) ?_ ?_
  · intro s hr hs
    rcases Option.isSome_iff_exists.mp hlive with ⟨y, hy⟩
    have hmem := (disciplined_of_run hr).live p y hy
    have hone := oneEndpoint_of_run hr hC₁
    simp only [system, Router.step] at hs
    split at hs
    · cases hs
    · rename_i hopens
      obtain rfl := Option.some.inj hs
      exact ⟨boundIds_mono _ hmem, evictPipeState_unnamed hone p,
        Bool.eq_false_of_not_eq_true hopens⟩
  · rintro k s l s' hr hl ⟨hmem, hclear⟩ hs
    rw [← List.append_assoc]
    refine ⟨boundIds_mono _ hmem, ?_⟩
    refine cleared_step (disciplined_of_run hr) hmem hclear ?_ hs
    intro now e ps r heq
    exact absurd heq (hl now e)

/-- After `evict_pipe` no promotion finds the pipe any more. -/
theorem cleared_after_exit {h₁ h₂ h₃ : List (Router × RouterLabel)} {s₁ s₂ : Router} {now : ℕ}
    (hrun : system.Run (h₁ ++ (s₁, .evictPipeState p) :: h₂ ++ (s₂, .evictPipe now p) :: h₃) s)
    (hC : System.Meets SingleEndpoint (h₁ ++ (s₁, .evictPipeState p) :: h₂))
    (hlive : (s₁.routing.pipes.lookup p).isSome = true)
    (hno : ∀ x ∈ h₂, ∀ now e, x.2 ≠ .promote now p e) : s.routing.Unnamed p := by
  have hclear : p ∈ boundIds (h₁ ++ (s₁, .evictPipeState p) :: h₂ ++
      (s₂, .evictPipe now p) :: h₃) ∧ Cleared p s ∧ s.routing.pipes.lookup p = none := by
    -- cleared by then, and no longer registered: no promotion brings it back
    refine hrun.since_step (C := fun _ _ => True)
      (P := fun k s => p ∈ boundIds (h₁ ++ (s₁, .evictPipeState p) :: h₂ ++ k) ∧ Cleared p s ∧
        s.routing.pipes.lookup p = none) (fun _ _ => trivial) ?_ ?_
    · intro s hr hs
      rcases cleared_since hr hC hlive hno with ⟨hmem, hclear⟩
      refine ⟨boundIds_mono _ hmem, ?_, ?_⟩
      · refine cleared_step (disciplined_of_run hr) hmem hclear ?_ hs
        intro now e ps r heq
        cases heq
      · simp only [system, Router.step] at hs
        split at hs
        · cases hs
        · obtain rfl := Option.some.inj hs
          exact lookup_evictPipe now p s₂.routing
    · rintro k s l s' hr - ⟨hmem, hclear, hdead⟩ hs
      rw [← List.append_assoc]
      refine ⟨boundIds_mono _ hmem, ?_, ?_⟩
      · refine cleared_step (disciplined_of_run hr) hmem hclear ?_ hs
        intro now e ps r _ hpromotes
        rcases hpromotes.bound with ⟨y, hy, -⟩
        rw [hdead] at hy
        cases hy
      · refine Option.eq_none_iff_forall_ne_some.mpr ?_
        intro y hy
        rcases pipes_of_step hs hy with hold | hbinds
        · rw [hdead] at hold
          cases hold
        · exact (disciplined_of_run hr).binds_fresh hs hbinds hmem
  exact hclear.2.1.1

end Runs

/-- As long as a pipe is promoted only for the endpoint it is routable for: an accepted
promotion leaves no entry that names an evicted pipe, `evict_pipe_state` none that names its
pipe, and after the exit of a pipe, with no promotion in between, the resolver never answers
with it. -/
theorem no_dangling_entry {h : List (Router × RouterLabel)} {s : Router} (hrun : system.Run h s)
    (hC : System.Meets SingleEndpoint h) :
    (∀ now p e r ps, s.routing.promote now p s.self e = (r, .accepted ps) →
      ∀ q ∈ ps, r.Unnamed q) ∧
    (∀ p, (s.routing.evictPipeState p).1.Unnamed p) ∧
    (∀ h₁ s₁ h₂ s₂ now h₃ p,
      h = h₁ ++ (s₁, .evictPipeState p) :: h₂ ++ (s₂, .evictPipe now p) :: h₃ →
      (s₁.routing.pipes.lookup p).isSome = true →
      (∀ x ∈ h₂, ∀ now e, x.2 ≠ .promote now p e) →
      ∀ e, s.routing.routablePipeFor e ≠ some p ∧ s.routing.pendingPipeFor e ≠ some p) := by
  have hone := oneEndpoint_of_run hrun hC
  refine ⟨?_, evictPipeState_unnamed hone, ?_⟩
  · intro now p e r ps hr q hq
    -- refused, so nothing was evicted
    rcases promote_cases now p s.self e s.routing with ⟨hrej, -⟩ | ⟨r', ps', hacc, hpromotes⟩
    · rw [hrej] at hr
      cases hr
    · rw [hacc] at hr
      cases hr
      exact hpromotes.unnamed hone hq
  · rintro h₁ s₁ h₂ s₂ now h₃ p rfl hlive hno e
    have hgone := cleared_after_exit hrun (System.meets_append.mp hC).1 hlive hno
    constructor
    · intro hanswer
      rcases Option.map_eq_some_iff.mp hanswer with ⟨x, hx, hp⟩
      exact hgone.2 e x hx hp
    · intro hanswer
      rcases Option.map_eq_some_iff.mp hanswer with ⟨x, hx, hp⟩
      rcases (Map.mem_values_iff _ _).mp (List.mem_of_find?_eq_some hx) with ⟨q, hq⟩
      have hkey := ((pooled_of_run hrun).pending q x hq).2
      rw [hp] at hkey
      subst hkey
      rw [hgone.1] at hq
      cases hq

instance (s : Router) (l : RouterLabel) : Decidable (SingleEndpoint s l) :=
  match l with
  | .promote _ p e =>
    inferInstanceAs (Decidable (s.routing.accepts p s.self e = true →
      ∀ x ∈ s.routing.routable.entries, x.2.pipe = p → x.1 = e))
  | .startPipe .. | .consumeForDevice | .register _ | .registerPending _ | .evictRoutableIfPipe ..
  | .evictPipeState _ | .evictPipe .. | .noteScanHint .. | .reserveOutbound ..
  | .registerEndpointWaker .. | .rehash _ =>
    isTrue trivial

/-- A pipe is opened, verified and closed. -/
def exitRun : List RouterLabel :=
  [.startPipe "peer" .peripheral none, .consumeForDevice, .register 0, .registerPending 0,
    .promote 1 ⟨1⟩ peerEndpoint, .evictPipeState ⟨1⟩, .evictPipe 2 ⟨1⟩]

/-- A run in which a pipe is promoted and exits. -/
theorem no_dangling_entry_exitRun : ∃ h s, system.Run h s ∧ System.Meets SingleEndpoint h ∧
    h.map Prod.snd = exitRun ∧ (s.routing.evictPipeState ⟨1⟩).1.Unnamed ⟨1⟩ := by
  rcases System.Run.of_execMeets (C := SingleEndpoint) (P := fun _ : Router => True)
    exitRun (init_new localEndpoint) (by decide +kernel) with ⟨h, s, hrun, hC, hlabels, -⟩
  exact ⟨h, s, hrun, hC, hlabels, (no_dangling_entry hrun hC).2.1 ⟨1⟩⟩

/-- Two endpoints are verified over one pipe, which then exits. -/
def twoEndpointsRun : List RouterLabel :=
  [.startPipe "peer" .peripheral none, .consumeForDevice, .register 0, .registerPending 0,
    .promote 1 ⟨1⟩ peerEndpoint, .promote 2 ⟨1⟩ otherEndpoint, .evictPipeState ⟨1⟩,
    .evictPipe 3 ⟨1⟩]

/-- One of the two entries is left, and names a pipe that is gone. -/
theorem second_endpoint_dangles : ∃ h s, system.Run h s ∧ h.map Prod.snd = twoEndpointsRun ∧
    s.routing.pipes.lookup ⟨1⟩ = none ∧ s.routing.routablePipeFor peerEndpoint = some ⟨1⟩ := by
  rcases System.Run.of_exec (P := fun s : Router => s.routing.pipes.lookup ⟨1⟩ = none ∧
      s.routing.routablePipeFor peerEndpoint = some ⟨1⟩)
    twoEndpointsRun (init_new localEndpoint) (by decide +kernel) with ⟨h, s, hrun, hlabels, hP⟩
  exact ⟨h, s, hrun, hlabels, hP⟩

end Router

end IrohBle
