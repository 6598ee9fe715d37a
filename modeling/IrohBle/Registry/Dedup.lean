import IrohBle.Registry.Once
import Mathlib.Data.List.Find

/-! # Registry.Dedup: who survives a verified endpoint

`VerifiedEndpoint` stamps identities, cancels pending dials, and then drains all but one of
the `Connected` entries with the endpoint's prefix. What comes before the draining changes
nothing the choice depends on (`SameView`), so whether an entry is drained can be read off
the registry before it (`Loses`).
-/

namespace IrohBle

open Lib Reliable Registry

namespace Turn

variable {io : Io} {p : KeyPrefix} {t t₁ t' : Turn}

/-! ## What the choice reads -/

/-- Replacing a value by one that is picked just the same picks the same keys, in the same order.
-/
theorem map_filter_kreplace {q : PeerEntry → Bool} {d : DeviceId} {v e : PeerEntry}
    (hq : q v = q e) (l : List (Σ _ : DeviceId, PeerEntry)) (hl : l.dlookup d = some e) :
    ((l.kreplace d v).filter fun x => q x.2).map Sigma.fst =
      (l.filter fun x => q x.2).map Sigma.fst := by
  induction l with
  | nil => cases hl
  | cons x l ih =>
      rcases x with ⟨d', e'⟩
      rw [Map.dlookup_cons_ite] at hl
      by_cases hd : d = d'
      · subst hd
        rw [if_pos rfl] at hl
        obtain rfl := Option.some.inj hl
        rw [Map.kreplace_cons_self, List.filter_cons, List.filter_cons]
        dsimp only
        rw [hq]
        split <;> rfl
      · rw [if_neg hd] at hl
        rw [Map.kreplace_cons_ne hd, List.filter_cons, List.filter_cons]
        dsimp only
        split
        · rw [List.map_cons, List.map_cons, ih hl]
        · exact ih hl

theorem devicesWhere_store {q : PeerEntry → Bool} {d : DeviceId} {e : PeerEntry} {w : Edit}
    (he : t.reg.peer d = some e) (hq : q w.entry = q e) :
    (t.store d w).devicesWhere q = t.devicesWhere q :=
  map_filter_kreplace hq t.reg.peers.entries he

/-- What the choice of a survivor reads is at `t'` what it is at `t`. -/
structure SameView (p : KeyPrefix) (t t' : Turn) : Prop where
  devices : t'.devicesWhere (liveFor p) = t.devicesWhere (liveFor p)
  entry : ∀ d e, t.reg.peer d = some e → liveFor p e = true →
    ∃ e', t'.reg.peer d = some e' ∧ liveFor p e' = true ∧ e'.role = e.role ∧ e'.phase = e.phase
  me : t'.reg.myEndpoint = t.reg.myEndpoint

theorem SameView.refl (p : KeyPrefix) (t : Turn) : SameView p t t :=
  ⟨rfl, fun _ e he hlive => ⟨e, he, hlive, rfl, rfl⟩, rfl⟩

/-- One change after another. -/
theorem SameView.trans (h₁ : SameView p t t₁) (h₂ : SameView p t₁ t') : SameView p t t' where
  devices := h₂.devices.trans h₁.devices
  entry := by
    intro d e he hlive
    rcases h₁.entry d e he hlive with ⟨e₁, he₁, hlive₁, hrole₁, hphase₁⟩
    rcases h₂.entry d e₁ he₁ hlive₁ with ⟨e₂, he₂, hlive₂, hrole₂, hphase₂⟩
    exact ⟨e₂, he₂, hlive₂, hrole₂.trans hrole₁, hphase₂.trans hphase₁⟩
  me := h₂.me.trans h₁.me

/-- A function that leaves a live entry's role and phase, and makes no other one live. -/
structure Blind (p : KeyPrefix) (f : Edit → Edit) (e : PeerEntry) : Prop where
  live : ∀ w : Edit, w.entry = e → liveFor p (f w).entry = liveFor p e
  same : ∀ w : Edit, w.entry = e → liveFor p e = true →
    (f w).entry.role = e.role ∧ (f w).entry.phase = e.phase

/-- An edit that is blind to what the choice reads keeps the view. -/
theorem SameView.edit {d : DeviceId} {f : Edit → Edit}
    (hf : ∀ e, t.reg.peer d = some e → Blind p f e) : SameView p t (t.edit d f) := by
  cases he : t.reg.peer d with
  | none =>
      rw [edit_of_none he]
      exact .refl p t
  | some e =>
      rw [edit_of_some he]
      have hblind := hf e he
      refine ⟨devicesWhere_store he (hblind.live (t.focus e) rfl), ?_, rfl⟩
      intro d' e' he' hlive
      by_cases hd : d' = d
      · subst hd
        obtain rfl : e = e' := Option.some.inj (he.symm.trans he')
        refine ⟨(f (t.focus e)).entry, ?_, ?_, hblind.same (t.focus e) rfl hlive⟩
        · rw [peer_store he, if_pos rfl]
        · rw [hblind.live (t.focus e) rfl]
          exact hlive
      · refine ⟨e', ?_, hlive, rfl, rfl⟩
        rw [peer_store he, if_neg hd]
        exact he'

/-- Edits of several entries, each blind to what the choice reads, keep the view. -/
theorem SameView.editAll {ds : List DeviceId} {f : Edit → Edit} (hnodup : ds.Nodup)
    (hf : ∀ d ∈ ds, ∀ e, t.reg.peer d = some e → Blind p f e) :
    SameView p t (t.editAll ds f) := by
  unfold Turn.editAll
  induction ds generalizing t with
  | nil => exact .refl p t
  | cons d ds ih =>
      rw [List.nodup_cons] at hnodup
      rw [List.foldl_cons]
      refine (SameView.edit (hf d List.mem_cons_self)).trans (ih hnodup.2 ?_)
      intro d' hd' e he
      have hne : d' ≠ d := by
        rintro rfl
        exact hnodup.1 hd'
      rw [peer_edit_ne hne] at he
      exact hf d' (List.mem_cons_of_mem _ hd') e he

theorem SameView.editWhere {q : PeerEntry → Bool} {f : Edit → Edit}
    (hf : ∀ e, q e = true → Blind p f e) : SameView p t (t.editAll (t.devicesWhere q) f) := by
  refine SameView.editAll (nodup_devicesWhere t q) ?_
  intro d hd e he
  rcases mem_devicesWhere hd with ⟨e', he', hq⟩
  obtain rfl : e' = e := Option.some.inj (he'.symm.trans he)
  exact hf _ hq

/-- The stamp writes who has authenticated, which the choice does not read. -/
theorem blind_stampVerified (now : ℕ) (endpoint : EndpointId) (e : PeerEntry) :
    Blind p (Edit.stampVerified now endpoint) e := by
  constructor
  · rintro w rfl
    rfl
  · rintro w rfl _
    exact ⟨rfl, rfl⟩

/-- A pending dial is not live, before or after it is cancelled. -/
theorem blind_cancel {now systemNow : ℕ} {reason : DisconnectReason} {q : KeyPrefix} {e : PeerEntry}
    (h : isPendingDialFor q e = true) : Blind p (Edit.drainToDraining now systemNow reason) e := by
  have hdead : liveFor p e = false := by
    unfold isPendingDialFor at h
    split at h
    · rename_i hp
      simp [liveFor, hp, PeerPhase.isConnected]
    · cases h
  constructor
  · intro w _
    rw [hdead]
    simp [liveFor, PeerPhase.isConnected]
  · intro w _ hlive
    rw [hdead] at hlive
    cases hlive

theorem sameView_cancelPendingDials (q : KeyPrefix) : SameView p t (t.cancelPendingDials io q) :=
  SameView.editWhere fun _ h => blind_cancel h

theorem sameView_stampAll (endpoint : EndpointId) (q : PeerEntry → Bool) :
    SameView p t (t.editAll (t.devicesWhere q) (Edit.stampVerified io.now endpoint)) :=
  SameView.editWhere fun e _ => blind_stampVerified io.now endpoint e

/-! ## The survivor -/

/-- A device is picked exactly if its entry is asked for. -/
theorem mem_devicesWhere_iff {q : PeerEntry → Bool} {d : DeviceId} {e : PeerEntry}
    (he : t.reg.peer d = some e) : d ∈ t.devicesWhere q ↔ q e = true := by
  constructor
  · intro hd
    rcases mem_devicesWhere hd with ⟨e', he', hq⟩
    obtain rfl : e' = e := Option.some.inj (he'.symm.trans he)
    exact hq
  · intro hq
    unfold devicesWhere
    refine List.mem_map.mpr ⟨⟨d, e⟩, List.mem_filter.mpr ⟨?_, hq⟩, rfl⟩
    exact (Map.mem_entries_iff _ _ _).mpr he

theorem connectedKey_congr {now : ℕ} {d : DeviceId} {e e' : PeerEntry}
    (he : t.reg.peer d = some e) (he' : t'.reg.peer d = some e') (hphase : e'.phase = e.phase) :
    t'.connectedKey now d = t.connectedKey now d := by
  unfold connectedKey
  rw [he, he', Option.map_some, Option.map_some, hphase]

/-- Two folds agree if their functions do on every accumulator that satisfies an invariant. -/
theorem foldl_congr_of {α β : Type} {P : β → Prop} {f g : β → α → β} {l : List α} {b : β} (hb : P b)
    (h : ∀ b, P b → ∀ a ∈ l, f b a = g b a ∧ P (g b a)) : l.foldl f b = l.foldl g b := by
  induction l generalizing b with
  | nil => rfl
  | cons a l ih =>
      rcases h b hb a List.mem_cons_self with ⟨heq, hP⟩
      rw [List.foldl_cons, List.foldl_cons, heq]
      exact ih hP fun b hb a ha => h b hb a (List.mem_cons_of_mem _ ha)

/-- The latest of a list depends on the keys of its devices. -/
theorem latestConnected_congr {now : ℕ} {ds : List DeviceId}
    (h : ∀ d ∈ ds, t'.connectedKey now d = t.connectedKey now d) :
    t'.latestConnected now ds = t.latestConnected now ds := by
  unfold latestConnected
  -- the best so far is always one of the candidates, whose keys agree
  refine foldl_congr_of (P := fun best => ∀ b, best = some b → b ∈ ds) ?_ ?_
  · intro b hb
    cases hb
  · intro best hbest d hd
    cases best with
    | none =>
        refine ⟨rfl, ?_⟩
        intro b hb
        obtain rfl := Option.some.inj hb
        exact hd
    | some b =>
        dsimp only
        rw [h b (hbest b rfl), h d hd]
        refine ⟨rfl, ?_⟩
        intro b' hb'
        split at hb'
        · obtain rfl := Option.some.inj hb'
          exact hd
        · obtain rfl := Option.some.inj hb'
          exact hbest b rfl

/-- The same view, the same survivor. -/
theorem SameView.winner (h : SameView p t t') (now : ℕ) (endpoint : EndpointId) :
    t'.dedupWinner now endpoint (t'.devicesWhere (liveFor p)) =
      t.dedupWinner now endpoint (t.devicesWhere (liveFor p)) := by
  rw [h.devices]
  have hentry : ∀ d ∈ t.devicesWhere (liveFor p), ∃ e e', t.reg.peer d = some e ∧
      t'.reg.peer d = some e' ∧ e'.role = e.role ∧ e'.phase = e.phase := by
    intro d hd
    rcases mem_devicesWhere hd with ⟨e, he, hlive⟩
    rcases h.entry d e he hlive with ⟨e', he', -, hrole, hphase⟩
    exact ⟨e, e', he, he', hrole, hphase⟩
  have hfind : (t.devicesWhere (liveFor p)).find? (fun d => (t'.reg.peer d).any fun e =>
      shouldWin e.role t'.reg.myEndpoint endpoint) =
      (t.devicesWhere (liveFor p)).find? (fun d => (t.reg.peer d).any fun e =>
        shouldWin e.role t.reg.myEndpoint endpoint) := by
    refine List.find?_congr fun d hd => ?_
    rcases hentry d hd with ⟨e, e', he, he', hrole, -⟩
    rw [he, he', Option.any_some, Option.any_some, hrole, h.me]
  unfold dedupWinner
  rw [hfind, latestConnected_congr]
  intro d hd
  rcases hentry d hd with ⟨e, e', he, he', -, hphase⟩
  exact connectedKey_congr he he' hphase

/-- Another entry is kept in the place of `d`'s. -/
def Loses (t : Turn) (now : ℕ) (endpoint : EndpointId) (d : DeviceId) : Prop :=
  2 ≤ (t.devicesWhere (liveFor (prefixFromEndpoint endpoint))).length ∧
    t.dedupWinner now endpoint (t.devicesWhere (liveFor (prefixFromEndpoint endpoint))) ≠ some d

instance (t : Turn) (now : ℕ) (endpoint : EndpointId) (d : DeviceId) :
    Decidable (t.Loses now endpoint d) :=
  inferInstanceAs (Decidable (_ ∧ _))

theorem SameView.loses {endpoint : EndpointId} (h : SameView (prefixFromEndpoint endpoint) t t')
    (now : ℕ) (d : DeviceId) : t'.Loses now endpoint d ↔ t.Loses now endpoint d := by
  unfold Loses
  rw [h.winner, h.devices]

/-- Devices that are not walked over keep their entries. -/
theorem peer_editAll_ne {ds : List DeviceId} {f : Edit → Edit} {d : DeviceId} (hd : d ∉ ds) :
    (t.editAll ds f).reg.peer d = t.reg.peer d := by
  refine peer_foldl_ne id (fun _ => f) ds ?_
  rw [List.map_id]
  exact hd

/-- An entry that is walked over gets the function's result. -/
theorem peer_editAll_mem {ds : List DeviceId} {f : Edit → Edit} {d : DeviceId} {e : PeerEntry}
    (hnodup : ds.Nodup) (hd : d ∈ ds) (he : t.reg.peer d = some e) :
    ∃ w : Edit, w.entry = e ∧ (t.editAll ds f).reg.peer d = some (f w).entry := by
  induction ds generalizing t with
  | nil => cases hd
  | cons d' ds ih =>
      rw [List.nodup_cons] at hnodup
      have hcons : t.editAll (d' :: ds) f = (t.edit d' f).editAll ds f := rfl
      rw [hcons]
      rcases List.mem_cons.mp hd with rfl | hrest
      · refine ⟨t.focus e, rfl, ?_⟩
        rw [peer_editAll_ne hnodup.1, edit_of_some he, peer_store he, if_pos rfl]
      · have hne : d ≠ d' := by
          rintro rfl
          exact hnodup.1 hrest
        refine ih hnodup.2 hrest ?_
        rw [peer_edit_ne hne]
        exact he

/-- A live entry that loses is drained; any other is left alone. -/
theorem drainLosers_entry (io : Io) {endpoint : EndpointId} {d : DeviceId} {e : PeerEntry}
    (he : t.reg.peer d = some e) (hlive : liveFor (prefixFromEndpoint endpoint) e = true) :
    (t.Loses io.now endpoint d → ∃ e', (t.drainLosers io endpoint).reg.peer d = some e' ∧
      e'.phase = .draining io.now .dedupLoser) ∧
    (¬ t.Loses io.now endpoint d → (t.drainLosers io endpoint).reg.peer d = some e) := by
  unfold Turn.drainLosers
  dsimp only
  have hmem : d ∈ t.devicesWhere (liveFor (prefixFromEndpoint endpoint)) :=
    (mem_devicesWhere_iff he).mpr hlive
  constructor
  · rintro ⟨htwo, hother⟩
    rw [if_pos htwo]
    have hloser : d ∈ (t.devicesWhere (liveFor (prefixFromEndpoint endpoint))).filter fun d =>
        decide (some d ≠ t.dedupWinner io.now endpoint
          (t.devicesWhere (liveFor (prefixFromEndpoint endpoint)))) :=
      List.mem_filter.mpr ⟨hmem, decide_eq_true (Ne.symm hother)⟩
    rcases peer_editAll_mem (f := Edit.drainToDraining io.now io.systemNow .dedupLoser)
      ((nodup_devicesWhere t _).filter _) hloser he with ⟨w, -, hw⟩
    exact ⟨_, hw, by simp⟩
  · intro hkept
    split
    · rename_i htwo
      rw [peer_editAll_ne]
      · exact he
      · intro hloser
        have hne := of_decide_eq_true (List.mem_filter.mp hloser).2
        exact hkept ⟨htwo, Ne.symm hne⟩
    · exact he

/-- Asking for upgrades changes no phase but that of a `Connected` entry. -/
theorem requestUpgrades_entry (endpoint : EndpointId) {d : DeviceId} {e : PeerEntry}
    (he : t.reg.peer d = some e) :
    ∃ e', (t.requestUpgrades endpoint).reg.peer d = some e' ∧
      (e' = e ∨ e.phase.isConnected = true ∧ e'.phase.isConnected = true) := by
  unfold Turn.requestUpgrades
  dsimp only
  split
  · by_cases hd : d ∈ t.devicesWhere fun e =>
        decide (e.keyPrefix = some (prefixFromEndpoint endpoint)) && !e.l2capUpgradeFailed &&
          shouldEmitL2capUpgrade (t.reg.connectedForPrefix (prefixFromEndpoint endpoint)) e.role
            t.reg.myEndpoint endpoint && isUpgradable e.phase
    · rcases peer_editAll_mem (f := Edit.requestUpgrade) (nodup_devicesWhere t _) hd he with
        ⟨w, rfl, hw⟩
      have hq := (mem_devicesWhere_iff he).mp hd
      simp only [Bool.and_eq_true] at hq
      have hup := hq.2
      refine ⟨_, hw, Or.inr ?_⟩
      unfold isUpgradable at hup
      split at hup
      · rename_i since id txGen hp
        constructor
        · rw [hp]
          rfl
        · simp [Edit.requestUpgrade, Edit.setUpgrading, hp, PeerPhase.isConnected]
      · cases hup
    · refine ⟨e, ?_, Or.inl rfl⟩
      rw [peer_editAll_ne hd]
      exact he
  · exact ⟨e, he, Or.inl rfl⟩

/-- The fate of an entry that is live once the identities are stamped. -/
theorem handleVerifiedEndpoint_entry {endpoint : EndpointId} {exact : Option DeviceId}
    {d : DeviceId} {e : PeerEntry}
    (he : ((t.verify (prefixFromEndpoint endpoint) endpoint).stampVerified io endpoint
      exact).reg.peer d = some e)
    (hlive : liveFor (prefixFromEndpoint endpoint) e = true) :
    ∃ e', (t.handleVerifiedEndpoint io endpoint exact).reg.peer d = some e' ∧
      (((t.verify (prefixFromEndpoint endpoint) endpoint).stampVerified io endpoint exact).Loses
        io.now endpoint d → e'.phase = .draining io.now .dedupLoser) ∧
      (¬ ((t.verify (prefixFromEndpoint endpoint) endpoint).stampVerified io endpoint exact).Loses
        io.now endpoint d → e'.phase.isConnected = true) := by
  unfold Turn.handleVerifiedEndpoint
  dsimp only
  generalize (t.verify (prefixFromEndpoint endpoint) endpoint).stampVerified io endpoint exact = t₀
    at he ⊢
  -- the pending dials that are cancelled are not live, so the choice is the same without them
  have hview : SameView (prefixFromEndpoint endpoint) t₀
      (t₀.cancelPendingDials io (prefixFromEndpoint endpoint)) :=
    sameView_cancelPendingDials _
  rw [← hview.loses io.now d]
  rcases hview.entry d e he hlive with ⟨e₁, he₁, hlive₁, -, -⟩
  generalize t₀.cancelPendingDials io (prefixFromEndpoint endpoint) = t₁ at he₁ ⊢
  have hdrain := drainLosers_entry io he₁ hlive₁
  -- drained, or kept and perhaps upgraded
  by_cases hloses : t₁.Loses io.now endpoint d
  · rcases hdrain.1 hloses with ⟨e₂, he₂, hphase⟩
    rcases requestUpgrades_entry endpoint he₂ with ⟨e₃, he₃, rfl | ⟨hlive₂, -⟩⟩
    · exact ⟨e₃, he₃, fun _ => hphase, fun hkept => absurd hloses hkept⟩
    · rw [hphase] at hlive₂
      cases hlive₂
  · have hconnected : e₁.phase.isConnected = true := by
      simp only [liveFor, Bool.and_eq_true] at hlive₁
      exact hlive₁.2
    rcases requestUpgrades_entry endpoint (hdrain.2 hloses) with
      ⟨e₃, he₃, rfl | ⟨-, hlive₃⟩⟩
    · exact ⟨e₃, he₃, fun h => absurd h hloses, fun _ => hconnected⟩
    · exact ⟨e₃, he₃, fun h => absurd h hloses, fun _ => hlive₃⟩

end Turn

end IrohBle
