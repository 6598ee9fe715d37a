import IrohBle.Lanes.Model
import IrohBle.Registry.Ledger
import IrohBle.Registry.Once

/-! # Lanes.Orders: the orders of the registry, seen from one lane

`viewOf` replays a list of actions as far as it is known what the lane of a device looks
like after them, whatever its worker does meanwhile. `Fits` says that a list of actions goes
with a change of the registry's entry of the device, and `Fits.trans` that such lists may be
put one after another; so what is proved of one function that runs on an entry (`Moved`)
holds of a whole run (`runCommand_fits`).
-/

namespace IrohBle

open Lib Reliable Registry

namespace PeerAction

/-- The lifecycle of `d` that an action activates. -/
def activates (d : DeviceId) : PeerAction → Option ℕ
  | .startConnect d' _ l => if d' = d then some l else none
  | .startDataPipe d' l _ _ _ _ _ => if d' = d then some l else none
  | _ => none

/-- The device of an order. -/
def lane? : PeerAction → Option DeviceId
  | .startConnect d _ _ | .readVersion d _ | .retireLifecycle d _ | .closeChannel d _ _ _
  | .closeNativeConnection d _ | .refresh d _ | .startDataPipe d _ _ _ _ _ _
  | .upgradeToL2cap d _ _ => some d
  | _ => none

/-- An action that changes the watched lifecycle of `d`. -/
def touches (d : DeviceId) : PeerAction → Bool
  | .startConnect d' _ _ | .startDataPipe d' _ _ _ _ _ _ | .retireLifecycle d' _ => d' == d
  | _ => false

/-- The disconnects, with the device and the lifecycle they name. -/
def closes : PeerAction → Option (DeviceId × ℕ)
  | .closeChannel d l _ _ | .closeNativeConnection d l => some (d, l)
  | _ => none

/-- The orders that are meant for the lifecycle in place: all but `Refresh`. -/
def owned : PeerAction → Option (DeviceId × ℕ)
  | .readVersion d l | .upgradeToL2cap d l _ => some (d, l)
  | a => a.closes

/-- The operations whose result the registry waits for. -/
def awaited : PeerAction → Option (DeviceId × ℕ × LaneWork)
  | .startConnect d _ l => some (d, l, .connect)
  | .upgradeToL2cap d l u => some (d, l, .openL2cap u)
  | _ => none

end PeerAction

/-- None of the actions changes the watched lifecycle of `d`. -/
def Untouched (d : DeviceId) (as : List PeerAction) : Prop := ∀ a ∈ as, a.touches d = false

/-- The lifecycle of `d` that is activated last, if any is. -/
def lastActivated (d : DeviceId) (as : List PeerAction) : Option ℕ :=
  as.foldl (fun last a => (a.activates d).or last) none

/-- What is known of a lane. -/
inductive LaneView where
  /-- There is no active lifecycle, and the lane may be gone. -/
  | gone
  /-- The lane is there, without an active lifecycle. -/
  | idle
  | active (lifecycleId : ℕ)
deriving DecidableEq, Repr

namespace LaneView

/-- The lifecycle a lane works for, where it is known. -/
def active? : LaneView → Option ℕ
  | .active l => some l
  | _ => none

/-- The lane of another device is activated: an idle lane may be dropped. -/
def collected : LaneView → LaneView
  | .idle => .gone
  | v => v

/-- What is known of the lane of `d` after one more action has been executed. -/
def see (d : DeviceId) (v : LaneView) (a : PeerAction) : LaneView :=
  match a with
  | .startConnect d' _ l => if d' = d then .active l else v.collected
  | .startDataPipe d' l _ _ _ _ _ => if d' = d then .active l else v.collected
  | .retireLifecycle d' l => if d' = d ∧ v = .active l then .idle else v
  | _ => v

@[simp] theorem active?_collected (v : LaneView) : v.collected.active? = v.active? := by
  cases v <;> rfl

theorem active?_eq_some {v : LaneView} {l : ℕ} : v.active? = some l ↔ v = .active l := by
  cases v <;> simp [active?]

end LaneView

/-- What is known of the lane of `d` after a list of actions, from the start of the actor on. -/
def viewOf (d : DeviceId) (as : List PeerAction) : LaneView := as.foldl (LaneView.see d) .gone

namespace PeerEntry

/-- The lifecycle of a live entry. -/
def activeId (e : PeerEntry) : Option ℕ := if e.phase.isLive then some e.lifecycleId else none

/-- The operation that the entry waits for. -/
def awaits (e : PeerEntry) : Option (ℕ × LaneWork) :=
  match e.phase with
  | .connecting .. => some (e.lifecycleId, .connect)
  | .connected _ _ _ true => some (e.lifecycleId, .openL2cap e.upgradeGen)
  | _ => none

/-- An upgrade has been asked for at most once, and it is under way or settled. -/
def AsksOnce (e : PeerEntry) : Prop :=
  e.upgradeGen = 0 ∨ e.upgradeGen = 1 ∧ ∃ since channel txGen up,
    e.phase = .connected since channel txGen up ∧
      (up = true ∨ channel.path = .l2cap ∨ e.l2capUpgradeFailed = true)

/-- Only a live entry waits for an answer of its lane. -/
theorem awaits_of_not_live {e : PeerEntry} (h : e.phase.isLive = false) : e.awaits = none := by
  unfold awaits
  cases hp : e.phase with
  | connecting attempt started path =>
      rw [hp] at h
      cases h
  | connected since channel txGen up =>
      rw [hp] at h
      cases h
  | _ => rfl

/-- Outside Connected no upgrade has been asked for. -/
theorem AsksOnce.gen_of_not_connected {e : PeerEntry} (h : e.AsksOnce)
    (hp : e.phase.isConnected = false) : e.upgradeGen = 0 := by
  rcases h with h | ⟨-, since, channel, txGen, up, hc, -⟩
  · exact h
  · rw [hc] at hp
    cases hp

end PeerEntry

/-- Every order meant for a lifecycle in place finds the lane there and the lifecycle
activated last. -/
def Lands (d : DeviceId) (v : LaneView) (last : Option ℕ) : List PeerAction → Prop
  | [] => True
  | a :: as => (∀ l, a.owned = some (d, l) → v ≠ .gone ∧ last = some l) ∧
      Lands d (v.see d a) ((a.activates d).or last) as

/-- The actions go with a change of the entry of `d` from `e` to `e'`. -/
structure Fits (d : DeviceId) (e e' : Option PeerEntry) (as : List PeerAction) : Prop where
  active : ∀ v : LaneView, v.active? = e.bind PeerEntry.activeId →
    (as.foldl (LaneView.see d) v).active? = e'.bind PeerEntry.activeId
  lands : ∀ v last, v.active? = e.bind PeerEntry.activeId →
    (∀ l, v = .active l → last = some l) → Lands d v last as
  /-- What the entry waits for then has been ordered, and the order stands; or it has been
  waited for before. -/
  awaits : ∀ l w, e'.bind PeerEntry.awaits = some (l, w) →
    (∃ p a q, as = p ++ a :: q ∧ a.awaited = some (d, l, w) ∧ Untouched d q) ∨
      (e.bind PeerEntry.awaits = some (l, w) ∧ Untouched d as)
  once : (∀ x ∈ e, x.AsksOnce) → (∀ x ∈ e', x.AsksOnce) ∧
    ∀ l u, .upgradeToL2cap d l u ∈ as → u = 1

/-! ## Lists of actions -/

section Replay

variable {d : DeviceId} {as bs : List PeerAction}

theorem untouched_append : Untouched d (as ++ bs) ↔ Untouched d as ∧ Untouched d bs :=
  List.forall_mem_append

/-- An action that is none of the lane's orders changes nothing that is known of it. -/
theorem see_of_untouched {a : PeerAction} (h : a.touches d = false) (v : LaneView) :
    (v.see d a).active? = v.active? := by
  cases a with
  | startConnect d' attempt l =>
      have hne : d' ≠ d := by simpa [PeerAction.touches] using h
      simp [LaneView.see, hne]
  | startDataPipe d' l g role target path ch =>
      have hne : d' ≠ d := by simpa [PeerAction.touches] using h
      simp [LaneView.see, hne]
  | retireLifecycle d' l =>
      have hne : d' ≠ d := by simpa [PeerAction.touches] using h
      simp [LaneView.see, hne]
  | _ => rfl

/-- Actions for other lanes change nothing of what is known, a collected lane apart. -/
theorem foldl_see_of_untouched (h : Untouched d as) (v : LaneView) :
    (as.foldl (LaneView.see d) v).active? = v.active? := by
  induction as generalizing v with
  | nil => rfl
  | cons a as ih =>
      rw [List.foldl_cons, ih fun b hb => h b (List.mem_cons_of_mem _ hb)]
      exact see_of_untouched (h a (List.mem_cons_self ..)) v

/-- An active lifecycle is the one activated last. -/
theorem last_of_active {v : LaneView} {last : Option ℕ} (h : ∀ l, v = .active l → last = some l)
    (as : List PeerAction) {l : ℕ} (ha : as.foldl (LaneView.see d) v = .active l) :
    as.foldl (fun last a => (a.activates d).or last) last = some l := by
  -- induction on the actions: the lifecycle that is known is carried along with the last one
  -- activated
  induction as generalizing v last with
  | nil => exact h l ha
  | cons a as ih =>
      refine ih ?_ ha
      intro l' hl'
      cases a with
      | startConnect d' attempt m =>
          by_cases hd : d' = d
          · simp only [LaneView.see, hd, if_true, LaneView.active.injEq] at hl'
            simp [PeerAction.activates, hd, hl']
          · -- an activation elsewhere collects idle lanes only
            simp only [LaneView.see, hd, if_false] at hl'
            have hv : v = .active l' := by
              rw [← LaneView.active?_eq_some, ← LaneView.active?_collected, hl']
              rfl
            simp [PeerAction.activates, hd, h l' hv]
      | startDataPipe d' m g role target path ch =>
          by_cases hd : d' = d
          · simp only [LaneView.see, hd, if_true, LaneView.active.injEq] at hl'
            simp [PeerAction.activates, hd, hl']
          · simp only [LaneView.see, hd, if_false] at hl'
            have hv : v = .active l' := by
              rw [← LaneView.active?_eq_some, ← LaneView.active?_collected, hl']
              rfl
            simp [PeerAction.activates, hd, h l' hv]
      | retireLifecycle d' m =>
          simp only [LaneView.see] at hl'
          split at hl'
          · cases hl'
          · exact h l' hl'
      | _ => exact h l' hl'

/-- Jobs of a concatenation land where those of the parts do, the second part being seen from what
the first has left. -/
theorem lands_append (v : LaneView) (last : Option ℕ) :
    Lands d v last (as ++ bs) ↔ Lands d v last as ∧
      Lands d (as.foldl (LaneView.see d) v)
        (as.foldl (fun last a => (a.activates d).or last) last) bs := by
  induction as generalizing v last with
  | nil => simp [Lands]
  | cons a as ih => simp only [List.cons_append, Lands, List.foldl_cons, ih, and_assoc]

/-- An order that stands in the list is meant for the lifecycle activated last, and the lane
is there. -/
theorem Lands.split {v : LaneView} {last : Option ℕ} {a : PeerAction} {l : ℕ}
    (h : Lands d v last (as ++ a :: bs)) (ha : a.owned = some (d, l)) :
    as.foldl (LaneView.see d) v ≠ .gone ∧
      as.foldl (fun last a => (a.activates d).or last) last = some l := by
  rw [lands_append] at h
  exact h.2.1 l ha

/-- What is no order leaves no trace on a lane. -/
theorem no_order {a : PeerAction} (h : a.isOrder = false) (d : DeviceId) :
    a.touches d = false ∧ a.activates d = none ∧ a.owned = none ∧ ∀ v, LaneView.see d v a = v := by
  cases a <;> first | exact ⟨rfl, rfl, rfl, fun _ => rfl⟩ | cases h

/-- Only the orders among the actions bear on a lane. -/
theorem foldl_see_orders (v : LaneView) :
    (as.filter PeerAction.isOrder).foldl (LaneView.see d) v = as.foldl (LaneView.see d) v := by
  induction as generalizing v with
  | nil => rfl
  | cons a as ih =>
      cases ha : a.isOrder with
      | true => rw [List.filter_cons_of_pos ha, List.foldl_cons, List.foldl_cons, ih]
      | false =>
          rw [List.filter_cons_of_neg (by simp [ha]), List.foldl_cons, (no_order ha d).2.2.2, ih]

/-- Only the orders among the actions have to land. -/
theorem lands_orders (v : LaneView) (last : Option ℕ) :
    Lands d v last (as.filter PeerAction.isOrder) ↔ Lands d v last as := by
  induction as generalizing v last with
  | nil => rfl
  | cons a as ih =>
      cases ha : a.isOrder with
      | true => simp only [List.filter_cons_of_pos ha, Lands, ih]
      | false =>
          rcases no_order ha d with ⟨-, hact, howned, hsee⟩
          rw [List.filter_cons_of_neg (by simp [ha]), ih, Lands, hsee, hact, howned]
          simp

/-- What no lifecycle owns has nothing to land in. -/
theorem lands_of_unowned (h : ∀ a ∈ as, ∀ l, a.owned ≠ some (d, l)) (v : LaneView)
    (last : Option ℕ) : Lands d v last as := by
  induction as generalizing v last with
  | nil => trivial
  | cons a as ih =>
      refine ⟨?_, ih (fun b hb => h b (List.mem_cons_of_mem _ hb)) _ _⟩
      intro l hl
      exact absurd hl (h a (List.mem_cons_self ..) l)

/-- A lane is touched by orders only. -/
theorem untouched_orders : Untouched d (as.filter PeerAction.isOrder) ↔ Untouched d as := by
  constructor
  · intro h a ha
    cases horder : a.isOrder with
    | true => exact h a (List.mem_filter.mpr ⟨ha, horder⟩)
    | false => exact (no_order horder d).1
  · intro h a ha
    exact h a (List.mem_filter.mp ha).1

end Replay

/-! ## Fitting lists -/

namespace Fits

variable {d : DeviceId} {e e₁ e' : Option PeerEntry} {as bs : List PeerAction}

/-- Orders that fit one after another fit together. -/
theorem trans (h₁ : Fits d e e₁ as) (h₂ : Fits d e₁ e' bs) : Fits d e e' (as ++ bs) where
  active v hv := by
    rw [List.foldl_append]
    exact h₂.active _ (h₁.active v hv)
  lands v last hv hlast := by
    rw [lands_append]
    refine ⟨h₁.lands v last hv hlast, h₂.lands _ _ (h₁.active v hv) ?_⟩
    intro l hl
    exact last_of_active hlast as hl
  awaits l w hw := by
    rcases h₂.awaits l w hw with ⟨p, a, q, rfl, ha, hq⟩ | ⟨hbefore, hquiet⟩
    · exact Or.inl ⟨as ++ p, a, q, by simp, ha, hq⟩
    · rcases h₁.awaits l w hbefore with ⟨p, a, q, rfl, ha, hq⟩ | ⟨hearlier, hquiet₁⟩
      · exact Or.inl ⟨p, a, q ++ bs, by simp, ha, untouched_append.mpr ⟨hq, hquiet⟩⟩
      · exact Or.inr ⟨hearlier, untouched_append.mpr ⟨hquiet₁, hquiet⟩⟩
  once hx := by
    rcases h₁.once hx with ⟨hx₁, hu₁⟩
    rcases h₂.once hx₁ with ⟨hx', hu₂⟩
    refine ⟨hx', ?_⟩
    intro l u hu
    rcases List.mem_append.mp hu with hu | hu
    · exact hu₁ l u hu
    · exact hu₂ l u hu

/-- Orders for other devices only. -/
theorem foreign (h : ∀ a ∈ as, a.lane? ≠ some d) : Fits d e e as := by
  have hquiet : Untouched d as := by
    intro a ha
    have hne := h a ha
    cases a with
    | startConnect d' attempt l => simpa [PeerAction.touches, PeerAction.lane?] using hne
    | startDataPipe d' l g role target path ch =>
        simpa [PeerAction.touches, PeerAction.lane?] using hne
    | retireLifecycle d' l => simpa [PeerAction.touches, PeerAction.lane?] using hne
    | _ => rfl
  constructor
  · intro v hv
    rw [foldl_see_of_untouched hquiet, hv]
  · intro v last _ _
    refine lands_of_unowned ?_ v last
    intro a ha l hl
    have hne := h a ha
    cases a <;> simp_all [PeerAction.owned, PeerAction.closes, PeerAction.lane?]
  · intro l w hw
    exact Or.inr ⟨hw, hquiet⟩
  · intro hx
    refine ⟨hx, ?_⟩
    intro l u hu
    exact absurd rfl (h _ hu)

/-- The same for the actions among which the orders stand. -/
theorem of_orders (h : Fits d e e' (as.filter PeerAction.isOrder)) : Fits d e e' as where
  active v hv := by
    rw [← foldl_see_orders]
    exact h.active v hv
  lands v last hv hlast := (lands_orders v last).mp (h.lands v last hv hlast)
  awaits l w hw := by
    rcases h.awaits l w hw with ⟨p, a, q, hsplit, ha, hq⟩ | ⟨hbefore, hquiet⟩
    · rcases List.filter_eq_append_iff.mp hsplit with ⟨p', r', rfl, -, hr⟩
      rcases List.filter_eq_cons_iff.mp hr with ⟨p'', q', rfl, -, -, hq'⟩
      refine Or.inl ⟨p' ++ p'', a, q', by simp, ha, untouched_orders.mp ?_⟩
      rw [hq']
      exact hq
    · exact Or.inr ⟨hbefore, untouched_orders.mp hquiet⟩
  once hx := by
    rcases h.once hx with ⟨hx', hu⟩
    refine ⟨hx', ?_⟩
    intro l u hmem
    exact hu l u (List.mem_filter.mpr ⟨hmem, rfl⟩)

/-- No order: the entry is as live as before, and waits for nothing new. -/
theorem stay (hactive : e'.bind PeerEntry.activeId = e.bind PeerEntry.activeId)
    (hawaits : ∀ l w, e'.bind PeerEntry.awaits = some (l, w) →
      e.bind PeerEntry.awaits = some (l, w))
    (honce : (∀ x ∈ e, x.AsksOnce) → ∀ x ∈ e', x.AsksOnce) : Fits d e e' [] where
  active _ hv := hv.trans hactive.symm
  lands _ _ _ _ := trivial
  awaits l w hw := Or.inr ⟨hawaits l w hw, fun _ ha => nomatch ha⟩
  once hx := ⟨honce hx, fun _ _ hu => nomatch hu⟩

/-- Orders that end with the one that is waited for. -/
theorem awaits_last (os : List PeerAction) {a : PeerAction} {x : PeerEntry} {l : ℕ} {w : LaneWork}
    (hx : x.awaits = some (l, w)) (ha : a.awaited = some (d, l, w)) :
    ∀ l' w', x.awaits = some (l', w') →
      (∃ p b q, os ++ [a] = p ++ b :: q ∧ b.awaited = some (d, l', w') ∧ Untouched d q) ∨
        (e.bind PeerEntry.awaits = some (l', w') ∧ Untouched d (os ++ [a])) := by
  intro l' w' hx'
  obtain ⟨rfl, rfl⟩ : l = l' ∧ w = w' := by simpa using hx.symm.trans hx'
  exact Or.inl ⟨os, a, [], rfl, ha, fun _ hb => nomatch hb⟩

end Fits

/-! ## What one function orders -/

section Moved

variable {cmd : PeerCommand} {w w' : Edit}

theorem PeerEntry.activeId_of_live {e : PeerEntry} (h : e.phase.isLive = true) :
    e.activeId = some e.lifecycleId := if_pos h

theorem PeerEntry.activeId_of_not_live {e : PeerEntry} (h : e.phase.isLive = false) :
    e.activeId = none := if_neg (by simp [h])

/-- Retiring the lifecycle of an entry leaves none active. -/
theorem see_retire {e : PeerEntry} {v : LaneView} (d : DeviceId) (hv : v.active? = e.activeId) :
    (v.see d (.retireLifecycle d e.lifecycleId)).active? = none := by
  cases hl : e.phase.isLive with
  | true =>
      rw [PeerEntry.activeId_of_live hl, LaneView.active?_eq_some] at hv
      simp [LaneView.see, hv, LaneView.active?]
  | false =>
      rw [PeerEntry.activeId_of_not_live hl] at hv
      have hne : v ≠ .active e.lifecycleId := by
        rintro rfl
        cases hv
      simp [LaneView.see, hne, hv]

/-- An order for a live entry finds its lifecycle active. -/
theorem lands_live {e : PeerEntry} {v : LaneView} {last : Option ℕ} (h : e.phase.isLive = true)
    (hv : v.active? = e.activeId) (hlast : ∀ l, v = .active l → last = some l) :
    v = .active e.lifecycleId ∧ last = some e.lifecycleId := by
  rw [PeerEntry.activeId_of_live h, LaneView.active?_eq_some] at hv
  exact ⟨hv, hlast _ hv⟩

theorem PeerPhase.isLive_of_connecting {phase : PeerPhase} (h : phase.isConnecting = true) :
    phase.isLive = true := by
  cases phase <;> first | rfl | cases h

theorem PeerPhase.not_connected_of_connecting {phase : PeerPhase} (h : phase.isConnecting = true) :
    phase.isConnected = false := by
  cases phase <;> first | rfl | cases h

theorem PeerPhase.not_connected_of_not_live {phase : PeerPhase} (h : phase.isLive = false) :
    phase.isConnected = false := by
  cases phase <;> first | rfl | cases h

/-- A live session with no upgrade under way, started by the last of the orders. -/
theorem Fits.starts {d : DeviceId} {e : Option PeerEntry} (os : List PeerAction) {x : PeerEntry}
    {now txGen g : ℕ} {channel : ChannelHandle} {role : ConnectRole} {target : Option EndpointId}
    {path : ConnectPath} {l2cap : Option L2capChannel}
    (hx : x.phase = .connected now channel txGen false)
    (hgen : (∀ y ∈ e, y.AsksOnce) → x.upgradeGen = 0)
    (hlands : ∀ v last, v.active? = e.bind PeerEntry.activeId →
      (∀ l, v = .active l → last = some l) → Lands d v last os)
    (hups : ∀ l u, .upgradeToL2cap d l u ∉ os) :
    Fits d e (some x) (os ++ [.startDataPipe d x.lifecycleId g role target path l2cap]) where
  active v _ := by
    have hlive : x.phase.isLive = true := by
      rw [hx]
      rfl
    rw [Option.bind_some, PeerEntry.activeId_of_live hlive, List.foldl_append]
    simp [LaneView.see, LaneView.active?]
  lands v last hv hlast := by
    rw [lands_append]
    -- the start of a pipe is no job that could miss its lane
    refine ⟨hlands v last hv hlast, ?_, trivial⟩
    intro l hl
    cases hl
  awaits l w hw := by
    rw [Option.bind_some, PeerEntry.awaits, hx] at hw
    cases hw
  once hy := by
    constructor
    · intro y hy'
      obtain rfl := Option.some.inj hy'
      exact Or.inl (hgen hy)
    · intro l u hu
      rcases List.mem_append.mp hu with hu | hu
      · exact absurd hu (hups l u)
      · simp at hu

/-- A dial, ordered last. -/
theorem Fits.dials {d : DeviceId} {e : Option PeerEntry} (os : List PeerAction) {x : PeerEntry}
    {attempt attempt' now : ℕ} (hx : x.phase = .connecting attempt now .gatt)
    (hgen : x.upgradeGen = 0) (howned : ∀ a ∈ os, ∀ l, a.owned ≠ some (d, l)) :
    Fits d e (some x) (os ++ [.startConnect d attempt' x.lifecycleId]) where
  active v _ := by
    have hlive : x.phase.isLive = true := by
      rw [hx]
      rfl
    rw [Option.bind_some, PeerEntry.activeId_of_live hlive, List.foldl_append]
    simp [LaneView.see, LaneView.active?]
  lands v last _ _ := by
    refine lands_of_unowned ?_ v last
    intro a ha l hl
    rcases List.mem_append.mp ha with ha | ha
    · exact howned a ha l hl
    · rw [List.mem_singleton.mp ha] at hl
      cases hl
  awaits := by
    refine Fits.awaits_last os ?_ rfl
    rw [PeerEntry.awaits, hx]
  once _ := by
    constructor
    · intro y hy
      obtain rfl := Option.some.inj hy
      exact Or.inl hgen
    · intro l u hu
      rcases List.mem_append.mp hu with hu | hu
      · exact absurd rfl (howned _ hu l)
      · simp at hu

/-- The upgrade of a live session that has asked for none. -/
theorem Fits.upgrades {d : DeviceId} {x x' : PeerEntry} {since txGen : ℕ} {channel : ChannelHandle}
    {since' txGen' : ℕ} {channel' : ChannelHandle}
    (hx : x.phase = .connected since channel txGen false)
    (hx' : x'.phase = .connected since' channel' txGen' true)
    (hid : x'.lifecycleId = x.lifecycleId) (hgen : x'.upgradeGen = x.upgradeGen + 1)
    (hnone : x.AsksOnce → x.upgradeGen = 0) :
    Fits d (some x) (some x') [.upgradeToL2cap d x.lifecycleId (x.upgradeGen + 1)] := by
  have hlive : x.phase.isLive = true := by
    rw [hx]
    rfl
  have hlive' : x'.phase.isLive = true := by
    rw [hx']
    rfl
  constructor
  · intro v hv
    rw [Option.bind_some, PeerEntry.activeId_of_live hlive', hid,
      ← PeerEntry.activeId_of_live hlive]
    exact hv
  · intro v last hv hlast
    -- the job is dispatched to the lane of the live entry
    refine ⟨?_, trivial⟩
    intro l hl
    obtain rfl : x.lifecycleId = l := by simpa [PeerAction.owned] using hl
    rcases lands_live hlive hv hlast with ⟨rfl, hl⟩
    exact ⟨LaneView.noConfusion, hl⟩
  · refine Fits.awaits_last [] ?_ rfl
    rw [PeerEntry.awaits, hx', hid, hgen]
  · intro hy
    have hzero := hnone (hy x rfl)
    constructor
    · intro y hy'
      obtain rfl := Option.some.inj hy'
      exact Or.inr ⟨by rw [hgen, hzero], since', channel', txGen', true, hx', Or.inl rfl⟩
    · intro l u hu
      have hu' : l = x.lifecycleId ∧ u = x.upgradeGen + 1 := by simpa using hu
      rw [hu'.2, hzero]

/-- The lifecycle of an entry ends: its link is taken down where it has one. -/
theorem Fits.ends {d : DeviceId} {x x' : PeerEntry} {native refresh : Bool}
    {close : Option (ChannelHandle × DisconnectReason)} (hx' : x'.phase.isLive = false)
    (hgen : x'.upgradeGen = 0) (hnative : native = true → x.phase.isLive = true)
    (hclose : close ≠ none → x.phase.isLive = true) :
    Fits d (some x) (some x')
      ((if native then [.closeNativeConnection d x.lifecycleId] else []) ++
        .retireLifecycle d x.lifecycleId :: cleanup d x.lifecycleId close refresh) := by
  have hcleanup : ∀ a ∈ cleanup d x.lifecycleId close refresh, a.touches d = false ∧
      -- before the close of the link nothing changes what is known of the lane
      ∀ l u, a ≠ .upgradeToL2cap d l u := by
    intro a ha
    cases close <;> cases refresh <;> simp [cleanup] at ha <;>
      rcases ha with rfl | rfl <;> simp [PeerAction.touches]
  -- so the job for the native link is dispatched to the lane as it was
  have hbefore : ∀ v : LaneView,
      (if native then [.closeNativeConnection d x.lifecycleId] else []).foldl (LaneView.see d) v = v
      ∧ ∀ last : Option ℕ, (if native then [.closeNativeConnection d x.lifecycleId] else []).foldl
        (fun last a => (PeerAction.activates d a).or last) last = last := by
    intro v
    cases native <;> exact ⟨rfl, fun _ => rfl⟩
  constructor
  · intro v hv
    rw [List.foldl_append, (hbefore v).1, List.foldl_cons,
      foldl_see_of_untouched fun a ha => (hcleanup a ha).1, Option.bind_some,
      PeerEntry.activeId_of_not_live hx']
    exact see_retire d hv
  · intro v last hv hlast
    rw [lands_append, (hbefore v).1, (hbefore v).2]
    refine ⟨?_, ?_, ?_⟩
    · cases hn : native with
      | false => trivial
      | true =>
          refine ⟨?_, trivial⟩
          intro l hl
          obtain rfl : x.lifecycleId = l := by simpa [PeerAction.owned, PeerAction.closes] using hl
          rcases lands_live (hnative hn) hv hlast with ⟨rfl, hl⟩
          exact ⟨LaneView.noConfusion, hl⟩
    · intro l hl
      cases hl
    · -- the lane of a link that is closed was active until just now
      cases hc : close with
      | none =>
          refine lands_of_unowned ?_ _ _
          intro a ha l hl
          cases refresh <;> simp [cleanup] at ha
          rw [ha] at hl
          cases hl
      | some c =>
          rcases lands_live (hclose (by simp [hc])) hv hlast with ⟨rfl, hl⟩
          have hidle : LaneView.see d (.active x.lifecycleId)
              (.retireLifecycle d x.lifecycleId) = .idle := by
            simp [LaneView.see]
          rw [hidle]
          cases refresh <;>
            simp [cleanup, Lands, PeerAction.owned, PeerAction.closes, PeerAction.activates, hl]
  · intro l w hw
    rw [Option.bind_some, PeerEntry.awaits_of_not_live hx'] at hw
    cases hw
  · intro _
    constructor
    · intro y hy
      obtain rfl := Option.some.inj hy
      exact Or.inl hgen
    · intro l u hu
      rcases List.mem_append.mp hu with hu | hu
      · cases native <;> simp at hu
      · rcases List.mem_cons.mp hu with hu | hu
        · cases hu
        · exact absurd rfl ((hcleanup _ hu).2 l u)

/-- What a function orders is for the lane of its entry, and fits what it does to the
entry. -/
theorem Moved.fits (h : Moved cmd w w') (hcmd : cmd ≠ .shutdown) :
    ∃ os, w'.orders = w.orders ++ os ∧ (∀ a ∈ os, a.lane? = some w.entry.deviceId) ∧
      Fits w.entry.deviceId (some w.entry) (some w'.entry) os := by
  have hnil : ∀ a ∈ ([] : List PeerAction), a.lane? = some w.entry.deviceId :=
    fun a ha => nomatch ha
  -- a dial in flight has asked for no upgrade, and its VERSION probe lands in its own lane
  have hconnecting : w.entry.phase.isConnecting = true → w.entry.AsksOnce →
      w.entry.upgradeGen = 0 :=
    fun hp hx => hx.gen_of_not_connected (PeerPhase.not_connected_of_connecting hp)
  have hread : w.entry.phase.isConnecting = true → ∀ v last,
      v.active? = (some w.entry).bind PeerEntry.activeId → (∀ l, v = .active l → last = some l) →
      Lands w.entry.deviceId v last [.readVersion w.entry.deviceId w.entry.lifecycleId] := by
    intro hp v last hv hlast
    refine ⟨?_, trivial⟩
    intro l hl
    obtain rfl : w.entry.lifecycleId = l := by simpa [PeerAction.owned] using hl
    rcases lands_live (PeerPhase.isLive_of_connecting hp) hv hlast with ⟨rfl, hl⟩
    exact ⟨LaneView.noConfusion, hl⟩
  cases h with
  | same life gen phase orders =>
      refine ⟨[], by rw [orders, List.append_nil], hnil, .stay ?_ ?_ ?_⟩
      · simp [PeerEntry.activeId, phase, life.lifecycleId]
      · intro l x hx
        rw [Option.bind_some, PeerEntry.awaits] at hx ⊢
        rw [← phase, ← life.lifecycleId, ← gen]
        exact hx
      · rintro hx y hy
        obtain rfl := Option.some.inj hy
        unfold PeerEntry.AsksOnce
        rw [gen, phase]
        rcases hx _ rfl with hzero | ⟨hone, since, channel, txGen, up, hp, hdone⟩
        · exact Or.inl hzero
        · exact Or.inr ⟨hone, since, channel, txGen, up, hp, hdone.imp_right (.imp_right life.failed)⟩
  | idle life gen before after orders =>
      refine ⟨[], by rw [orders, List.append_nil], hnil, .stay ?_ ?_ ?_⟩
      · simp [PeerEntry.activeId, before, after]
      · intro l x hx
        rw [Option.bind_some, PeerEntry.awaits_of_not_live after] at hx
        cases hx
      · rintro hx y hy
        obtain rfl := Option.some.inj hy
        have hzero := (hx _ rfl).gen_of_not_connected (PeerPhase.not_connected_of_not_live before)
        exact Or.inl (gen.trans hzero)
  | @settle since txGen channel channel' up life gen before after done orders =>
      refine ⟨[], by rw [orders, List.append_nil], hnil, .stay ?_ ?_ ?_⟩
      · simp [PeerEntry.activeId, before, after, PeerPhase.isLive, life.lifecycleId]
      · intro l x hx
        rw [Option.bind_some, PeerEntry.awaits, after] at hx
        cases hx
      · rintro hx y hy
        obtain rfl := Option.some.inj hy
        rcases hx _ rfl with hzero | ⟨hone, -⟩
        · exact Or.inl (gen.trans hzero)
        · exact Or.inr ⟨gen.trans hone, since, channel', txGen, false, after, Or.inr done⟩
  | upgrade life gen before after failed orders =>
      refine ⟨_, orders, by simp [PeerAction.lane?], .upgrades before after life.lifecycleId gen ?_⟩
      rintro (hzero | ⟨-, since, channel, txGen, up, hp, hdone⟩)
      · exact hzero
      · obtain ⟨-, rfl, -, rfl⟩ := PeerPhase.connected.inj (before.symm.trans hp)
        simp [failed] at hdone
  | dial life before after orders =>
      refine ⟨_, orders, by simp [PeerAction.lane?], ?_⟩
      exact Fits.dials [_] after life.upgradeGen (by simp [PeerAction.owned, PeerAction.closes])
  | redial life before after orders =>
      refine ⟨_, orders, by simp [PeerAction.lane?], ?_⟩
      exact Fits.dials [_, _] after life.upgradeGen
        (by simp [PeerAction.owned, PeerAction.closes])
  | accept life gen before after orders =>
      refine ⟨_, orders, by simp [PeerAction.lane?], ?_⟩
      rw [← life.lifecycleId]
      exact Fits.starts [_] after (fun hx => gen.trans (hconnecting before (hx _ rfl)))
        (life.lifecycleId ▸ hread before) (by simp)
  | @acceptUpgrade now txGen channel role target life gen before after orders =>
      refine ⟨_, orders, by simp [PeerAction.lane?], ?_⟩
      -- the entry is `Connected` before it asks for the upgrade
      let x : PeerEntry := { w.entry with
        phase := .connected now ⟨0, .gatt⟩ txGen false
        l2capUpgradeFailed := false }
      have hstart : Fits w.entry.deviceId (some w.entry) (some x)
          [.readVersion w.entry.deviceId w.entry.lifecycleId,
            .startDataPipe w.entry.deviceId w.entry.lifecycleId txGen role target .gatt none] :=
        Fits.starts [_] (x := x) rfl (fun hx => hconnecting before (hx _ rfl)) (hread before)
          (by simp)
      refine hstart.trans (.upgrades (x := x) rfl after life.lifecycleId gen ?_)
      rintro (hzero | ⟨-, since, channel, txGen, up, hp, hdone⟩)
      · exact hzero
      · obtain ⟨-, rfl, -, rfl⟩ := PeerPhase.connected.inj hp
        simp [x] at hdone
  | overtake life gen before after orders =>
      refine ⟨_, orders, by simp [PeerAction.lane?], ?_⟩
      rw [← life.lifecycleId]
      exact Fits.starts [] after (fun hx => gen.trans (hconnecting before (hx _ rfl)))
        (fun v last _ _ => trivial) (by simp)
  | restart life after orders =>
      refine ⟨_, orders, by simp [PeerAction.lane?], ?_⟩
      exact Fits.starts [_] after (fun _ => life.upgradeGen)
        (fun v last _ _ => lands_of_unowned (by simp [PeerAction.owned, PeerAction.closes]) v last)
        (by simp)
  | ends native refresh close life after hnative hclose leaks orders =>
      refine ⟨_, orders, ?_, .ends after life.upgradeGen ?_ ?_⟩
      · intro a ha
        cases native <;> cases close <;> cases refresh <;> simp [cleanup] at ha <;>
          rcases ha with rfl | rfl | rfl | rfl <;> rfl
      · intro hn
        exact PeerPhase.isLive_of_connecting (hnative hn)
      · intro hc
        rcases Option.ne_none_iff_exists'.mp hc with ⟨x, hx⟩
        rcases hclose x hx with ⟨since, txGen, up, hp⟩
        rw [hp]
        rfl
  | shutdown heq life phase orders => exact absurd heq hcmd

/-- The first function run on a new entry orders its pipe. -/
theorem Turn.TouchFresh.orders {io : Io} {d : DeviceId} {f : Edit → Edit}
    (hf : TouchFresh io cmd d f) (hw : w.entry.deviceId = d) (hgen : w.entry.upgradeGen = 0) :
    ∃ os, (f w).orders = w.orders ++ os ∧ (∀ a ∈ os, a.lane? = some d) ∧
      Fits d none (some (f w).entry) os := by
  have hstart : ∀ {w' : Edit} {now txGen : ℕ} {channel : ChannelHandle} {role : ConnectRole}
      {path : ConnectPath} {l2cap : Option L2capChannel}, w'.orders = w.orders →
      w'.entry.deviceId = d → w'.entry.phase = .connected now channel txGen false →
      w'.entry.upgradeGen = 0 →
      ∃ os, (w'.startDataPipe role path l2cap).orders = w.orders ++ os ∧
        (∀ a ∈ os, a.lane? = some d) ∧
        Fits d none (some (w'.startDataPipe role path l2cap).entry) os := by
    intro w' now txGen channel role path l2cap horders hdev hphase hgen'
    refine ⟨_, by rw [Edit.startDataPipe_orders, horders], by simp [PeerAction.lane?, hdev], ?_⟩
    rw [hdev, Edit.startDataPipe_entry]
    exact Fits.starts [] hphase (fun _ => hgen') (fun v last _ _ => trivial) (by simp)
  cases hf with
  | fragment =>
      unfold Edit.inboundGattFragmentFresh
      dsimp only
      exact hstart rfl hw rfl hgen
  | inboundL2capChannel =>
      unfold Edit.inboundL2capChannelFresh
      dsimp only
      exact hstart rfl hw rfl hgen

end Moved

namespace Turn

variable {io : Io} {cmd : PeerCommand} {t t' : Turn}

/-- Only a `Dead` entry is collected. -/
theorem not_live_of_collected {tickNow : ℕ} {d : DeviceId} {e : PeerEntry}
    (he : t.reg.peer d = some e) (hgc : (t.gcDead tickNow).reg.peer d = none) :
    e.phase.isLive = false := by
  cases hp : e.phase with
  | connecting attempt started path =>
      have hkept : (t.gcDead tickNow).reg.peer d = some e :=
        (Map.lookup_retain _ _ _ _).mpr ⟨he, by rw [hp]⟩
      rw [hkept] at hgc
      cases hgc
  | connected since channel txGen up =>
      have hkept : (t.gcDead tickNow).reg.peer d = some e :=
        (Map.lookup_retain _ _ _ _).mpr ⟨he, by rw [hp]⟩
      rw [hkept] at hgc
      cases hgc
  | _ => rfl

/-- What a small step orders fits what it does to the entry of `d`, whichever entry it is
about. -/
theorem Step.fits (hs : Step io cmd t t') (hcmd : cmd ≠ .shutdown) (hset : t.reg.Settled)
    (hk : t.reg.Keyed) (d : DeviceId) :
    ∃ os, t'.orders = t.orders ++ os ∧ Fits d (t.reg.peer d) (t'.reg.peer d) os := by
  -- an operation that issues no order and leaves the entry of `d` alone
  have hsame : ∀ {t' : Turn}, t'.orders = t.orders → t'.reg.peer d = t.reg.peer d →
      ∃ os, t'.orders = t.orders ++ os ∧ Fits d (t.reg.peer d) (t'.reg.peer d) os := by
    intro t' horders hpeer
    refine ⟨[], by rw [horders, List.append_nil], ?_⟩
    rw [hpeer]
    exact .foreign fun a ha => nomatch ha
  cases hs with
  | @edit d₁ e f he hf =>
      have hmoved : Moved cmd (t.focus e) (f (t.focus e)) :=
        hf.moved (w := t.focus e) (hset d₁ e he).shaking
      rcases hmoved.fits hcmd with ⟨os, horders, hlane, hfits⟩
      have hdev : (t.focus e).entry.deviceId = d₁ := hk d₁ e he
      rw [hdev] at hlane hfits
      refine ⟨os, horders, ?_⟩
      by_cases hd : d = d₁
      · subst hd
        rw [peer_store he, if_pos rfl, he]
        exact hfits
      · rw [peer_store he, if_neg hd]
        refine .foreign ?_
        intro a ha heq
        rw [hlane a ha] at heq
        exact hd (Option.some.inj heq).symm
  | @insert d₁ _ hd₁ =>
      by_cases hd : d = d₁
      · subst hd
        refine ⟨[], (List.append_nil _).symm, ?_⟩
        rw [peer_insertNew, if_pos rfl, hd₁]
        refine .stay rfl (fun l w hw => nomatch hw) ?_
        intro _ x hx
        obtain rfl := Option.some.inj hx
        exact Or.inl rfl
      · refine hsame rfl ?_
        rw [peer_insertNew, if_neg hd]
  | @fresh d₁ f hd₁ hf =>
      have he := peer_insertNew_self t d₁
      rcases hf.orders (w := (t.insertNew d₁).focus (newEntry t.reg.nextLifecycle d₁)) rfl rfl with
        ⟨os, horders, hlane, hfits⟩
      rw [edit_of_some he]
      refine ⟨os, horders, ?_⟩
      by_cases hd : d = d₁
      · subst hd
        rw [peer_store he, if_pos rfl, hd₁]
        exact hfits
      · rw [peer_store he, if_neg hd, peer_insertNew, if_neg hd]
        refine .foreign ?_
        intro a ha heq
        rw [hlane a ha] at heq
        exact hd (Option.some.inj heq).symm
  | verify p endpoint => exact hsame rfl rfl
  | prune => exact hsame rfl rfl
  | @gcDead tickNow _ =>
      cases hgc : (t.gcDead tickNow).reg.peer d with
      | some e => exact hgc ▸ hsame rfl (hgc.trans (peer_gcDead hgc).symm)
      | none =>
          refine ⟨[], (List.append_nil _).symm, .stay ?_ (fun l w hw => nomatch hw) ?_⟩
          · cases he : t.reg.peer d with
            | none => rfl
            | some e => exact (PeerEntry.activeId_of_not_live (not_live_of_collected he hgc)).symm
          · intro _ x hx
            cases hx
  | adapter state => exact hsame rfl rfl
  | restore b =>
      refine hsame ?_ rfl
      simp [orders, push, PeerAction.isOrder]

end Turn

namespace Registry

open Turn

variable {r : Registry} {io : Io} {exact replaced : Option DeviceId} {cmd : PeerCommand}

/-- What every small step keeps is kept by a command as `run` treats it. -/
theorem runCommand_rule {P : Turn → Prop} (hcmd : cmd ≠ .shutdown) (hstart : P (start r))
    (hstep : ∀ cmd' t t', cmd' ≠ .shutdown → Step io cmd' t t' → P t → P t') :
    P (r.runCommand io exact replaced cmd) := by
  have hsteps : ∀ cmd' {t t'}, cmd' ≠ .shutdown → Steps io cmd' t t' → P t → P t' := by
    intro cmd' t t' hcmd' h ht
    induction h with
    | refl => exact ht
    | tail _ hs ih => exact hstep cmd' _ _ hcmd' hs ih
  by_cases hv : ∃ endpoint token, cmd = .verifiedEndpoint endpoint token
  · rcases hv with ⟨endpoint, token, rfl⟩
    have hverify : ∀ t : Turn, P t → P (t.handleVerifiedEndpoint io endpoint exact) := by
      intro t ht
      exact hsteps (.verifiedEndpoint endpoint token) (by simp)
        (handleVerifiedEndpoint_steps exact) ht
    unfold runCommand
    dsimp only
    split
    · rename_i previous
      exact hverify _ (hsteps _ (by simp) (handle_steps io (.forget previous) r) hstart)
    · exact hverify _ hstart
  · rw [runCommand_of_ne fun endpoint token h => hv ⟨endpoint, token, h⟩]
    exact hsteps cmd hcmd (handle_steps io cmd r) hstart

/-- The actions of a command fit what it does to the entry of `d`. -/
theorem runCommand_fits (hcmd : cmd ≠ .shutdown) (hset : r.Settled) (hk : r.Keyed)
    (d : DeviceId) :
    Fits d (r.peer d) ((r.runCommand io exact replaced cmd).reg.peer d)
      (r.runCommand io exact replaced cmd).actions := by
  have hall : (r.runCommand io exact replaced cmd).reg.Settled ∧
      (r.runCommand io exact replaced cmd).reg.Keyed ∧
      Fits d (r.peer d) ((r.runCommand io exact replaced cmd).reg.peer d)
        (r.runCommand io exact replaced cmd).orders := by
    refine runCommand_rule (P := fun t => t.reg.Settled ∧ t.reg.Keyed ∧
      Fits d (r.peer d) (t.reg.peer d) t.orders) hcmd ?_ ?_
    · exact ⟨hset, hk, .foreign fun a ha => nomatch ha⟩
    · rintro cmd' t t' hcmd' hs ⟨ht, hkt, hfits⟩
      rcases hs.fits hcmd' ht hkt d with ⟨os, horders, hos⟩
      refine ⟨ht.step hs, keyed_step hkt hs, ?_⟩
      rw [horders]
      exact hfits.trans hos
  exact hall.2.2.of_orders

theorem runCommand_settled (hcmd : cmd ≠ .shutdown) (hset : r.Settled) :
    (r.runCommand io exact replaced cmd).reg.Settled :=
  runCommand_rule (P := fun t => t.reg.Settled) hcmd hset fun _ _ _ _ hs ht => ht.step hs

end Registry

end IrohBle
