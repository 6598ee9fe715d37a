import IrohBle.Registry.Generation
import IrohBle.Registry.Lifecycle
import IrohBle.Registry.Moved

/-! # Registry.Ledger: lifecycles issued, retired and upgraded

The ledger of a run lists the lifecycle ids that have been retired and the upgrades that
have been asked for. No id is retired twice, an entry never carries a retired one, and no
upgrade is asked for twice; so what a completion carries tells whether it is stale
(`lifecycle_identity`).
-/

namespace IrohBle

open Lib Reliable Registry

/-- The ids that are retired. -/
def retiredIds (actions : List PeerAction) : List ℕ :=
  actions.filterMap fun a =>
    match a with
    | .retireLifecycle _ l => some l
    | _ => none

/-- The upgrades asked for, each with its lifecycle and its number in it. -/
def upgradeIds (actions : List PeerAction) : List (ℕ × ℕ) :=
  actions.filterMap fun a =>
    match a with
    | .upgradeToL2cap _ l u => some (l, u)
    | _ => none

@[simp] theorem retiredIds_append (as bs : List PeerAction) :
    retiredIds (as ++ bs) = retiredIds as ++ retiredIds bs :=
  List.filterMap_append

@[simp] theorem upgradeIds_append (as bs : List PeerAction) :
    upgradeIds (as ++ bs) = upgradeIds as ++ upgradeIds bs :=
  List.filterMap_append

theorem mem_retiredIds {d : DeviceId} {l : ℕ} {actions : List PeerAction}
    (h : .retireLifecycle d l ∈ actions) : l ∈ retiredIds actions :=
  List.mem_filterMap.mpr ⟨_, h, rfl⟩

/-- The orders contain every retirement. -/
theorem retiredIds_orders (actions : List PeerAction) :
    retiredIds (actions.filter PeerAction.isOrder) = retiredIds actions := by
  unfold retiredIds
  rw [List.filterMap_filter]
  refine List.filterMap_congr fun a _ => ?_
  cases a <;> rfl

theorem upgradeIds_orders (actions : List PeerAction) :
    upgradeIds (actions.filter PeerAction.isOrder) = upgradeIds actions := by
  unfold upgradeIds
  rw [List.filterMap_filter]
  refine List.filterMap_congr fun a _ => ?_
  cases a <;> rfl

@[simp] theorem retiredIds_cleanup (d : DeviceId) (l : ℕ)
    (close : Option (ChannelHandle × DisconnectReason)) (refresh : Bool) :
    retiredIds (cleanup d l close refresh) = [] := by
  cases close <;> cases refresh <;> rfl

@[simp] theorem upgradeIds_cleanup (d : DeviceId) (l : ℕ)
    (close : Option (ChannelHandle × DisconnectReason)) (refresh : Bool) :
    upgradeIds (cleanup d l close refresh) = [] := by
  cases close <;> cases refresh <;> rfl

/-! ## What one function enters -/

/-- What a function enters into the ledger: nothing, an upgrade of the entry's lifecycle, or
the retirement of that lifecycle. -/
inductive Entered (w w' : Edit) : Prop where
  | keeps (id : w'.entry.lifecycleId = w.entry.lifecycleId)
      (next : w'.nextLifecycle = w.nextLifecycle)
      (retired : retiredIds w'.actions = retiredIds w.actions)
      (gen : w'.entry.upgradeGen = w.entry.upgradeGen)
      (upgrades : upgradeIds w'.actions = upgradeIds w.actions)
  | upgrades (id : w'.entry.lifecycleId = w.entry.lifecycleId)
      (next : w'.nextLifecycle = w.nextLifecycle)
      (retired : retiredIds w'.actions = retiredIds w.actions)
      (gen : w'.entry.upgradeGen = w.entry.upgradeGen + 1)
      (upgrades : upgradeIds w'.actions = upgradeIds w.actions ++
        [(w.entry.lifecycleId, w.entry.upgradeGen + 1)])
  /-- `spare` are the ids issued and retired at once. -/
  | renews (spare : List ℕ) (next : w.nextLifecycle < w'.nextLifecycle)
      (id : w'.entry.lifecycleId + 1 = w'.nextLifecycle)
      (retired : retiredIds w'.actions = retiredIds w.actions ++ w.entry.lifecycleId :: spare)
      (sparse : spare.Nodup) (between : ∀ l ∈ spare, w.nextLifecycle ≤ l ∧
        l < w'.entry.lifecycleId)
      (upgrades : upgradeIds w'.actions = upgradeIds w.actions)

/-- The orders of a move, read off the actions. -/
theorem Edit.ledger_of_orders {w w' : Edit} {l : List PeerAction}
    (h : w'.orders = w.orders ++ l) :
    retiredIds w'.actions = retiredIds w.actions ++ retiredIds l ∧
      upgradeIds w'.actions = upgradeIds w.actions ++ upgradeIds l := by
  constructor
  · rw [← retiredIds_orders w'.actions, ← retiredIds_orders w.actions, ← retiredIds_append]
    exact congrArg retiredIds h
  · rw [← upgradeIds_orders w'.actions, ← upgradeIds_orders w.actions, ← upgradeIds_append]
    exact congrArg upgradeIds h

/-- A move that keeps the id and asks for nothing. -/
theorem Entered.of_keeps {w w' : Edit} {l : List PeerAction} (life : Goes w w')
    (gen : w'.entry.upgradeGen = w.entry.upgradeGen) (orders : w'.orders = w.orders ++ l)
    (hr : retiredIds l = []) (hu : upgradeIds l = []) : Entered w w' := by
  have h := Edit.ledger_of_orders orders
  rw [hr, hu, List.append_nil, List.append_nil] at h
  exact .keeps life.lifecycleId life.nextLifecycle h.1 gen h.2

/-- A move that asks for the next upgrade. -/
theorem Entered.of_upgrades {w w' : Edit} {l : List PeerAction} (life : Goes w w')
    (gen : w'.entry.upgradeGen = w.entry.upgradeGen + 1) (orders : w'.orders = w.orders ++ l)
    (hr : retiredIds l = [])
    (hu : upgradeIds l = [(w.entry.lifecycleId, w.entry.upgradeGen + 1)]) : Entered w w' := by
  have h := Edit.ledger_of_orders orders
  rw [hr, hu, List.append_nil] at h
  exact .upgrades life.lifecycleId life.nextLifecycle h.1 gen h.2

/-- A move to the next id, which retires the old one. -/
theorem Entered.of_renews {w w' : Edit} {l : List PeerAction} (life : Renewed 1 w w')
    (orders : w'.orders = w.orders ++ l) (hr : retiredIds l = [w.entry.lifecycleId])
    (hu : upgradeIds l = []) : Entered w w' := by
  have h := Edit.ledger_of_orders orders
  rw [hr, hu, List.append_nil] at h
  refine .renews [] ?_ life.lifecycleId h.1 List.nodup_nil (by simp) h.2
  rw [life.nextLifecycle]
  exact Nat.lt_succ_self _

/-- Every move enters the ledger in one of these ways. -/
theorem Moved.entered {cmd : PeerCommand} {w w' : Edit} (h : Moved cmd w w') : Entered w w' := by
  cases h with
  | same life gen _ orders =>
      exact .of_keeps life gen (by rw [orders, List.append_nil]) rfl rfl
  | idle life gen _ _ orders =>
      exact .of_keeps life gen (by rw [orders, List.append_nil]) rfl rfl
  | settle life gen _ _ _ orders =>
      exact .of_keeps life gen (by rw [orders, List.append_nil]) rfl rfl
  | upgrade life gen _ _ _ orders => exact .of_upgrades life gen orders rfl rfl
  | dial life _ _ orders => exact .of_renews life orders rfl rfl
  -- a dial that follows a dial retires the id of the first
  | redial life _ _ orders =>
      have hledger := Edit.ledger_of_orders orders
      have hnext := life.nextLifecycle
      have hid := life.lifecycleId
      refine .renews [w.nextLifecycle] (by omega) hid hledger.1 (List.nodup_singleton _) ?_ ?_
      · intro l hl
        rw [List.mem_singleton.mp hl]
        omega
      · exact hledger.2.trans (List.append_nil _)
  | accept life gen _ _ orders => exact .of_keeps life gen orders rfl rfl
  | acceptUpgrade life gen _ _ orders => exact .of_upgrades life gen orders rfl rfl
  | overtake life gen _ _ orders => exact .of_keeps life gen orders rfl rfl
  | restart life _ orders => exact .of_renews life orders rfl rfl
  | ends native refresh close life _ _ _ _ orders =>
      refine .of_renews life orders ?_ ?_
      · cases native
        · exact congrArg (w.entry.lifecycleId :: ·) (retiredIds_cleanup _ _ close refresh)
        · exact congrArg (w.entry.lifecycleId :: ·) (retiredIds_cleanup _ _ close refresh)
      · cases native
        · exact upgradeIds_cleanup _ _ close refresh
        · exact upgradeIds_cleanup _ _ close refresh
  | shutdown _ life _ orders => exact .of_renews life orders rfl rfl

/-- The first function run on a new entry enters nothing. -/
theorem Turn.TouchFresh.entered {io : Io} {cmd : PeerCommand} {d : DeviceId} {f : Edit → Edit}
    (hf : TouchFresh io cmd d f) (w : Edit) : Entered w (f w) := by
  have hkeeps : ∀ w' : Edit, w'.entry.lifecycleId = w.entry.lifecycleId →
      w'.nextLifecycle = w.nextLifecycle → w'.entry.upgradeGen = w.entry.upgradeGen →
      w'.actions = w.actions → ∀ role path l2cap, Entered w (w'.startDataPipe role path l2cap) := by
    intro w' hid hnext hgen hactions role path l2cap
    have happend : (w'.startDataPipe role path l2cap).actions = w.actions ++
        [.startDataPipe w'.entry.deviceId w'.entry.lifecycleId w'.entry.txGen role
          w'.entry.targetEndpoint path l2cap] := by
      rw [← hactions]
      rfl
    refine .keeps hid hnext ?_ hgen ?_
    · rw [happend, retiredIds_append]
      exact List.append_nil _
    · rw [happend, upgradeIds_append]
      exact List.append_nil _
  cases hf with
  | fragment =>
      unfold Edit.inboundGattFragmentFresh
      dsimp only
      refine hkeeps _ ?_ ?_ ?_ ?_ _ _ _ <;> rfl
  | inboundL2capChannel =>
      unfold Edit.inboundL2capChannelFresh
      dsimp only
      refine hkeeps _ ?_ ?_ ?_ ?_ _ _ _ <;> rfl

/-! ## The ledger of a registry -/

namespace Registry

open Turn

/-- The ids in use, against those that were `retired` and the `upgrades` asked for. -/
structure Ledger (retired : List ℕ) (upgrades : List (ℕ × ℕ)) (r : Registry) : Prop where
  positive : 1 ≤ r.nextLifecycle
  issued : ∀ d e, r.peer d = some e → 1 ≤ e.lifecycleId ∧ e.lifecycleId < r.nextLifecycle
  distinct : ∀ d d' e e', r.peer d = some e → r.peer d' = some e' →
    e.lifecycleId = e'.lifecycleId → d = d'
  retired_lt : ∀ l ∈ retired, l < r.nextLifecycle
  retired_ne : ∀ l ∈ retired, ∀ d e, r.peer d = some e → e.lifecycleId ≠ l
  retired_nodup : retired.Nodup
  upgrades_lt : ∀ x ∈ upgrades, x.1 < r.nextLifecycle
  /-- Upgrades of one lifecycle are numbered by the entry. -/
  upgrades_le : ∀ x ∈ upgrades, ∀ d e, r.peer d = some e → e.lifecycleId = x.1 →
    x.2 ≤ e.upgradeGen
  upgrades_nodup : upgrades.Nodup

variable {R : List ℕ} {U : List (ℕ × ℕ)}

/-- A fresh entry takes an id that was never in use. -/
theorem Ledger.insertNew {t : Turn} {d : DeviceId} (h : Ledger R U t.reg)
    (hd : t.reg.peer d = none) : Ledger R U (t.insertNew d).reg := by
  have hnext : (t.insertNew d).reg.nextLifecycle = t.reg.nextLifecycle + 1 := rfl
  -- the new entry carries the counter, which nothing in the ledger reaches
  have hcases : ∀ d' e', (t.insertNew d).reg.peer d' = some e' →
      (d' = d ∧ e' = newEntry t.reg.nextLifecycle d) ∨ (d' ≠ d ∧ t.reg.peer d' = some e') := by
    intro d' e' he'
    rw [peer_insertNew] at he'
    split at he'
    · rename_i heq
      exact Or.inl ⟨heq, (Option.some.inj he').symm⟩
    · rename_i hne
      exact Or.inr ⟨hne, he'⟩
  constructor
  · rw [hnext]
    omega
  · intro d' e' he'
    rw [hnext]
    rcases hcases d' e' he' with ⟨-, rfl⟩ | ⟨-, hold⟩
    · exact ⟨h.positive, Nat.lt_succ_self _⟩
    · have hissued := h.issued d' e' hold
      omega
  · intro d₁ d₂ e₁ e₂ he₁ he₂ heq
    rcases hcases d₁ e₁ he₁ with ⟨rfl, rfl⟩ | ⟨-, hold₁⟩
    · rcases hcases d₂ e₂ he₂ with ⟨rfl, -⟩ | ⟨-, hold₂⟩
      · rfl
      · have hlt := (h.issued d₂ e₂ hold₂).2
        rw [← heq] at hlt
        exact absurd hlt (lt_irrefl _)
    · rcases hcases d₂ e₂ he₂ with ⟨rfl, rfl⟩ | ⟨-, hold₂⟩
      · have hlt := (h.issued d₁ e₁ hold₁).2
        rw [heq] at hlt
        exact absurd hlt (lt_irrefl _)
      · exact h.distinct d₁ d₂ e₁ e₂ hold₁ hold₂ heq
  · intro l hl
    rw [hnext]
    exact Nat.lt_succ_of_lt (h.retired_lt l hl)
  · intro l hl d' e' he'
    rcases hcases d' e' he' with ⟨-, rfl⟩ | ⟨-, hold⟩
    · exact (h.retired_lt l hl).ne'
    · exact h.retired_ne l hl d' e' hold
  · exact h.retired_nodup
  · intro x hx
    rw [hnext]
    exact Nat.lt_succ_of_lt (h.upgrades_lt x hx)
  · intro x hx d' e' he' hid
    rcases hcases d' e' he' with ⟨-, rfl⟩ | ⟨-, hold⟩
    · have hlt := h.upgrades_lt x hx
      rw [← hid] at hlt
      exact absurd hlt (lt_irrefl _)
    · exact h.upgrades_le x hx d' e' hold hid
  · exact h.upgrades_nodup

/-- The same ids, of fewer entries. -/
theorem Ledger.of_peers {r r' : Registry} (h : Ledger R U r)
    (hnext : r'.nextLifecycle = r.nextLifecycle)
    (hpeer : ∀ d e, r'.peer d = some e → r.peer d = some e) : Ledger R U r' where
  positive := hnext ▸ h.positive
  issued d e he := hnext ▸ h.issued d e (hpeer d e he)
  distinct d d' e e' he he' := h.distinct d d' e e' (hpeer d e he) (hpeer d' e' he')
  retired_lt l hl := hnext ▸ h.retired_lt l hl
  retired_ne l hl d e he := h.retired_ne l hl d e (hpeer d e he)
  retired_nodup := h.retired_nodup
  upgrades_lt x hx := hnext ▸ h.upgrades_lt x hx
  upgrades_le x hx d e he := h.upgrades_le x hx d e (hpeer d e he)
  upgrades_nodup := h.upgrades_nodup

/-- Giving back an entry brings what was done to it into the ledger. -/
theorem Ledger.store {t : Turn} {d : DeviceId} {e : PeerEntry} {w : Edit}
    (h : Ledger (R ++ retiredIds t.actions) (U ++ upgradeIds t.actions) t.reg)
    (he : t.reg.peer d = some e) (hw : Entered (t.focus e) w) :
    Ledger (R ++ retiredIds w.actions) (U ++ upgradeIds w.actions) (t.store d w).reg := by
  have hnext : (t.store d w).reg.nextLifecycle = w.nextLifecycle := rfl
  have hfocus : (t.focus e).nextLifecycle = t.reg.nextLifecycle := rfl
  have hactions : (t.focus e).actions = t.actions := rfl
  have hentry : (t.focus e).entry = e := rfl
  have hcases : ∀ d' e', (t.store d w).reg.peer d' = some e' →
      (d' = d ∧ e' = w.entry) ∨ (d' ≠ d ∧ t.reg.peer d' = some e') := by
    intro d' e' he'
    rw [peer_store he] at he'
    split at he'
    · rename_i heq
      exact Or.inl ⟨heq, (Option.some.inj he').symm⟩
    · rename_i hne
      exact Or.inr ⟨hne, he'⟩
  have hissued := h.issued d e he
  -- an entry that keeps its id keeps the ledger of ids
  have hkept : ∀ {U'}, w.entry.lifecycleId = e.lifecycleId →
      w.nextLifecycle = t.reg.nextLifecycle →
      (∀ x ∈ U', x.1 < t.reg.nextLifecycle) → U'.Nodup →
      (∀ x ∈ U', ∀ d' e', d' ≠ d → t.reg.peer d' = some e' → e'.lifecycleId = x.1 →
        x.2 ≤ e'.upgradeGen) →
      (∀ x ∈ U', e.lifecycleId = x.1 → x.2 ≤ w.entry.upgradeGen) →
      Ledger (R ++ retiredIds t.actions) U' (t.store d w).reg := by
    intro U' hid hn hlt hnodup hothers hown
    constructor
    · rw [hnext, hn]
      exact h.positive
    · intro d' e' he'
      rw [hnext, hn]
      rcases hcases d' e' he' with ⟨-, rfl⟩ | ⟨-, hold⟩
      · rw [hid]
        exact hissued
      · exact h.issued d' e' hold
    · intro d₁ d₂ e₁ e₂ he₁ he₂ heq
      rcases hcases d₁ e₁ he₁ with ⟨rfl, rfl⟩ | ⟨-, hold₁⟩
      · rcases hcases d₂ e₂ he₂ with ⟨rfl, -⟩ | ⟨-, hold₂⟩
        · rfl
        · exact h.distinct _ _ e e₂ he hold₂ (hid.symm.trans heq)
      · rcases hcases d₂ e₂ he₂ with ⟨rfl, rfl⟩ | ⟨-, hold₂⟩
        · exact h.distinct _ _ e₁ e hold₁ he (heq.trans hid)
        · exact h.distinct _ _ e₁ e₂ hold₁ hold₂ heq
    · intro l hl
      rw [hnext, hn]
      exact h.retired_lt l hl
    · intro l hl d' e' he'
      rcases hcases d' e' he' with ⟨-, rfl⟩ | ⟨-, hold⟩
      · rw [hid]
        exact h.retired_ne l hl d e he
      · exact h.retired_ne l hl d' e' hold
    · exact h.retired_nodup
    · intro x hx
      rw [hnext, hn]
      exact hlt x hx
    · intro x hx d' e' he' hx'
      rcases hcases d' e' he' with ⟨-, rfl⟩ | ⟨hne, hold⟩
      · exact hown x hx (hid.symm.trans hx')
      · exact hothers x hx d' e' hne hold hx'
    · exact hnodup
  cases hw with
  | keeps hid hn hret hgen hups =>
      rw [hret, hups, hactions]
      refine hkept hid hn h.upgrades_lt h.upgrades_nodup ?_ ?_
      · intro x hx d' e' _ hold hx'
        exact h.upgrades_le x hx d' e' hold hx'
      · -- the number of upgrades asked for has not changed
        intro x hx hx'
        rw [hgen]
        exact h.upgrades_le x hx d e he hx'
  | upgrades hid hn hret hgen hups =>
      rw [hret, hups, hactions, ← List.append_assoc]
      -- the lifecycle goes on with one more upgrade
      refine hkept hid hn ?_ ?_ ?_ ?_
      · intro x hx
        rcases List.mem_append.mp hx with hx | hx
        · exact h.upgrades_lt x hx
        · rw [List.mem_singleton.mp hx]
          exact hissued.2
      · -- the number is one more than any asked for in this lifecycle
        rw [List.nodup_append]
        refine ⟨h.upgrades_nodup, List.nodup_singleton _, ?_⟩
        intro x hx y hy heq
        rw [List.mem_singleton.mp hy] at heq
        have hle := h.upgrades_le x hx d e he (by rw [heq]; rfl)
        rw [heq] at hle
        exact absurd hle (Nat.not_succ_le_self _)
      · intro x hx d' e' hne hold hx'
        rcases List.mem_append.mp hx with hx | hx
        · exact h.upgrades_le x hx d' e' hold hx'
        · rw [List.mem_singleton.mp hx] at hx'
          exact absurd (h.distinct d' d e' e hold he hx') hne
      · intro x hx hx'
        rw [hgen]
        rcases List.mem_append.mp hx with hx | hx
        · exact Nat.le_succ_of_le (h.upgrades_le x hx d e he hx')
        · rw [List.mem_singleton.mp hx]
  | renews spare hn hid hret hsparse hbetween hups =>
      rw [hret, hups, hactions, ← List.append_assoc]
      rw [hfocus] at hn hbetween
      rw [hentry] at *
      -- the new id lies above all that are in use, so it can clash with none
      have hold_lt : ∀ {d' e'}, t.reg.peer d' = some e' → e'.lifecycleId < w.entry.lifecycleId := by
        intro d' e' hold
        have := (h.issued d' e' hold).2
        omega
      constructor
      · rw [hnext]
        have := h.positive
        omega
      · intro d' e' he'
        rw [hnext]
        rcases hcases d' e' he' with ⟨-, rfl⟩ | ⟨-, hold⟩
        · have := h.positive
          omega
        · have := h.issued d' e' hold
          omega
      · intro d₁ d₂ e₁ e₂ he₁ he₂ heq
        rcases hcases d₁ e₁ he₁ with ⟨rfl, rfl⟩ | ⟨-, hold₁⟩
        · rcases hcases d₂ e₂ he₂ with ⟨rfl, -⟩ | ⟨-, hold₂⟩
          · rfl
          · exact absurd heq (hold_lt hold₂).ne'
        · rcases hcases d₂ e₂ he₂ with ⟨rfl, rfl⟩ | ⟨-, hold₂⟩
          · exact absurd heq (hold_lt hold₁).ne
          · exact h.distinct _ _ e₁ e₂ hold₁ hold₂ heq
      · intro l hl
        rw [hnext]
        rcases List.mem_append.mp hl with hl | hl
        · exact (h.retired_lt l hl).trans hn
        · rcases List.mem_cons.mp hl with rfl | hl
          · omega
          · have := (hbetween l hl).2
            omega
      · intro l hl d' e' he'
        rcases List.mem_append.mp hl with hl | hl
        · rcases hcases d' e' he' with ⟨-, rfl⟩ | ⟨-, hold⟩
          · have := h.retired_lt l hl
            omega
          · exact h.retired_ne l hl d' e' hold
        · rcases List.mem_cons.mp hl with rfl | hl
          · rcases hcases d' e' he' with ⟨-, rfl⟩ | ⟨hne, hold⟩
            · exact (hold_lt he).ne'
            · intro heq
              exact hne (h.distinct d' d e' e hold he heq)
          · have hb := hbetween l hl
            rcases hcases d' e' he' with ⟨-, rfl⟩ | ⟨hne, hold⟩
            · omega
            · have := (h.issued d' e' hold).2
              omega
      · rw [List.nodup_append]
        refine ⟨h.retired_nodup, ?_, ?_⟩
        · rw [List.nodup_cons]
          refine ⟨?_, hsparse⟩
          intro hmem
          have := (hbetween _ hmem).1
          omega
        · intro l hl l' hl' heq
          rcases List.mem_cons.mp hl' with rfl | hl'
          · exact h.retired_ne l hl d e he heq.symm
          · have hlt := h.retired_lt l hl
            have hge := (hbetween l' hl').1
            omega
      · intro x hx
        rw [hnext]
        exact (h.upgrades_lt x hx).trans hn
      · intro x hx d' e' he' hx'
        rcases hcases d' e' he' with ⟨-, rfl⟩ | ⟨-, hold⟩
        · have := h.upgrades_lt x hx
          omega
        · exact h.upgrades_le x hx d' e' hold hx'
      · exact h.upgrades_nodup

/-- Every small step brings what it does into the ledger. -/
theorem Ledger.step {io : Io} {cmd : PeerCommand} {t t' : Turn} (hset : t.reg.Settled)
    (h : Ledger (R ++ retiredIds t.actions) (U ++ upgradeIds t.actions) t.reg)
    (hs : Turn.Step io cmd t t') :
    Ledger (R ++ retiredIds t'.actions) (U ++ upgradeIds t'.actions) t'.reg := by
  cases hs with
  | @edit d e f he hf =>
      have hmoved : Moved cmd (t.focus e) (f (t.focus e)) :=
        hf.moved (w := t.focus e) (hset d e he).shaking
      exact h.store he hmoved.entered
  | insert _ hd => exact h.insertNew hd
  | @fresh d f hd hf =>
      have he := peer_insertNew_self t d
      have hnew : Ledger (R ++ retiredIds (t.insertNew d).actions)
          (U ++ upgradeIds (t.insertNew d).actions) (t.insertNew d).reg := h.insertNew hd
      rw [edit_of_some he]
      exact hnew.store he (hf.entered _)
  | gcDead _ => exact h.of_peers rfl fun d e he => peer_gcDead he
  | verify p endpoint => exact h.of_peers rfl fun d e he => he
  | prune => exact h.of_peers rfl fun d e he => he
  | adapter state => exact h.of_peers rfl fun d e he => he
  | restore b =>
      have hret : retiredIds ((t.push (.restorePeripheral b)).push .restartScan).actions =
          retiredIds t.actions := by
        simp [push, retiredIds]
      have hups : upgradeIds ((t.push (.restorePeripheral b)).push .restartScan).actions =
          upgradeIds t.actions := by
        simp [push, upgradeIds]
      rw [hret, hups]
      exact h.of_peers rfl fun d e he => he

/-- What a command retires and upgrades goes into the ledger. -/
theorem Ledger.handle {r : Registry} (hset : r.Settled) (h : Ledger R U r) (io : Io)
    (cmd : PeerCommand) :
    Ledger (R ++ retiredIds (r.handle io cmd).actions) (U ++ upgradeIds (r.handle io cmd).actions)
      (r.handle io cmd).reg := by
  have hstart : (start r).reg.Settled ∧
      Ledger (R ++ retiredIds (start r).actions) (U ++ upgradeIds (start r).actions)
        (start r).reg := by
    refine ⟨hset, ?_⟩
    rw [show retiredIds (start r).actions = [] from rfl,
      show upgradeIds (start r).actions = [] from rfl, List.append_nil, List.append_nil]
    exact h
  have hsteps := handle_steps io cmd r
  generalize r.handle io cmd = t at hsteps
  suffices hboth : t.reg.Settled ∧
      Ledger (R ++ retiredIds t.actions) (U ++ upgradeIds t.actions) t.reg from hboth.2
  induction hsteps with
  | refl => exact hstart
  | tail _ hs ih => exact ⟨ih.1.step hs, ih.2.step ih.1 hs⟩

/-- The ledger of a registry that has just been made is empty. -/
theorem ledger_new (policy : L2capPolicy) (endpoint : EndpointId) :
    Ledger [] [] (new policy endpoint) :=
  ⟨le_refl 1, (fun _ _ he => nomatch he), (fun _ _ _ _ he => nomatch he),
    (fun _ hl => nomatch hl), (fun _ hl => nomatch hl), List.nodup_nil,
    (fun _ hx => nomatch hx), (fun _ hx => nomatch hx), List.nodup_nil⟩

/-- Everything a run has emitted. -/
def emittedBy (h : List (Registry × Label)) : List PeerAction := h.flatMap emitted

/-- In every run the ledger is that of what it has emitted. -/
theorem ledger_of_run {h : List (Registry × Label)} {r : Registry} (hrun : system.Run h r) :
    Ledger (retiredIds (emittedBy h)) (upgradeIds (emittedBy h)) r := by
  induction hrun with
  | init hinit =>
      rcases hinit with ⟨policy, endpoint, rfl⟩
      exact ledger_new policy endpoint
  | @step h r r' l hprev hs ih =>
      have hsnoc : emittedBy (h ++ [(r, l)]) = emittedBy h ++ emitted (r, l) := by
        simp [emittedBy]
      rw [hsnoc, retiredIds_append, upgradeIds_append]
      cases l with
      | reorder ks =>
          have hnone : emitted (r, .reorder ks) = [] := rfl
          rw [hnone, show retiredIds [] = [] from rfl, show upgradeIds [] = [] from rfl,
            List.append_nil, List.append_nil]
          refine ih.of_peers ?_ ?_
          · simp only [system, Registry.step] at hs
            split at hs
            · obtain rfl := Option.some.inj hs
              rfl
            · cases hs
          · intro d e he
            rw [← peer_reorder hs]
            exact he
      | command io cmd =>
          obtain rfl := Option.some.inj hs
          exact ih.handle (settled_of_run hprev) io cmd

/-! ## Ids in use -/

/-- An id in use after a small step was in use before, by the same device, or has just been
issued. -/
theorem step_id {io : Io} {cmd : PeerCommand} {t t' : Turn} (hs : Turn.Step io cmd t t') :
    t.reg.nextLifecycle ≤ t'.reg.nextLifecycle ∧
      ∀ d e', t'.reg.peer d = some e' → t.reg.nextLifecycle ≤ e'.lifecycleId ∨
        ∃ e, t.reg.peer d = some e ∧ e.lifecycleId = e'.lifecycleId := by
  -- an id in the entry that was written was its own, or was issued just now
  have hstore : ∀ {t : Turn} {d e w}, t.reg.peer d = some e → Issued (t.focus e) w →
      ∀ d' e', (t.store d w).reg.peer d' = some e' → t.reg.nextLifecycle ≤ e'.lifecycleId ∨
        ∃ e, t.reg.peer d' = some e ∧ e.lifecycleId = e'.lifecycleId := by
    intro t d e w he hw d' e' he'
    rw [peer_store he] at he'
    split at he'
    · rename_i heq
      subst heq
      obtain rfl := Option.some.inj he'
      rcases hw.id with hid | ⟨hge, -⟩
      · exact Or.inr ⟨e, he, hid.symm⟩
      · exact Or.inl hge
    · exact Or.inr ⟨e', he', rfl⟩
  cases hs with
  | @edit d e f he hf => exact ⟨(hf.issued (t.focus e)).mono, hstore he (hf.issued (t.focus e))⟩
  | insert _ hd =>
      refine ⟨Nat.le_succ _, fun d e' he' => ?_⟩
      rw [peer_insertNew] at he'
      split at he'
      · obtain rfl := Option.some.inj he'
        exact Or.inl (le_refl _)
      · exact Or.inr ⟨e', he', rfl⟩
  | @fresh d₀ f hd hf =>
      have he := peer_insertNew_self t d₀
      have hissued : Issued ((t.insertNew d₀).focus (newEntry t.reg.nextLifecycle d₀))
          (f ((t.insertNew d₀).focus (newEntry t.reg.nextLifecycle d₀))) := by
        cases hf <;> exact .quiet rfl rfl
      rw [edit_of_some he]
      refine ⟨(Nat.le_succ _).trans hissued.mono, fun d e' he' => ?_⟩
      rcases hstore he hissued d e' he' with hge | ⟨e, he₁, hid⟩
      · exact Or.inl ((Nat.le_succ _).trans hge)
      · rw [peer_insertNew] at he₁
        split at he₁
        · obtain rfl := Option.some.inj he₁
          exact Or.inl hid.le
        · exact Or.inr ⟨e, he₁, hid⟩
  | gcDead _ => exact ⟨le_refl _, fun d e' he' => Or.inr ⟨e', peer_gcDead he', rfl⟩⟩
  | verify p endpoint => exact ⟨le_refl _, fun d e' he' => Or.inr ⟨e', he', rfl⟩⟩
  | prune => exact ⟨le_refl _, fun d e' he' => Or.inr ⟨e', he', rfl⟩⟩
  | adapter state => exact ⟨le_refl _, fun d e' he' => Or.inr ⟨e', he', rfl⟩⟩
  | restore b => exact ⟨le_refl _, fun d e' he' => Or.inr ⟨e', he', rfl⟩⟩

/-- The same for a step of a run. -/
theorem run_step_id {r r' : Registry} {l : Label} (hs : system.step l r = some r') :
    r.nextLifecycle ≤ r'.nextLifecycle ∧
      ∀ d e', r'.peer d = some e' → r.nextLifecycle ≤ e'.lifecycleId ∨
        ∃ e, r.peer d = some e ∧ e.lifecycleId = e'.lifecycleId := by
  cases l with
  | reorder ks =>
      have hpeer := peer_reorder hs
      simp only [system, Registry.step] at hs
      split at hs
      · obtain rfl := Option.some.inj hs
        refine ⟨le_refl _, fun d e' he' => Or.inr ⟨e', ?_, rfl⟩⟩
        rw [← hpeer]
        exact he'
      · cases hs
  | command io cmd =>
      obtain rfl := Option.some.inj hs
      have hsteps := handle_steps io cmd r
      generalize r.handle io cmd = t at hsteps
      induction hsteps with
      | refl => exact ⟨le_refl _, fun d e' he' => Or.inr ⟨e', he', rfl⟩⟩
      | tail _ hs ih =>
          have hstep := step_id hs
          refine ⟨ih.1.trans hstep.1, fun d e' he' => ?_⟩
          rcases hstep.2 d e' he' with hge | ⟨e₁, he₁, hid⟩
          · exact Or.inl (ih.1.trans hge)
          · rcases ih.2 d e₁ he₁ with hge | ⟨e, he, hid'⟩
            · exact Or.inl (hid ▸ hge)
            · exact Or.inr ⟨e, he, hid'.trans hid⟩

/-- An id that is in use in two states of a run belongs to one entry, which carries it in
every state between them. -/
theorem id_tenure {h₁ h₂ : List (Registry × Label)} {x : Registry × Label} {r : Registry}
    (hrun : system.Run (h₁ ++ x :: h₂) r) {d d' : DeviceId} {e e' : PeerEntry}
    (he : x.1.peer d = some e) (he' : r.peer d' = some e')
    (hid : e.lifecycleId = e'.lifecycleId) :
    d' = d ∧ ∀ y ∈ h₂, ∃ e'', y.1.peer d = some e'' ∧ e''.lifecycleId = e.lifecycleId := by
  -- from the first state on, whoever has the id is this entry
  have hsince : e.lifecycleId < r.nextLifecycle ∧ ∀ d' e', r.peer d' = some e' →
      e'.lifecycleId = e.lifecycleId → d' = d ∧ ∀ y ∈ x :: h₂, ∃ e'', y.1.peer d = some e'' ∧
        e''.lifecycleId = e.lifecycleId := by
    refine hrun.since (C := fun _ _ => True) (P := fun k s => e.lifecycleId < s.nextLifecycle ∧
      ∀ d' e', s.peer d' = some e' → e'.lifecycleId = e.lifecycleId → d' = d ∧ ∀ y ∈ k,
        ∃ e'', y.1.peer d = some e'' ∧ e''.lifecycleId = e.lifecycleId) (fun _ _ => trivial) ?_ ?_
    · -- ids in use are distinct and below the counter
      rcases hrun.prefix_run x (by simp) with ⟨h₀, -, hrun₀⟩
      have hledger := ledger_of_run hrun₀
      refine ⟨(hledger.issued d e he).2, ?_⟩
      intro d' e' he' hid'
      exact ⟨hledger.distinct d' d e' e he' he hid', fun y hy => nomatch hy⟩
    · rintro k s l s' - - ⟨hlt, hsame⟩ hs
      have hstep := run_step_id hs
      refine ⟨lt_of_lt_of_le hlt hstep.1, ?_⟩
      intro d' e' he' hid'
      rcases hstep.2 d' e' he' with hge | ⟨e₁, he₁, hid₁⟩
      · -- a new id is not below the counter
        exact absurd hge (by omega)
      · rcases hsame d' e₁ he₁ (hid₁.trans hid') with ⟨rfl, hk⟩
        refine ⟨rfl, fun y hy => ?_⟩
        rcases List.mem_append.mp hy with hy | hy
        · exact hk y hy
        · rw [List.mem_singleton.mp hy]
          exact ⟨e₁, he₁, hid₁.trans hid'⟩
  rcases hsince.2 d' e' he' hid.symm with ⟨hd, hall⟩
  exact ⟨hd, fun y hy => hall y (List.mem_cons_of_mem _ hy)⟩

end Registry

/-! ## Completions of a retired lifecycle -/

/-- The answers of the driver that carry the lifecycle `l` of `d`. -/
def PeerCommand.completes (d : DeviceId) (l : ℕ) : PeerCommand → Prop
  | .connectSucceeded d' l' _ => d' = d ∧ l' = l
  | .connectFailed d' l' _ => d' = d ∧ l' = l
  | .protocolVersionMismatch d' l' _ _ => d' = d ∧ l' = l
  | .openL2capSucceeded d' l' _ _ => d' = d ∧ l' = l
  | .openL2capFailed d' l' _ _ => d' = d ∧ l' = l
  | _ => False

namespace Registry

open Turn

/-- Putting an entry back as it was changes nothing. -/
theorem edit_same {r : Registry} {d : DeviceId} {f : Edit → Edit}
    (hf : ∀ e, r.peer d = some e → f ((start r).focus e) = (start r).focus e) :
    (start r).edit d f = start r := by
  cases he : r.peer d with
  | none => exact edit_of_none he
  | some e =>
      have hedit : (start r).edit d f = (start r).store d (f ((start r).focus e)) :=
        edit_of_some he
      have hreplace : AList.replace d e r.peers = r.peers :=
        AList.ext (List.kreplace_self r.peers.nodupKeys ((Map.mem_entries_iff r.peers d e).mpr he))
      rw [hedit, hf e he]
      unfold store focus
      simp only [start, hreplace]

/-- A completion that carries another lifecycle than the entry's is dropped. -/
theorem handle_stale {r : Registry} {io : Io} {cmd : PeerCommand} {d : DeviceId} {l : ℕ}
    (hcmd : cmd.completes d l) (hstale : ∀ e, r.peer d = some e → e.lifecycleId ≠ l) :
    r.handle io cmd = start r := by
  cases cmd with
  | connectSucceeded d' l' channel =>
      obtain ⟨rfl, rfl⟩ := hcmd
      refine edit_same fun e he => ?_
      unfold Edit.connectSucceeded
      exact if_pos (Or.inl (hstale e he))
  | connectFailed d' l' error =>
      obtain ⟨rfl, rfl⟩ := hcmd
      have hsame : (start r).edit d' (Edit.connectFailed io.now l' error) = start r := by
        refine edit_same fun e he => ?_
        unfold Edit.connectFailed
        exact if_pos (hstale e he)
      change ((start r).edit d' (Edit.connectFailed io.now l' error)).pruneIfGivenUp d'
        (r.peer d') = start r
      rw [hsame]
      -- an entry in one phase is not in two
      unfold pruneIfGivenUp
      split
      · rename_i hbefore hafter
        rw [show (start r).reg.peer d' = r.peer d' from rfl, hbefore] at hafter
        cases hafter
      · rfl
  | protocolVersionMismatch d' l' got want =>
      obtain ⟨rfl, rfl⟩ := hcmd
      change handleProtocolVersionMismatch io d' l' got want (start r) = start r
      unfold handleProtocolVersionMismatch
      split
      · rfl
      · rename_i e he
        exact if_pos (hstale e he)
  | openL2capSucceeded d' l' u channel =>
      obtain ⟨rfl, rfl⟩ := hcmd
      refine edit_same fun e he => ?_
      unfold Edit.openL2capSucceeded
      exact if_pos (Or.inl (hstale e he))
  | openL2capFailed d' l' u error =>
      obtain ⟨rfl, rfl⟩ := hcmd
      refine edit_same fun e he => ?_
      unfold Edit.openL2capFailed
      exact if_pos (Or.inl (hstale e he))
  | _ => exact absurd hcmd id

/-- In every run: the ids in use are pairwise distinct, at least 1 and below the counter;
an id in use in two states belongs to one entry that carries it all the time between, and
no id is retired twice; no upgrade is asked for twice; and once a lifecycle of `d` has been
retired, an answer of the driver that carries it changes nothing and emits nothing. -/
theorem lifecycle_identity {h : List (Registry × Label)} {r : Registry}
    (hrun : system.Run h r) :
    (∀ d e, r.peer d = some e → 1 ≤ e.lifecycleId ∧ e.lifecycleId < r.nextLifecycle) ∧
    (∀ d d' e e', r.peer d = some e → r.peer d' = some e' → d ≠ d' →
      e.lifecycleId ≠ e'.lifecycleId) ∧
    (∀ h₁ x h₂, h = h₁ ++ x :: h₂ → ∀ d d' e e', x.1.peer d = some e → r.peer d' = some e' →
      e.lifecycleId = e'.lifecycleId →
      d' = d ∧ ∀ y ∈ h₂, ∃ e'', y.1.peer d = some e'' ∧ e''.lifecycleId = e.lifecycleId) ∧
    (retiredIds (emittedBy h)).Nodup ∧
    (upgradeIds (emittedBy h)).Nodup ∧
    ∀ d l, .retireLifecycle d l ∈ emittedBy h → ∀ io cmd, cmd.completes d l →
      r.handle io cmd = start r := by
  have hledger := ledger_of_run hrun
  refine ⟨hledger.issued, ?_, ?_, hledger.retired_nodup, hledger.upgrades_nodup, ?_⟩
  · intro d d' e e' he he' hne heq
    exact hne (hledger.distinct d d' e e' he he' heq)
  · rintro h₁ x h₂ rfl d d' e e' he he' hid
    exact id_tenure hrun he he' hid
  · intro d l hretired io cmd hcmd
    refine handle_stale hcmd fun e he => ?_
    exact hledger.retired_ne l (mem_retiredIds hretired) d e he

/-- On a run: the late failure of a retired dial changes nothing. -/
theorem lifecycle_identity_rewriteRun :
    ∃ h r, system.Run h r ∧ h.map Prod.snd = rewriteRun ∧
      .retireLifecycle "peer" 1 ∈ emittedBy h ∧
      r.handle (ioAt 3) (.connectFailed "peer" 1 "late") = start r := by
  obtain ⟨h, r, hrun, hl, hretired⟩ := System.Run.of_trace
    (P := fun (h : List (Registry × Label)) (_ : Registry) =>
      .retireLifecycle "peer" 1 ∈ emittedBy h)
    rewriteRun (init_new .disabled localEndpoint) (by decide +kernel)
  exact ⟨h, r, hrun, hl, hretired,
    (lifecycle_identity hrun).2.2.2.2.2 "peer" 1 hretired (ioAt 3) _ ⟨rfl, rfl⟩⟩

end Registry

end IrohBle
