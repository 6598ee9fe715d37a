import IrohBle.Registry.Handle
import Mathlib.Logic.Relation

/-! # Registry.Steps: what one command can do

`handle` is a chain of small steps on a `Turn`: `Touch` lists every function a command
may run on an entry, with what is known of the entry there, and `Step` adds the
insertion of fresh entries and the bookkeeping of the registry itself.

* `handle_steps`: every command is such a chain.
* `run_invariant`: what survives a reordering and every small step holds in every run;
  `all_of_run` is its form for a property of entries.
-/

namespace IrohBle

open Lib Reliable Registry

/-- A tick inserts no entry, and nothing else removes one. -/
def PeerCommand.isTick : PeerCommand → Bool
  | .tick _ => true
  | _ => false

/-- The commands that offer something to a pipe's channels. -/
def PeerCommand.offers : PeerCommand → Bool
  | .sendDatagram .. | .dataPipeReady .. => true
  | _ => false

namespace Turn

/-! ## Lookups -/

@[simp] theorem peer_start (r : Registry) (d : DeviceId) : (start r).reg.peer d = r.peer d := rfl

/-- Storing an entry changes the one device. -/
theorem peer_store {t : Turn} {d : DeviceId} {e : PeerEntry} (he : t.reg.peer d = some e) (w : Edit)
    (d' : DeviceId) :
    (t.store d w).reg.peer d' = if d' = d then some w.entry else t.reg.peer d' := by
  unfold peer at he ⊢
  change AList.lookup d' (AList.replace d w.entry t.reg.peers) = _
  rw [Map.lookup_replace_ite, he]
  rfl

theorem peer_insertNew (t : Turn) (d d' : DeviceId) :
    (t.insertNew d).reg.peer d' =
      if d' = d then some (newEntry t.reg.nextLifecycle d) else t.reg.peer d' :=
  Map.lookup_insert_ite _ _ _ _

theorem peer_insertNew_self (t : Turn) (d : DeviceId) :
    (t.insertNew d).reg.peer d = some (newEntry t.reg.nextLifecycle d) := by
  rw [peer_insertNew, if_pos rfl]

theorem edit_of_none {t : Turn} {d : DeviceId} {f : Edit → Edit} (h : t.reg.peer d = none) :
    t.edit d f = t := by
  simp only [edit, h]

theorem edit_of_some {t : Turn} {d : DeviceId} {f : Edit → Edit} {e : PeerEntry}
    (h : t.reg.peer d = some e) : t.edit d f = t.store d (f (t.focus e)) := by
  simp only [edit, h]

theorem ensure_of_none {t : Turn} {d : DeviceId} (h : t.reg.peer d = none) :
    t.ensure d = t.insertNew d := by
  simp only [ensure, h]

theorem ensure_of_some {t : Turn} {d : DeviceId} {e : PeerEntry} (h : t.reg.peer d = some e) :
    t.ensure d = t := by
  simp only [ensure, h]

/-- Other devices do not notice. -/
theorem peer_edit_ne {t : Turn} {d d' : DeviceId} {f : Edit → Edit} (hd : d' ≠ d) :
    (t.edit d f).reg.peer d' = t.reg.peer d' := by
  cases h : t.reg.peer d with
  | none => rw [edit_of_none h]
  | some e => rw [edit_of_some h, peer_store h, if_neg hd]

theorem peer_gcDead {t : Turn} {n : ℕ} {d : DeviceId} {e : PeerEntry}
    (h : (t.gcDead n).reg.peer d = some e) : t.reg.peer d = some e :=
  ((Map.lookup_retain _ _ _ _).mp h).1

theorem peer_of_mem_entries {t : Turn} {d : DeviceId} {e : PeerEntry}
    (h : (⟨d, e⟩ : Σ _ : DeviceId, PeerEntry) ∈ t.reg.peers.entries) : t.reg.peer d = some e :=
  (Map.mem_entries_iff _ _ _).mp h

/-- A device that was picked has an entry that was asked for. -/
theorem mem_devicesWhere {t : Turn} {p : PeerEntry → Bool} {d : DeviceId}
    (h : d ∈ t.devicesWhere p) : ∃ e, t.reg.peer d = some e ∧ p e = true := by
  unfold devicesWhere at h
  rcases List.mem_map.mp h with ⟨⟨d', e⟩, hmem, rfl⟩
  rcases List.mem_filter.mp hmem with ⟨hent, hp⟩
  exact ⟨e, peer_of_mem_entries hent, hp⟩

theorem nodup_devicesWhere (t : Turn) (p : PeerEntry → Bool) : (t.devicesWhere p).Nodup := by
  unfold devicesWhere
  exact (t.reg.peers.keys_nodup).sublist (List.filter_sublist.map Sigma.fst)

/-! ## Steps -/

/-- The functions a command may run on an entry `e` of `d`. -/
inductive Touch (io : Io) : PeerCommand → DeviceId → PeerEntry → (Edit → Edit) → Prop where
  | stampExact {endpoint token d e} :
      Touch io (.verifiedEndpoint endpoint token) d e (Edit.stampExact io.now endpoint)
  | stampVerified {endpoint token d e} (h : e.keyPrefix = some (prefixFromEndpoint endpoint)) :
      Touch io (.verifiedEndpoint endpoint token) d e (Edit.stampVerified io.now endpoint)
  | cancelDial {endpoint token d e} (h : isPendingDialFor (prefixFromEndpoint endpoint) e = true) :
      Touch io (.verifiedEndpoint endpoint token) d e
        (Edit.drainToDraining io.now io.systemNow .dedupLoser)
  | drainLoser {endpoint token d e} (h : liveFor (prefixFromEndpoint endpoint) e = true) :
      Touch io (.verifiedEndpoint endpoint token) d e
        (Edit.drainToDraining io.now io.systemNow .dedupLoser)
  | requestUpgrade {endpoint token d e} (hp : e.keyPrefix = some (prefixFromEndpoint endpoint))
      (hfailed : e.l2capUpgradeFailed = false) (h : isUpgradable e.phase = true) :
      Touch io (.verifiedEndpoint endpoint token) d e Edit.requestUpgrade
  | subscribed {d c p e verified} :
      Touch io (.peripheralClientSubscribed d c p) d e
        (Edit.peripheralClientSubscribed io.now c p verified)
  | unsubscribed {d c e} :
      Touch io (.peripheralClientUnsubscribed d c) d e
        (Edit.peripheralClientUnsubscribed io.now io.systemNow c)
  | advertisedSuppressed {p d rssi e} :
      Touch io (.advertised p d rssi) d e (Edit.advertisedSuppressed io.now p)
  | advertised {p d rssi e deferPrefix} :
      Touch io (.advertised p d rssi) d e (Edit.advertised io.now p deferPrefix)
  | sendDatagram {d target txGen datagram waker e} :
      Touch io (.sendDatagram d target txGen datagram waker) d e
        (Edit.sendDatagram io target ⟨txGen, datagram, waker⟩)
  | connectSucceeded {d lifecycleId channel e upgrade}
      (hupgrade : ∀ e, upgrade e = true → e.l2capUpgradeFailed = false) :
      Touch io (.connectSucceeded d lifecycleId channel) d e
        (Edit.connectSucceeded io.now lifecycleId channel upgrade)
  | connectFailed {d lifecycleId error e} :
      Touch io (.connectFailed d lifecycleId error) d e
        (Edit.connectFailed io.now lifecycleId error)
  | fragment {d source bytes e} :
      Touch io (.inboundGattFragment d source bytes) d e (Edit.inboundGattFragment io source bytes)
  | centralDisconnected {d cause e} :
      Touch io (.centralDisconnected d cause) d e
        (Edit.centralDisconnected io.now io.systemNow cause)
  | adapterOff {d e} : Touch io (.adapterStateChanged false) d e (Edit.adapterOff io.now)
  | adapterOn {d e} : Touch io (.adapterStateChanged true) d e (Edit.adapterOn io.now)
  | tick {tickNow d e action} (h : Edit.tickDecision io tickNow e = some action) :
      Touch io (.tick tickNow) d e (Edit.tickApply tickNow io.systemNow action)
  | forget {d e} : Touch io (.forget d) d e (Edit.forget io.now)
  | stalled {d cause e} :
      Touch io (.stalled d cause) d e (Edit.stalled io.now io.systemNow cause)
  | shutdown {d e} : Touch io .shutdown d e Edit.shutdown
  | dataPipeReady {d txGen handles e} :
      Touch io (.dataPipeReady d txGen handles) d e (Edit.dataPipeReady io txGen handles)
  | openL2capSucceeded {d lifecycleId upgradeGen channel e} :
      Touch io (.openL2capSucceeded d lifecycleId upgradeGen channel) d e
        (Edit.openL2capSucceeded io.now lifecycleId upgradeGen channel)
  | openL2capFailed {d lifecycleId upgradeGen error e} :
      Touch io (.openL2capFailed d lifecycleId upgradeGen error) d e
        (Edit.openL2capFailed io.now lifecycleId upgradeGen error)
  | inboundL2capChannel {d channel e} :
      Touch io (.inboundL2capChannel d channel) d e (Edit.inboundL2capChannel io.now channel)
  | protocolVersionMismatch {d lifecycleId got want e} :
      Touch io (.protocolVersionMismatch d lifecycleId got want) d e
        (Edit.protocolVersionMismatch io.now io.systemNow lifecycleId got want)
  | handoverTimeout {d e} : Touch io (.l2capHandoverTimeout d) d e Edit.l2capHandoverTimeout

/-- The functions a command may run on the entry it has just inserted. -/
inductive TouchFresh (io : Io) : PeerCommand → DeviceId → (Edit → Edit) → Prop where
  | fragment {d source bytes} :
      TouchFresh io (.inboundGattFragment d source bytes) d
        (Edit.inboundGattFragmentFresh io.now bytes)
  | inboundL2capChannel {d channel} :
      TouchFresh io (.inboundL2capChannel d channel) d
        (Edit.inboundL2capChannelFresh io.now channel)

/-- One small step of handling `cmd`. -/
inductive Step (io : Io) (cmd : PeerCommand) : Turn → Turn → Prop where
  | edit {t : Turn} {d : DeviceId} {e : PeerEntry} {f : Edit → Edit} (he : t.reg.peer d = some e)
      (hf : Touch io cmd d e f) : Step io cmd t (t.store d (f (t.focus e)))
  | insert {t : Turn} {d : DeviceId} (hcmd : cmd.isTick = false) (hd : t.reg.peer d = none) :
      Step io cmd t (t.insertNew d)
  | fresh {t : Turn} {d : DeviceId} {f : Edit → Edit} (hd : t.reg.peer d = none)
      (hf : TouchFresh io cmd d f) : Step io cmd t ((t.insertNew d).edit d f)
  | verify {t : Turn} (p : KeyPrefix) (endpoint : EndpointId) : Step io cmd t (t.verify p endpoint)
  | prune {t : Turn} : Step io cmd t t.pruneVerifiedPrefixes
  | gcDead {t : Turn} {tickNow : ℕ} (h : cmd = .tick tickNow) : Step io cmd t (t.gcDead tickNow)
  | adapter {t : Turn} (state : BleAdapterState) : Step io cmd t (t.setAdapterState state)
  | restore {t : Turn} (restartL2cap : Bool) :
      Step io cmd t ((t.push (.restorePeripheral restartL2cap)).push .restartScan)

/-- A chain of small steps. -/
abbrev Steps (io : Io) (cmd : PeerCommand) : Turn → Turn → Prop :=
  Relation.ReflTransGen (Step io cmd)

variable {io : Io} {cmd : PeerCommand} {t : Turn}

/-- An edit is one step, or none. -/
theorem Steps.edit {d : DeviceId} {f : Edit → Edit}
    (hf : ∀ e, t.reg.peer d = some e → Touch io cmd d e f) : Steps io cmd t (t.edit d f) := by
  cases he : t.reg.peer d with
  | none =>
      rw [edit_of_none he]
  | some e =>
      rw [edit_of_some he]
      exact .single (.edit he (hf e he))

/-- Making sure of an entry is one step, or none. -/
theorem Steps.ensure (hcmd : cmd.isTick = false) (d : DeviceId) : Steps io cmd t (t.ensure d) := by
  cases hd : t.reg.peer d with
  | none =>
      rw [ensure_of_none hd]
      exact .single (.insert hcmd hd)
  | some e =>
      rw [ensure_of_some hd]

/-- A loop that edits distinct entries: each is still as it was before the loop when
its turn comes. -/
theorem Steps.foldl {α : Type} (dev : α → DeviceId) (f : α → Edit → Edit) (xs : List α)
    (hnodup : (xs.map dev).Nodup)
    (hf : ∀ x ∈ xs, ∀ e, t.reg.peer (dev x) = some e → Touch io cmd (dev x) e (f x)) :
    Steps io cmd t (xs.foldl (fun t x => t.edit (dev x) (f x)) t) := by
  induction xs generalizing t with
  | nil => exact .refl
  | cons x xs ih =>
      rw [List.map_cons, List.nodup_cons] at hnodup
      refine (Steps.edit (hf x (by simp))).trans (ih hnodup.2 ?_)
      intro y hy e he
      have hne : dev y ≠ dev x := by
        intro heq
        exact hnodup.1 (heq ▸ List.mem_map_of_mem hy)
      rw [peer_edit_ne hne] at he
      exact hf y (List.mem_cons_of_mem _ hy) e he

/-- A walk over different devices meets each entry as it was before the walk. -/
theorem Steps.editAll {ds : List DeviceId} {f : Edit → Edit} (hnodup : ds.Nodup)
    (hf : ∀ d ∈ ds, ∀ e, t.reg.peer d = some e → Touch io cmd d e f) :
    Steps io cmd t (t.editAll ds f) := by
  refine Steps.foldl id (fun _ => f) ds ?_ hf
  rw [List.map_id]
  exact hnodup

/-- Editing the entries that satisfy `p`. -/
theorem Steps.editWhere {p : PeerEntry → Bool} {f : Edit → Edit}
    (hf : ∀ d e, p e = true → Touch io cmd d e f) :
    Steps io cmd t (t.editAll (t.devicesWhere p) f) := by
  refine Steps.editAll (nodup_devicesWhere t p) ?_
  intro d hd e he
  rcases mem_devicesWhere hd with ⟨e', he', hp⟩
  obtain rfl : e' = e := Option.some.inj (he'.symm.trans he)
  exact hf d _ hp

/-! ## Every command is a chain of steps -/

section VerifiedEndpoint

variable {endpoint : EndpointId} {token : Option ℕ}

/-- The first pass of `VerifiedEndpoint`: the device the handshake ran over, then every entry of
the prefix. -/
theorem Steps.stampVerified (exact : Option DeviceId) :
    Steps io (.verifiedEndpoint endpoint token) t (t.stampVerified io endpoint exact) := by
  have hall : ∀ t : Turn, Steps io (.verifiedEndpoint endpoint token) t
      (t.editAll (t.devicesWhere fun e => decide (e.keyPrefix = some (prefixFromEndpoint endpoint)))
        (Edit.stampVerified io.now endpoint)) :=
    fun t => Steps.editWhere fun d e hp => .stampVerified (of_decide_eq_true hp)
  cases exact with
  | none => exact hall t
  | some d => exact (Steps.edit fun e _ => Touch.stampExact).trans (hall _)

theorem Steps.cancelPendingDials :
    Steps io (.verifiedEndpoint endpoint token) t
      (t.cancelPendingDials io (prefixFromEndpoint endpoint)) :=
  Steps.editWhere fun _ _ hp => .cancelDial hp

/-- The third pass: the links that lose. -/
theorem Steps.drainLosers :
    Steps io (.verifiedEndpoint endpoint token) t (t.drainLosers io endpoint) := by
  unfold Turn.drainLosers
  dsimp only
  split
  · refine Steps.editAll ((nodup_devicesWhere t _).filter _) ?_
    intro d hd e he
    rcases mem_devicesWhere (List.mem_filter.mp hd).1 with ⟨e', he', hp⟩
    obtain rfl : e' = e := Option.some.inj (he'.symm.trans he)
    exact .drainLoser hp
  · exact .refl

/-- The last pass. -/
theorem Steps.requestUpgrades :
    Steps io (.verifiedEndpoint endpoint token) t (t.requestUpgrades endpoint) := by
  unfold Turn.requestUpgrades
  dsimp only
  split
  · refine Steps.editWhere fun d e hp => ?_
    simp only [Bool.and_eq_true, decide_eq_true_eq] at hp
    exact .requestUpgrade hp.1.1.1 (by simpa using hp.1.1.2) hp.2
  · exact .refl

/-- All passes in a row. -/
theorem handleVerifiedEndpoint_steps (exact : Option DeviceId) :
    Steps io (.verifiedEndpoint endpoint token) t (t.handleVerifiedEndpoint io endpoint exact) := by
  unfold Turn.handleVerifiedEndpoint
  exact (Relation.ReflTransGen.single (.verify _ _)).trans
    ((Steps.stampVerified exact).trans
      (Steps.cancelPendingDials.trans (Steps.drainLosers.trans Steps.requestUpgrades)))

end VerifiedEndpoint

/-- A revived entry gets back the identity it had. -/
theorem restoreVerified_steps (p : KeyPrefix) (resurrected : Option EndpointId) :
    Steps io cmd t (t.restoreVerified p resurrected) := by
  unfold restoreVerified
  split
  · split
    · exact .single (.verify _ _)
    · exact .refl
  · exact .refl

/-- An advertisement is suppressed, or makes sure of the entry and edits it. -/
theorem handleAdvertised_steps {p : KeyPrefix} {d : DeviceId} {rssi : Option Int} :
    Steps io (.advertised p d rssi) t (t.handleAdvertised io p d) := by
  unfold handleAdvertised
  dsimp only
  split
  · exact Steps.edit fun e _ => .advertisedSuppressed
  · exact (Steps.ensure rfl d).trans
      ((Steps.edit fun e _ => .advertised).trans (restoreVerified_steps p _))

/-- Pruning is the registry's own bookkeeping. -/
theorem pruneIfGivenUp_steps (d : DeviceId) (before : Option PeerEntry) :
    Steps io cmd t (t.pruneIfGivenUp d before) := by
  unfold pruneIfGivenUp
  split
  · exact .single .prune
  · exact .refl

/-- The decisions of a tick are made for distinct devices, each from its entry. -/
theorem tickDecisions_nodup (io : Io) (tickNow : ℕ) (t : Turn) :
    ((t.reg.peers.entries.filterMap fun x =>
      (Edit.tickDecision io tickNow x.2).map fun a => (x.1, a)).map Prod.fst).Nodup := by
  rw [List.map_filterMap]
  refine t.reg.peers.keys_nodup.sublist ?_
  have hsub : ∀ l : List (Σ _ : DeviceId, PeerEntry),
      (l.filterMap fun x => Option.map Prod.fst
        ((Edit.tickDecision io tickNow x.2).map fun a => (x.1, a))).Sublist (l.map Sigma.fst) := by
    intro l
    induction l with
    | nil => simp
    | cons x l ih =>
        cases hx : Edit.tickDecision io tickNow x.2 with
        | none => simpa [hx] using ih.cons x.1
        | some a => simpa [hx] using ih
  exact hsub _

/-- What was decided before the tick is carried out on the entry it was decided for. -/
theorem tickDecisions_touch (io : Io) (tickNow : ℕ) (t : Turn) :
    ∀ x ∈ t.reg.peers.entries.filterMap fun x =>
        (Edit.tickDecision io tickNow x.2).map fun a => (x.1, a),
      ∀ e, t.reg.peer x.1 = some e →
        Touch io (.tick tickNow) x.1 e (Edit.tickApply tickNow io.systemNow x.2) := by
  intro x hx e he
  rcases List.mem_filterMap.mp hx with ⟨⟨d, e'⟩, hmem, hdec⟩
  rcases Option.map_eq_some_iff.mp hdec with ⟨a, ha, rfl⟩
  obtain rfl : e' = e := Option.some.inj ((peer_of_mem_entries hmem).symm.trans he)
  exact .tick ha

/-- The decisions one after the other, then the collection of the dead. -/
theorem handleTick_steps {tickNow : ℕ} : Steps io (.tick tickNow) t (t.handleTick io tickNow) := by
  unfold handleTick
  dsimp only
  exact (Steps.foldl Prod.fst (fun x => Edit.tickApply tickNow io.systemNow x.2) _
    (tickDecisions_nodup io tickNow t) (tickDecisions_touch io tickNow t)).trans
    ((Relation.ReflTransGen.single (.gcDead rfl)).tail .prune)

/-- Every entry in turn. -/
theorem handleAdapterStateChanged_steps {powered : Bool} :
    Steps io (.adapterStateChanged powered) t (t.handleAdapterStateChanged io powered) := by
  unfold handleAdapterStateChanged
  cases powered with
  | true =>
      refine (Relation.ReflTransGen.single (.adapter .poweredOn)).trans ?_
      exact (Steps.editAll (AList.keys_nodup _) fun d _ e _ => .adapterOn).tail (.restore _)
  | false =>
      refine (Relation.ReflTransGen.single (.adapter .poweredOff)).trans ?_
      exact Steps.editAll (AList.keys_nodup _) fun d _ e _ => .adapterOff

/-- A session that failed to upgrade is not upgraded again. -/
theorem failed_of_wantsUpgrade (t : Turn) (d : DeviceId) (e : PeerEntry)
    (h : t.wantsUpgrade d e = true) : e.l2capUpgradeFailed = false := by
  unfold wantsUpgrade at h
  split at h
  · cases h
  · split at h
    · cases h
    · simp only [Bool.and_eq_true, Bool.not_eq_true'] at h
      exact h.1.2

/-- Every command is a chain of the steps listed for it. -/
theorem handle_steps (io : Io) (cmd : PeerCommand) (r : Registry) :
    Steps io cmd (start r) (r.handle io cmd) := by
  cases cmd with
  | advertised p d rssi => exact handleAdvertised_steps
  | centralConnected d => exact .refl
  | centralDisconnected d cause =>
      exact (Steps.edit fun e _ => .centralDisconnected).trans (pruneIfGivenUp_steps d _)
  | inboundGattFragment d source bytes =>
      change Steps _ _ _ (Turn.handleInboundGattFragment io d source bytes _)
      -- a device without an entry gets one; otherwise its entry is edited
      unfold handleInboundGattFragment
      split
      · rename_i hd
        rw [ensure_of_none hd]
        exact .single (.fresh hd .fragment)
      · exact Steps.edit fun e _ => .fragment
  | inboundL2capChannel d channel =>
      change Steps _ _ _ (Turn.handleInboundL2capChannel io d channel _)
      unfold handleInboundL2capChannel
      split
      · rename_i hd
        rw [ensure_of_none hd]
        exact .single (.fresh hd .inboundL2capChannel)
      · exact Steps.edit fun e _ => .inboundL2capChannel
  | adapterStateChanged powered => exact handleAdapterStateChanged_steps
  | sendDatagram d target txGen datagram waker =>
      exact (Steps.ensure rfl d).trans (Steps.edit fun e _ => .sendDatagram)
  | tick now => exact handleTick_steps
  | connectSucceeded d lifecycleId channel =>
      exact Steps.edit fun e _ => .connectSucceeded (failed_of_wantsUpgrade _ d)
  | connectFailed d lifecycleId error =>
      exact (Steps.edit fun e _ => .connectFailed).trans (pruneIfGivenUp_steps d _)
  | openL2capSucceeded d lifecycleId upgradeGen channel =>
      exact Steps.edit fun e _ => .openL2capSucceeded
  | openL2capFailed d lifecycleId upgradeGen error => exact Steps.edit fun e _ => .openL2capFailed
  | protocolVersionMismatch d lifecycleId got want =>
      change Steps _ _ _ (Turn.handleProtocolVersionMismatch io d lifecycleId got want _)
      -- an early return takes no step at all
      unfold handleProtocolVersionMismatch
      split
      · exact .refl
      · split
        · exact .refl
        · exact (Steps.edit fun e _ => .protocolVersionMismatch).tail .prune
  | stalled d cause => exact Steps.edit fun e _ => .stalled
  | forget d =>
      change Steps _ _ _ (Turn.handleForget io d _)
      unfold handleForget
      split
      · exact .refl
      · exact (Steps.edit fun e _ => .forget).tail .prune
  | dataPipeReady d txGen handles => exact Steps.edit fun e _ => .dataPipeReady
  | verifiedEndpoint endpoint token => exact handleVerifiedEndpoint_steps none
  | peripheralClientSubscribed d c p =>
      exact (Steps.ensure rfl d).trans (Steps.edit fun e _ => .subscribed)
  | peripheralClientUnsubscribed d c =>
      change Steps _ _ _ (Turn.handlePeripheralClientUnsubscribed io d c _)
      unfold handlePeripheralClientUnsubscribed
      split
      · exact .refl
      · -- the pruning after the edit is skipped if the session goes on
        dsimp only
        split
        · exact Steps.edit fun e _ => .unsubscribed
        · exact (Steps.edit fun e _ => .unsubscribed).tail .prune
  | l2capHandoverTimeout d => exact Steps.edit fun e _ => .handoverTimeout
  | shutdown => exact Steps.editAll (AList.keys_nodup _) fun d _ e _ => .shutdown

/-! ## What is known of the entries of one device -/

section All

variable {t' : Turn} {d : DeviceId} {P : PeerEntry → Prop}

/-- A property of entries that a fresh entry has and every function the command may run keeps. -/
theorem Step.all (h : Step io cmd t t') (hnew : ∀ n, P (newEntry n d))
    (htouch : ∀ f (w : Edit), Touch io cmd d w.entry f → P w.entry → P (f w).entry)
    (hfresh : ∀ f (w : Edit) n, TouchFresh io cmd d f → w.entry = newEntry n d → P (f w).entry)
    (ht : ∀ e, t.reg.peer d = some e → P e) (e : PeerEntry) (he : t'.reg.peer d = some e) :
    P e := by
  cases h with
  -- the entry of this device was edited, or that of another one
  | @edit d₁ e₁ f he₁ hf =>
      rw [peer_store he₁] at he
      split at he
      · rename_i hd
        subst hd
        obtain rfl := Option.some.inj he
        exact htouch f (t.focus e₁) hf (ht e₁ he₁)
      · exact ht e he
  | insert _ hd =>
      rw [peer_insertNew] at he
      split at he
      · rename_i hd
        subst hd
        obtain rfl := Option.some.inj he
        exact hnew _
      · exact ht e he
  -- a new entry, and the function it is made for
  | @fresh d₁ f hd hf =>
      have he₁ := peer_insertNew_self t d₁
      rw [edit_of_some he₁, peer_store he₁, peer_insertNew] at he
      split at he
      · rename_i hd
        subst hd
        obtain rfl := Option.some.inj he
        exact hfresh f _ t.reg.nextLifecycle hf rfl
      · exact ht e he
  | gcDead _ => exact ht e (peer_gcDead he)
  | verify p endpoint => exact ht e he
  | prune => exact ht e he
  | adapter state => exact ht e he
  | restore b => exact ht e he

/-- A property of one entry survives a chain of steps if it holds of fresh entries and survives
every touch. -/
theorem Steps.all (h : Steps io cmd t t') (hnew : ∀ n, P (newEntry n d))
    (htouch : ∀ f (w : Edit), Touch io cmd d w.entry f → P w.entry → P (f w).entry)
    (hfresh : ∀ f (w : Edit) n, TouchFresh io cmd d f → w.entry = newEntry n d → P (f w).entry)
    (ht : ∀ e, t.reg.peer d = some e → P e) : ∀ e, t'.reg.peer d = some e → P e := by
  induction h with
  | refl => exact ht
  | tail _ hs ih => exact hs.all hnew htouch hfresh ih

end All

end Turn

namespace Registry

open Turn

/-- What holds of a new registry and survives a reordering and every small step holds in
every run. -/
theorem run_invariant {Inv : Registry → Prop}
    (hnew : ∀ policy endpoint, Inv (new policy endpoint))
    (hreorder : ∀ r ks, ks.Perm r.peers.keys → Inv r → Inv { r with peers := r.peers.reorder ks })
    (hstep : ∀ io cmd t t', Inv t.reg → Turn.Step io cmd t t' → Inv t'.reg)
    {h : List (Registry × Label)} {r : Registry} (hrun : system.Run h r) : Inv r := by
  refine hrun.invariant_all ?_ ?_
  · rintro r ⟨policy, endpoint, rfl⟩
    exact hnew policy endpoint
  · intro r l r' hr hs
    cases l with
    | reorder ks =>
        change (if _ then some _ else none) = _ at hs
        split at hs
        · rename_i hperm
          obtain rfl := Option.some.inj hs
          exact hreorder r ks hperm hr
        · cases hs
    | command io cmd =>
        obtain rfl := Option.some.inj hs
        have hsteps := handle_steps io cmd r
        generalize handle io cmd r = t at hsteps ⊢
        induction hsteps with
        | refl => exact hr
        | tail _ hstep' ih => exact hstep io cmd _ _ ih hstep'

/-- A property of entries that every fresh entry has and every function a command may
run keeps holds of every entry, in every run. -/
theorem all_of_run {P : PeerEntry → Prop} (hnew : ∀ n d, P (newEntry n d))
    (htouch : ∀ io cmd d f (w : Edit), Touch io cmd d w.entry f → P w.entry → P (f w).entry)
    (hfresh : ∀ io cmd d f (w : Edit) n, TouchFresh io cmd d f → w.entry = newEntry n d →
      P (f w).entry)
    {h : List (Registry × Label)} {r : Registry} (hrun : system.Run h r) :
    ∀ d e, r.peer d = some e → P e := by
  refine @run_invariant (fun r => ∀ d e, r.peer d = some e → P e) ?_ ?_ ?_ h r hrun
  · intro policy endpoint d e he
    cases he
  · intro r ks hperm hr d e he
    exact hr d e ((Map.lookup_reorder hperm d).symm.trans he)
  · intro io cmd t t' ht hs d
    exact hs.all (fun n => hnew n d) (fun f w hf => htouch io cmd d f w hf)
      (fun f w n hf => hfresh io cmd d f w n hf) (ht d)

end Registry

end IrohBle
