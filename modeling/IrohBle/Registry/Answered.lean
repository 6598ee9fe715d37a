import IrohBle.Registry.Books
import IrohBle.Registry.Close

/-! # Registry.Answered: no queued send is dropped silently

A queued send should leave the queue through a pipe's outbound channel, or its sender should
be answered with an `AckSend`. Three handlers only clear the queue: a disconnect while
dialling, the adapter going off, and the collection of tombstones by a tick.

* `accounted_iff`: a command accounts for every queued send exactly if it is none of these, or
  one that finds nothing queued where it clears (`Keeps`).
* `all_accounted_iff`: so does a run.
* `dropped_while_dialling`: a send that was never acknowledged is lost when its dial is cut.
-/

namespace IrohBle

open Lib Reliable Registry

/-- A tombstone that a tick collects. -/
def PeerPhase.isExpired (tickNow : ℕ) : PeerPhase → Bool
  | .dead _ diedAt => decide (tickNow - diedAt > deadGcTtl)
  | _ => false

/-- The sends that wait in any entry. -/
def Registry.queued (r : Registry) : Multiset PendingSend :=
  r.peers.total fun e => (e.pendingSends : Multiset PendingSend)

theorem Registry.mem_queued {r : Registry} {s : PendingSend} :
    s ∈ r.queued ↔ ∃ d e, r.peer d = some e ∧ s ∈ e.pendingSends :=
  Map.mem_total

namespace Turn

/-- The books of the whole registry, as a turn stands. -/
def books (t : Turn) : Books := .of t.reg.queued t.tried t.actions

variable {io : Io} {cmd : PeerCommand} {t t' : Turn}

/-- The books of an entry are part of those of the registry. -/
theorem books_store {d : DeviceId} {e : PeerEntry} (he : t.reg.peer d = some e) :
    ∃ rest, t.books = (t.focus e).books.beside rest ∧
      ∀ w, (t.store d w).books = w.books.beside rest := by
  obtain ⟨rest, htotal, hreplace⟩ :=
    Map.total_replace (fun e : PeerEntry => (e.pendingSends : Multiset PendingSend)) he
  refine ⟨rest, ?_, ?_⟩
  · unfold books
    rw [Registry.queued, htotal]
    rfl
  · intro w
    unfold books
    rw [Registry.queued]
    change Books.of (Map.total _ (AList.replace d w.entry t.reg.peers)) w.tried w.actions = _
    rw [hreplace]
    rfl

/-- A function that settles its entry conserves the books of all. -/
theorem conserves_edit (t : Turn) (d : DeviceId) {f : Edit → Edit}
    (hf : ∀ w : Edit, Settles w (f w)) : Conserves t.books (t.edit d f).books := by
  cases he : t.reg.peer d with
  | none =>
      rw [edit_of_none he]
      exact .refl _
  | some e =>
      obtain ⟨rest, hbefore, hafter⟩ := books_store he
      rw [edit_of_some he, hbefore, hafter]
      exact (hf _).conserves.beside rest

/-- What an entry accounts for, the registry does. -/
theorem accounts_store {d : DeviceId} {e : PeerEntry} {w : Edit} (he : t.reg.peer d = some e)
    (hw : Accounts (t.focus e).books w.books) : Accounts t.books (t.store d w).books := by
  obtain ⟨rest, hbefore, hafter⟩ := books_store he
  rw [hbefore, hafter]
  exact hw.beside rest

/-- A fresh entry has nothing queued. -/
theorem books_insertNew {d : DeviceId} (hd : t.reg.peer d = none) :
    (t.insertNew d).books = t.books := by
  have hq : (t.insertNew d).reg.queued = t.reg.queued := by
    refine (Map.total_insert _ hd _).trans ?_
    simp [newEntry, Registry.queued]
  unfold books
  rw [hq]
  rfl

theorem books_pruneIfGivenUp (t : Turn) (d : DeviceId) (before : Option PeerEntry) :
    (t.pruneIfGivenUp d before).books = t.books := by
  unfold pruneIfGivenUp
  split <;> rfl

/-- What a collection of tombstones throws away. -/
theorem books_gcDead (tickNow : ℕ) (t : Turn) :
    t.books.queued = (t.gcDead tickNow).books.queued +
      (t.reg.peers.retain fun _ e => e.phase.isExpired tickNow).total
        fun e => (e.pendingSends : Multiset PendingSend) := by
  have hkept : (t.gcDead tickNow).reg.peers =
      t.reg.peers.retain fun _ e => !e.phase.isExpired tickNow := by
    unfold gcDead
    dsimp only
    congr 1
    funext _ e
    cases e.phase <;> rfl
  change Map.total _ t.reg.peers = Map.total _ (t.gcDead tickNow).reg.peers + _
  rw [hkept, add_comm]
  exact (Map.total_retain _ _ _).symm

/-! ## What a command finds -/

/-- An entry in which the command clears no queued send. -/
def Spares (cmd : PeerCommand) (e : PeerEntry) : Prop :=
  match cmd with
  | .centralDisconnected _ _ => e.phase.isConnecting = true → e.pendingSends = []
  | .adapterStateChanged false => e.pendingSends = []
  | .tick tickNow => e.phase.isExpired tickNow = true → e.pendingSends = []
  | _ => True

theorem spares_of_empty {e : PeerEntry} (he : e.pendingSends = []) (cmd : PeerCommand) :
    Spares cmd e := by
  unfold Spares
  split
  · exact fun _ => he
  · exact he
  · exact fun _ => he
  · trivial

/-- The functions that offer nothing to a pipe settle the queue of an entry they spare. -/
theorem Touch.settles {d : DeviceId} {f : Edit → Edit} {w : Edit} (hf : Touch io cmd d w.entry f)
    (hs : Spares cmd w.entry) (hcmd : cmd.offers = false) : Settles w (f w) := by
  cases hf with
  | stampExact => exact .quiet rfl rfl rfl rfl
  | stampVerified _ => exact .modify w rfl rfl
  | cancelDial _ => exact .drainToDraining w _ _ _
  | drainLoser _ => exact .drainToDraining w _ _ _
  | requestUpgrade _ _ _ => exact .requestUpgrade w
  | subscribed => exact .peripheralClientSubscribed w _ _ _ _
  | unsubscribed => exact .peripheralClientUnsubscribed w _ _ _
  | advertisedSuppressed => exact .modify w rfl rfl
  | advertised => exact .advertised w _ _ _
  | sendDatagram => cases hcmd
  | connectSucceeded _ => exact .connectSucceeded w _ _ _ _
  | connectFailed => exact .connectFailed w _ _ _
  | fragment => exact .inboundGattFragment w _ _ _
  | centralDisconnected => exact .centralDisconnected w _ _ _ hs
  | adapterOff => exact .adapterOff w _ hs
  | adapterOn => exact .adapterOn w _
  | tick _ => exact .tickApply w _ _ _
  | forget => exact .forget w _
  | stalled => exact .stalled w _ _ _
  | shutdown => exact .shutdown w
  | dataPipeReady => cases hcmd
  | openL2capSucceeded => exact .openL2capSucceeded w _ _ _ _
  | openL2capFailed => exact .openL2capFailed w _ _ _ _
  | inboundL2capChannel => exact .inboundL2capChannel w _ _
  | protocolVersionMismatch => exact .protocolVersionMismatch w _ _ _ _ _
  | handoverTimeout => exact .l2capHandoverTimeout w

/-- The others flush it. -/
theorem Touch.accounts {d : DeviceId} {f : Edit → Edit} {w : Edit} (hf : Touch io cmd d w.entry f)
    (hs : Spares cmd w.entry) : Accounts w.books (f w).books := by
  by_cases hcmd : cmd.offers = false
  · exact (hf.settles hs hcmd).accounts
  · cases hf with
    | sendDatagram => exact .sendDatagram w _ _ _
    | dataPipeReady => exact .dataPipeReady w _ _ _
    | _ => exact absurd rfl hcmd

/-- A function that does not spare an entry clears its queue. -/
theorem Touch.settles_or_clears {d : DeviceId} {f : Edit → Edit} {w : Edit}
    (hf : Touch io cmd d w.entry f) (hcmd : cmd.offers = false) :
    Settles w (f w) ∨ Settles w.cleared (f w) := by
  by_cases hs : Spares cmd w.entry
  · exact .inl (hf.settles hs hcmd)
  · -- only three commands have entries they do not spare
    cases hf with
    | tick _ => exact .inl (.tickApply w _ _ _)
    | adapterOff => exact .inr (.cleared_adapterOff w _)
    | centralDisconnected =>
        by_cases hconnecting : w.entry.phase.isConnecting = true
        · exact .inr (.cleared_centralDisconnected _ _ _ hconnecting)
        · exact absurd (fun h => absurd h hconnecting) hs
    | _ => exact absurd trivial hs

/-- The first function of a fresh entry settles. -/
theorem TouchFresh.settles {d : DeviceId} {f : Edit → Edit} (hf : TouchFresh io cmd d f)
    (w : Edit) : Settles w (f w) := by
  cases hf with
  | fragment => exact (Settles.modify w rfl rfl).trans (.startDataPipe _ _ _ _)
  | inboundL2capChannel => exact (Settles.modify w rfl rfl).trans (.startDataPipe _ _ _ _)

/-- An entry that has just been armed is not collected by this tick. -/
theorem expired_armForDial (w : Edit) (now tickNow : ℕ) (deferPrefix : Option KeyPrefix) :
    (w.armForDial now deferPrefix).entry.phase.isExpired tickNow = false := by
  obtain ⟨phase, _, _, he, hphase⟩ := Edit.armForDial_entry w now deferPrefix
  rw [he]
  rcases hphase with rfl | ⟨p, rfl⟩ | rfl <;> rfl

/-- A tick leaves no tombstone that it would collect itself. -/
theorem expired_tickApply (w : Edit) (tickNow systemNow : ℕ) (action : Edit.TickAction) :
    (w.tickApply tickNow systemNow action).entry.phase.isExpired tickNow = false := by
  have hfresh : (PeerPhase.dead .drained tickNow).isExpired tickNow = false := by
    simp [PeerPhase.isExpired]
  cases action with
  | startConnect attempt => rfl
  | pendingDialExpired => rfl
  | drainingToDead =>
      unfold Edit.tickApply
      dsimp only
      split
      · exact expired_armForDial _ _ _ _
      · exact hfresh
  | restoringToDead => exact hfresh
  | connectedWedged =>
      unfold Edit.tickApply
      simp only [Edit.push_entry, Edit.closeChannel_entry, Edit.drainToDraining_entry]
      rfl

/-- A loop over the entries spares those it has been at. -/
theorem Touch.spares {d : DeviceId} {f : Edit → Edit} {w : Edit} (hf : Touch io cmd d w.entry f)
    (hcmd : ∀ d cause, cmd ≠ .centralDisconnected d cause) : Spares cmd (f w).entry := by
  cases hf with
  | adapterOff => rfl
  | @tick tickNow _ _ action _ =>
      intro hexpired
      rw [expired_tickApply] at hexpired
      cases hexpired
  | centralDisconnected => exact absurd rfl (hcmd _ _)
  | _ => trivial

/-! ## Every command accounts for what it does not clear -/

/-- One step of a command accounts for everything if the entries before it are spared, and spares
those after it. -/
theorem accounts_step (hcmd : ∀ d cause, cmd ≠ .centralDisconnected d cause)
    (hs : ∀ d e, t.reg.peer d = some e → Spares cmd e) (h : Step io cmd t t') :
    Accounts t.books t'.books ∧ ∀ d e, t'.reg.peer d = some e → Spares cmd e := by
  cases h with
  | @edit d e f he hf =>
      refine ⟨accounts_store he (Touch.accounts (w := t.focus e) hf (hs d e he)), ?_⟩
      intro d' e' he'
      rw [peer_store he] at he'
      split at he'
      · obtain rfl := Option.some.inj he'
        exact Touch.spares (w := t.focus e) hf hcmd
      · exact hs d' e' he'
  | @insert d _ hd =>
      rw [books_insertNew hd]
      refine ⟨(Conserves.refl _).accounts, ?_⟩
      intro d' e' he'
      rw [peer_insertNew] at he'
      split at he'
      · obtain rfl := Option.some.inj he'
        exact spares_of_empty rfl cmd
      · exact hs d' e' he'
  | @fresh d f hd hf =>
      -- a new entry has nothing queued
      have he := peer_insertNew_self t d
      have hbooks : Accounts t.books ((t.insertNew d).edit d f).books := by
        rw [← books_insertNew hd, edit_of_some he]
        exact accounts_store he (hf.settles _).accounts
      refine ⟨hbooks, ?_⟩
      intro d' e' _
      cases hf <;> trivial
  | verify p endpoint => exact ⟨(Conserves.refl _).accounts, hs⟩
  | prune => exact ⟨(Conserves.refl _).accounts, hs⟩
  | @gcDead tickNow hcmd' =>
      subst hcmd'
      -- what is collected is spared, so nothing is queued in it
      have hnone : (t.reg.peers.retain fun _ e => e.phase.isExpired tickNow).total
          (fun e => (e.pendingSends : Multiset PendingSend)) = 0 := by
        rw [Multiset.eq_zero_iff_forall_notMem]
        intro s hmem
        obtain ⟨d, e, he, hsend⟩ := Map.mem_total.mp hmem
        obtain ⟨he, hexpired⟩ := (Map.lookup_retain _ _ _ _).mp he
        rw [Multiset.mem_coe, hs d e he hexpired] at hsend
        cases hsend
      have hbooks : Conserves t.books (t.gcDead tickNow).books := by
        refine ⟨0, ?_, rfl, ?_⟩
        · rw [books_gcDead tickNow t, hnone]
        · rw [Multiset.map_zero, add_zero]
          rfl
      exact ⟨hbooks.accounts, fun d e he => hs d e (peer_gcDead he)⟩
  | adapter state => exact ⟨(Conserves.refl _).accounts, hs⟩
  | restore b =>
      refine ⟨Conserves.accounts ⟨0, (add_zero _).symm, rfl, ?_⟩, hs⟩
      have hnone : [PeerAction.restorePeripheral b, .restartScan].filterMap PeerAction.answers? = [] :=
        rfl
      simp [books, Books.of, push, hnone]

/-- All its steps. -/
theorem accounts_steps (hcmd : ∀ d cause, cmd ≠ .centralDisconnected d cause)
    (hs : ∀ d e, t.reg.peer d = some e → Spares cmd e) (h : Steps io cmd t t') :
    Accounts t.books t'.books ∧ ∀ d e, t'.reg.peer d = some e → Spares cmd e := by
  induction h with
  | refl => exact ⟨(Conserves.refl _).accounts, hs⟩
  | tail _ hstep ih =>
      obtain ⟨hacc, hs'⟩ := ih
      obtain ⟨hacc', hs''⟩ := accounts_step hcmd hs' hstep
      exact ⟨hacc.trans hacc', hs''⟩

/-! ## What a command that clears throws away -/

/-- An edit that clears the queue. -/
theorem nothing_cleared {d : DeviceId} {e : PeerEntry} {w : Edit} (he : t.reg.peer d = some e)
    (hw : Settles (t.focus e).cleared w) (h : Accounts t.books (t.store d w).books) :
    e.pendingSends = [] := by
  obtain ⟨hq, hacc, hans⟩ := hw.of_cleared
  obtain ⟨rest, hbefore, hafter⟩ := books_store he
  rw [hbefore, hafter] at h
  have hlost : ((t.focus e).books.beside rest).queued = (w.books.beside rest).queued +
      e.pendingSends := by
    change (e.pendingSends : Multiset PendingSend) + rest = ↑w.entry.pendingSends + rest + _
    rw [hq, add_comm, Multiset.coe_nil, zero_add]
  have hnone := Accounts.nothing_lost (.refl _) hlost hacc hans h
  exact (Multiset.coe_eq_zero _).mp hnone

/-- Switching the adapter off answers nobody. -/
theorem adapterOff_books (now : ℕ) (ds : List DeviceId) (t : Turn) :
    (t.editAll ds (Edit.adapterOff now)).books.accepted = t.books.accepted ∧
      (t.editAll ds (Edit.adapterOff now)).books.answered = t.books.answered := by
  unfold editAll
  induction ds generalizing t with
  | nil => exact ⟨rfl, rfl⟩
  | cons d ds ih =>
      rw [List.foldl_cons]
      obtain ⟨hacc, hans⟩ := ih (t.edit d (Edit.adapterOff now))
      have hedit : (t.edit d (Edit.adapterOff now)).books.accepted = t.books.accepted ∧
          (t.edit d (Edit.adapterOff now)).books.answered = t.books.answered := by
        cases he : t.reg.peer d with
        | none =>
            rw [edit_of_none he]
            exact ⟨rfl, rfl⟩
        | some e =>
            rw [edit_of_some he]
            obtain ⟨-, hacc, hans⟩ := (Settles.cleared_adapterOff (t.focus e) now).of_cleared
            exact ⟨hacc, hans⟩
      exact ⟨hacc.trans hedit.1, hans.trans hedit.2⟩

/-- Nothing is queued once the adapter is off. -/
theorem adapterOff_queued (now : ℕ) (t : Turn) :
    (t.editAll t.reg.peers.keys (Edit.adapterOff now)).reg.queued = 0 := by
  rw [Multiset.eq_zero_iff_forall_notMem]
  intro s hmem
  obtain ⟨d, e', he', hsend⟩ := Registry.mem_queued.mp hmem
  by_cases hd : d ∈ t.reg.peers.keys
  · obtain ⟨e, he⟩ := Option.isSome_iff_exists.mp (AList.lookup_isSome.mpr (AList.mem_keys.mpr hd))
    obtain ⟨w, -, hw⟩ := peer_editAll_mem (t := t) (f := Edit.adapterOff now)
      t.reg.peers.keys_nodup hd he
    obtain rfl := Option.some.inj (he'.symm.trans hw)
    cases hsend
  · rw [peer_editAll_ne hd] at he'
    exact hd (AList.mem_keys.mp (AList.lookup_isSome.mp (Option.isSome_iff_exists.mpr ⟨e', he'⟩)))

/-- What falls due in a tick settles, before the dead are collected. -/
theorem conserves_tickLoop (tickNow systemNow : ℕ) (xs : List (DeviceId × Edit.TickAction))
    (t : Turn) : Conserves t.books
      (xs.foldl (fun t x => t.edit x.1 (Edit.tickApply tickNow systemNow x.2)) t).books := by
  induction xs generalizing t with
  | nil => exact .refl _
  | cons x xs ih =>
      rw [List.foldl_cons]
      exact (conserves_edit t x.1 fun w => .tickApply w _ _ _).trans (ih _)

end Turn

namespace Registry

open Turn

variable {r : Registry} {io : Io} {cmd : PeerCommand}

/-- Every send queued before the command is still queued, has gone into an outbound channel or is
answered by an action, counted one by one. -/
def Accounted (r : Registry) (io : Io) (cmd : PeerCommand) : Prop :=
  ∃ taken told : Multiset PendingSend, r.queued ≤ (r.handle io cmd).reg.queued + taken + told ∧
    taken ≤ ((r.handle io cmd).tried.filterMap TrySend.accepted? : List PendingSend) ∧
    told.map PendingSend.sender ≤
      ((r.handle io cmd).actions.filterMap PeerAction.answers? : List (ℕ × Waker))

/-- Nothing is queued where the command clears a queue: in the entry of a device that
disconnects while it is dialled, in any entry when the adapter goes off, in a tombstone that a
tick collects. -/
def Keeps (r : Registry) : PeerCommand → Prop
  | .centralDisconnected d _ =>
    ∀ e, r.peer d = some e → e.phase.isConnecting = true → e.pendingSends = []
  | .adapterStateChanged false => ∀ d e, r.peer d = some e → e.pendingSends = []
  | .tick tickNow =>
    ∀ d e, r.peer d = some e → e.phase.isExpired tickNow = true → e.pendingSends = []
  | _ => True

/-- Accounting for every send is balancing the books. -/
theorem accounted_iff_accounts :
    r.Accounted io cmd ↔ Accounts (start r).books (r.handle io cmd).books := by
  unfold Accounted Accounts
  have hstart : (start r).books = ⟨r.queued, 0, 0⟩ := rfl
  simp only [hstart, zero_add]
  rfl

/-- A command that drops no send balances them. -/
theorem accounts_handle (h : r.Keeps cmd) : Accounts (start r).books (r.handle io cmd).books := by
  by_cases hcmd : ∃ d cause, cmd = .centralDisconnected d cause
  · obtain ⟨d, cause, rfl⟩ := hcmd
    change Accounts _ ((start r).handleCentralDisconnected io d cause).books
    rw [handleCentralDisconnected]
    rw [books_pruneIfGivenUp]
    cases he : (start r).reg.peer d with
    | none =>
        rw [edit_of_none he]
        exact (Conserves.refl _).accounts
    | some e =>
        rw [edit_of_some he]
        exact accounts_store he (Settles.centralDisconnected _ _ _ _ (h e he)).accounts
  · have hne : ∀ d cause, cmd ≠ .centralDisconnected d cause :=
      fun d cause heq => hcmd ⟨d, cause, heq⟩
    refine (accounts_steps hne ?_ (handle_steps io cmd r)).1
    intro d e he
    unfold Spares
    split
    · exact absurd rfl (hne _ _)
    · exact h d e he
    · exact h d e he
    · trivial

/-- A disconnect that balances the books found nothing queued at the dial it cuts. -/
theorem empty_of_disconnected {d : DeviceId} {cause : DisconnectCause} {e : PeerEntry}
    (h : Accounts (start r).books (r.handle io (.centralDisconnected d cause)).books)
    (he : r.peer d = some e) (hconnecting : e.phase.isConnecting = true) : e.pendingSends = [] := by
  change Accounts _ ((start r).handleCentralDisconnected io d cause).books at h
  rw [handleCentralDisconnected, books_pruneIfGivenUp, edit_of_some he] at h
  exact nothing_cleared he (Settles.cleared_centralDisconnected _ _ _ hconnecting) h

theorem empty_of_queued {d : DeviceId} {e : PeerEntry} (h : r.queued = 0) (he : r.peer d = some e) :
    e.pendingSends = [] := by
  rw [List.eq_nil_iff_forall_not_mem]
  intro s hs
  have hmem : s ∈ r.queued := mem_queued.mpr ⟨d, e, he, hs⟩
  rw [h] at hmem
  exact Multiset.notMem_zero s hmem

/-- Whether anything is queued can be read off the entries. -/
theorem queued_eq_zero (h : r.peers.values.all (fun e => e.pendingSends.isEmpty) = true) :
    r.queued = 0 := by
  rw [Multiset.eq_zero_iff_forall_notMem]
  intro s hs
  obtain ⟨d, e, he, hmem⟩ := mem_queued.mp hs
  have hnil := List.all_eq_true.mp h e ((Map.mem_values_iff _ _).mpr ⟨d, he⟩)
  rw [List.isEmpty_iff.mp hnil] at hmem
  cases hmem

/-- The adapter that goes off without dropping a send found none. -/
theorem empty_of_adapterOff {d : DeviceId} {e : PeerEntry}
    (h : Accounts (start r).books (r.handle io (.adapterStateChanged false)).books)
    (he : r.peer d = some e) : e.pendingSends = [] := by
  change Accounts _ (((start r).setAdapterState .poweredOff).editAll r.peers.keys
    (Edit.adapterOff io.now)).books at h
  have hoff := adapterOff_books io.now r.peers.keys ((start r).setAdapterState .poweredOff)
  have hcleared := adapterOff_queued io.now ((start r).setAdapterState .poweredOff)
  have hlost : (start r).books.queued = (((start r).setAdapterState .poweredOff).editAll
      r.peers.keys (Edit.adapterOff io.now)).books.queued + r.queued := by
    refine (zero_add _).symm.trans ?_
    rw [← hcleared]
    rfl
  exact empty_of_queued (Accounts.nothing_lost (.refl _) hlost hoff.1 hoff.2 h) he

/-- A tick that drops no send collects no tombstone with one. -/
theorem empty_of_tick {tickNow : ℕ} {d : DeviceId} {e : PeerEntry}
    (h : Accounts (start r).books (r.handle io (.tick tickNow)).books)
    (he : r.peer d = some e) (hexpired : e.phase.isExpired tickNow = true) :
    e.pendingSends = [] := by
  have hdecision : Edit.tickDecision io tickNow e = none := by
    unfold Edit.tickDecision
    cases hp : e.phase with
    | dead reason diedAt => rfl
    | _ => simp [hp, PeerPhase.isExpired] at hexpired
  have hstays := peer_tickLoop (t := start r) he hdecision
  have hloop := conserves_tickLoop tickNow io.systemNow
    ((start r).reg.peers.entries.filterMap fun x =>
      (Edit.tickDecision io tickNow x.2).map fun a => (x.1, a)) (start r)
  change Accounts _ ((start r).handleTick io tickNow).books at h
  unfold handleTick at h
  dsimp only at h hstays
  generalize List.foldl _ (start r) _ = t₁ at h hloop hstays
  -- the tombstone is as it was when the collection comes to it
  have hnone := Accounts.nothing_lost hloop (books_gcDead tickNow t₁) rfl rfl h
  rw [List.eq_nil_iff_forall_not_mem]
  intro s hs
  have hmem : s ∈ (t₁.reg.peers.retain fun _ e => e.phase.isExpired tickNow).total
      fun e => (e.pendingSends : Multiset PendingSend) :=
    Map.mem_total.mpr ⟨d, e, (Map.lookup_retain _ _ _ _).mpr ⟨hstays, hexpired⟩, hs⟩
  rw [hnone] at hmem
  exact Multiset.notMem_zero s hmem

/-- A command accounts for every queued send exactly if it clears no queue that holds one. -/
theorem accounted_iff (r : Registry) (io : Io) (cmd : PeerCommand) :
    r.Accounted io cmd ↔ r.Keeps cmd := by
  rw [accounted_iff_accounts]
  constructor
  · intro h
    unfold Keeps
    split
    · exact fun e he hconnecting => empty_of_disconnected h he hconnecting
    · exact fun d e he => empty_of_adapterOff h he
    · exact fun d e he hexpired => empty_of_tick h he hexpired
    · trivial
  · exact accounts_handle

/-- What has left the queues was taken or answered. -/
theorem Accounted.of_gone (h : r.Accounted io cmd) {d : DeviceId} {e : PeerEntry} {s : PendingSend}
    (he : r.peer d = some e) (hs : s ∈ e.pendingSends)
    (hgone : ∀ d' e', (r.handle io cmd).reg.peer d' = some e' → s ∉ e'.pendingSends) :
    (∃ tx, .outbound tx s .ok ∈ (r.handle io cmd).tried) ∨
      ∃ result, .ackSend s.txGen s.waker result ∈ (r.handle io cmd).actions := by
  obtain ⟨taken, told, hle, htaken, htold⟩ := h
  have hmem := Multiset.mem_of_le hle (mem_queued.mpr ⟨d, e, he, hs⟩)
  rw [Multiset.mem_add, Multiset.mem_add] at hmem
  rcases hmem with (hqueued | hmem) | hmem
  · obtain ⟨d', e', he', hs'⟩ := mem_queued.mp hqueued
    exact absurd hs' (hgone d' e' he')
  · left
    obtain ⟨x, hx, hs⟩ := List.mem_filterMap.mp (Multiset.mem_coe.mp (Multiset.mem_of_le htaken hmem))
    obtain ⟨tx, rfl⟩ := TrySend.eq_of_accepted hs
    exact ⟨tx, hx⟩
  · right
    have hsender := Multiset.mem_of_le htold (Multiset.mem_map_of_mem PendingSend.sender hmem)
    obtain ⟨a, ha, hs⟩ := List.mem_filterMap.mp (Multiset.mem_coe.mp hsender)
    obtain ⟨result, rfl⟩ := PeerAction.eq_of_answers hs
    exact ⟨result, ha⟩

/-! ## Runs -/

/-- The same of a step of a run. -/
def AccountedAt (r : Registry) : Label → Prop
  | .reorder _ => True
  | .command io cmd => r.Accounted io cmd

/-- The condition, for a step of a run. -/
def KeepsAt (r : Registry) : Label → Prop
  | .reorder _ => True
  | .command _ cmd => r.Keeps cmd

/-- A run loses no queued send exactly if none of its commands clears a queue that holds one. -/
theorem all_accounted_iff {h : List (Registry × Label)} {r : Registry} (hrun : system.Run h r) :
    System.Meets AccountedAt h ↔ System.Meets KeepsAt h := by
  rw [← System.along_iff_meets, ← System.along_iff_meets]
  refine hrun.along_congr ?_
  intro _ r l _
  cases l with
  | reorder ks => exact Iff.rfl
  | command io cmd => exact accounted_iff r io cmd

/-- A datagram is queued, its dial succeeds, and the pipe takes it; another waits for the next
dial and is answered when the peer is forgotten. -/
def keptRun : List Label :=
  dialRun ++ [.command (ioAt 2) (.connectSucceeded "peer" 2 ⟨5, .gatt⟩),
    .command (ioAt 3) (.dataPipeReady "peer" 1 ⟨1, 2, 3, 4⟩),
    .command (ioAt 4) (.stalled "peer" .localClose),
    .command (ioAt 5) (.sendDatagram "peer" none 1 [2] 1),
    .command (ioAt 6) (.forget "peer")]

/-- On a run: a send that is answered when its device is forgotten. -/
theorem all_accounted_iff_keptRun : ∃ h r, system.Run h r ∧ h.map Prod.snd = keptRun ∧
    r.queued = 0 ∧ System.Meets AccountedAt h := by
  obtain ⟨h, r, hrun, hl, hempty⟩ := System.Run.of_exec
    (P := fun r : Registry => r.peers.values.all (fun e => e.pendingSends.isEmpty) = true)
    keptRun (init_new .disabled localEndpoint) (by decide +kernel)
  refine ⟨h, r, hrun, hl, queued_eq_zero hempty, (all_accounted_iff hrun).mpr ?_⟩
  intro x hx
  have hlabel : x.2 ∈ keptRun := by
    rw [← hl]
    exact List.mem_map_of_mem hx
  simp only [keptRun, dialRun, List.mem_append, List.mem_cons, List.not_mem_nil, or_false]
    at hlabel
  rcases hlabel with (h | h) | h | h | h | h | h <;> rw [h] <;> trivial

/-- The datagram that started a dial has not been acknowledged. The link goes down before the dial
succeeds, and the datagram is gone. -/
theorem dropped_while_dialling : ∃ h r e, system.Run h r ∧ h.map Prod.snd = dialRun ∧
    r.peer "peer" = some e ∧ ⟨0, [1], 0⟩ ∈ e.pendingSends ∧
    (∀ d e', (r.handle (ioAt 2) (.centralDisconnected "peer" .timeout)).reg.peer d = some e' →
      ⟨0, [1], 0⟩ ∉ e'.pendingSends) ∧
    (r.handle (ioAt 2) (.centralDisconnected "peer" .timeout)).tried = [] ∧
    (∀ result, .ackSend 0 0 result ∉
      (r.handle (ioAt 2) (.centralDisconnected "peer" .timeout)).actions) ∧
    ¬ r.Accounted (ioAt 2) (.centralDisconnected "peer" .timeout) := by
  obtain ⟨h, r, hrun, hl, hbefore, hafter, htried, hactions⟩ := System.Run.of_exec
    (P := fun r : Registry =>
      (r.peer "peer").map PeerEntry.pendingSends = some [⟨0, [1], 0⟩] ∧
      (r.handle (ioAt 2) (.centralDisconnected "peer" .timeout)).reg.peers.values.all
        (fun e => e.pendingSends.isEmpty) = true ∧
      (r.handle (ioAt 2) (.centralDisconnected "peer" .timeout)).tried = [] ∧
      (r.handle (ioAt 2) (.centralDisconnected "peer" .timeout)).actions =
        [.retireLifecycle "peer" 2, .emitMetric "connect_failed:Timeout"])
    dialRun (init_new .disabled localEndpoint) (by decide +kernel)
  -- the datagram waits in the entry
  obtain ⟨e, he, hqueue⟩ := Option.map_eq_some_iff.mp hbefore
  have hs : ⟨0, [1], 0⟩ ∈ e.pendingSends := by
    rw [hqueue]
    exact List.mem_cons_self
  -- and no entry has it any more, nor has it been tried or acknowledged
  have hgone : ∀ d e', (r.handle (ioAt 2) (.centralDisconnected "peer" .timeout)).reg.peer d =
      some e' → ⟨0, [1], 0⟩ ∉ e'.pendingSends := by
    intro d e' he' hmem
    rw [empty_of_queued (queued_eq_zero hafter) he'] at hmem
    cases hmem
  have hunanswered : ∀ result, .ackSend 0 0 result ∉
      (r.handle (ioAt 2) (.centralDisconnected "peer" .timeout)).actions := by
    intro result hmem
    rw [hactions] at hmem
    simp at hmem
  refine ⟨h, r, e, hrun, hl, he, hs, hgone, htried, hunanswered, ?_⟩
  intro hacc
  rcases hacc.of_gone he hs hgone with ⟨tx, hmem⟩ | ⟨result, hmem⟩
  · rw [htried] at hmem
    cases hmem
  · exact hunanswered result hmem

end Registry

end IrohBle
