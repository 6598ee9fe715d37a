import IrohBle.Registry.Ledger
import IrohBle.Registry.Phases
import IrohBle.Registry.SingleLive

/-! # Registry.Identity: who a peer is believed to be, and what that allows

A prefix is read from an advertisement that anybody can send. The registry takes it for an endpoint
only once a handshake has proven that endpoint, and asks for an L2CAP channel only where it has.

* `Proven`: every identity that is kept, in an entry or beside the entries, was proven.
* `Requested`: the entry for which an upgrade has just been asked for.
* `upgrade_authenticated`: both along every run.
-/

namespace IrohBle

open Lib Reliable Registry

/-- What an entry knows its peer by. -/
def PeerEntry.identity (e : PeerEntry) : Option KeyPrefix × Option EndpointId :=
  (e.keyPrefix, e.verifiedEndpoint)

namespace Turn

variable {io : Io} {cmd : PeerCommand} {d : DeviceId} {w : Edit} {t t' : Turn}

/-! ## Identities kept in the entries -/

/-- A dial says nothing about who the peer is. -/
theorem identity_armForDial (w : Edit) (now : ℕ) (deferPrefix : Option KeyPrefix) :
    (w.armForDial now deferPrefix).entry.identity = w.entry.identity := by
  obtain ⟨_, _, _, hentry, -⟩ := Edit.armForDial_entry w now deferPrefix
  rw [hentry]
  rfl

theorem identity_dialFailed (w : Edit) (now attempt : ℕ) (metric : String)
    (reason : DisconnectReason) :
    (w.dialFailed now attempt metric reason).entry.identity = w.entry.identity := by
  rw [Edit.dialFailed_entry]
  split <;> rfl

theorem identity_setUpgrading (w : Edit) (upgrading : Bool) :
    (w.setUpgrading upgrading).entry.identity = w.entry.identity := by
  obtain ⟨_, hentry, -⟩ := Edit.setUpgrading_entry w upgrading
  rw [hentry]
  rfl

theorem identity_setPath (w : Edit) (path : ConnectPath) :
    (w.setPath path).entry.identity = w.entry.identity := by
  obtain ⟨_, hentry, -⟩ := Edit.setPath_entry w path
  rw [hentry]
  rfl

theorem identity_drain (w : Edit) (now systemNow : ℕ) (reason : DisconnectReason) :
    (w.drainToDraining now systemNow reason).entry.identity = w.entry.identity := by
  rw [Edit.drainToDraining_entry]
  rfl

/-- A subscription tells what is known of its prefix. -/
theorem verifiedEndpoint_subscribed (w : Edit) (now : ℕ) (c : Uuid) (p : Option KeyPrefix)
    (verified : Option EndpointId) :
    (w.peripheralClientSubscribed now c p verified).entry.verifiedEndpoint =
        w.entry.verifiedEndpoint ∨
      (w.peripheralClientSubscribed now c p verified).entry.verifiedEndpoint = verified := by
  have hnote : (w.noteSubscriber now c p verified).entry.verifiedEndpoint =
        w.entry.verifiedEndpoint ∨
      (w.noteSubscriber now c p verified).entry.verifiedEndpoint = verified := by
    unfold Edit.noteSubscriber
    cases verified with
    | none => cases p <;> exact .inl rfl
    | some endpoint =>
        cases p <;> dsimp only <;> split <;> first | exact .inr rfl | exact .inl rfl
  unfold Edit.peripheralClientSubscribed
  dsimp only
  split
  · split <;> exact hnote
  · exact hnote
  · exact hnote
  · exact hnote

/-- It tells the prefix, if it comes with one. -/
theorem keyPrefix_subscribed (w : Edit) (now : ℕ) (c : Uuid) (p : Option KeyPrefix)
    (verified : Option EndpointId) :
    (w.peripheralClientSubscribed now c p verified).entry.keyPrefix = p.or w.entry.keyPrefix := by
  have hnote : (w.noteSubscriber now c p verified).entry.keyPrefix = p.or w.entry.keyPrefix := by
    unfold Edit.noteSubscriber
    cases verified with
    | none => cases p <;> rfl
    | some endpoint => cases p <;> dsimp only <;> split <;> rfl
  unfold Edit.peripheralClientSubscribed
  dsimp only
  split
  · split <;> exact hnote
  · exact hnote
  · exact hnote
  · exact hnote

/-- Only a handshake, a subscription and an advertisement tell who a peer is. -/
theorem Touch.identity {f : Edit → Edit} (hf : Touch io cmd d w.entry f) :
    (f w).entry.identity = w.entry.identity ∨
      (∃ endpoint token, cmd = .verifiedEndpoint endpoint token ∧
        (f w).entry.identity = ⟨some (prefixFromEndpoint endpoint), some endpoint⟩) ∨
      (∃ c p, cmd = .peripheralClientSubscribed d c p ∧
        (f w).entry.keyPrefix = p.or w.entry.keyPrefix) ∨
      ∃ p rssi, cmd = .advertised p d rssi ∧
        (f w).entry.identity = ⟨some p, w.entry.verifiedEndpoint⟩ := by
  cases hf with
  | stampExact => exact .inr (.inl ⟨_, _, rfl, rfl⟩)
  | @stampVerified endpoint token _ _ hkey =>
      refine .inr (.inl ⟨endpoint, token, rfl, ?_⟩)
      exact congrArg (fun p => (p, some endpoint)) hkey
  -- the client's prefix is the one that the pump has read off the hints
  | subscribed => exact .inr (.inr (.inl ⟨_, _, rfl, keyPrefix_subscribed _ _ _ _ _⟩))
  | cancelDial _ => exact .inl (identity_drain _ _ _ _)
  | drainLoser _ => exact .inl (identity_drain _ _ _ _)
  | requestUpgrade _ _ _ => exact .inl (identity_setUpgrading _ _)
  | unsubscribed =>
      refine .inl ?_
      unfold Edit.peripheralClientUnsubscribed
      dsimp only
      split
      · rfl
      · exact identity_drain _ _ _ _
  | advertisedSuppressed => exact .inr (.inr (.inr ⟨_, _, rfl, rfl⟩))
  | advertised =>
      -- an advertisement gives the entry the prefix it carries, and whatever it starts keeps it
      refine .inr (.inr (.inr ⟨_, _, rfl, ?_⟩))
      unfold Edit.advertised
      dsimp only
      split
      · exact identity_armForDial _ _ _
      · split
        · rfl
        · exact identity_armForDial _ _ _
      · exact identity_armForDial _ _ _
      · exact identity_armForDial _ _ _
      · split <;> rfl
      · rfl
  | @sendDatagram _ target txGen datagram waker =>
      refine .inl ?_
      unfold Edit.sendDatagram
      split
      · obtain ⟨_, _, hentry, -⟩ := Edit.enqueue_entry w io ⟨txGen, datagram, waker⟩
        rw [hentry]
        rfl
      · rfl
      · rfl
      · rfl
  | connectSucceeded _ =>
      refine .inl ?_
      unfold Edit.connectSucceeded
      split
      · rfl
      · dsimp only
        split
        · exact identity_setUpgrading _ _
        · rfl
  | connectFailed =>
      refine .inl ?_
      unfold Edit.connectFailed
      split
      · rfl
      · split
        · exact identity_dialFailed _ _ _ _ _
        · rfl
  | fragment =>
      refine .inl ?_
      unfold Edit.inboundGattFragment
      dsimp only
      split
      · rfl
      · split
        · rfl
        · split <;> rfl
      · rfl
      · unfold Edit.reviveByFragment
        dsimp only
        split <;> rfl
  | centralDisconnected =>
      refine .inl ?_
      unfold Edit.centralDisconnected
      dsimp only
      split
      · rw [Edit.refreshOn133_entry]
        exact identity_dialFailed _ _ _ _ _
      · split
        · exact identity_armForDial _ _ _
        · rw [Edit.refreshOn133_entry]
          exact identity_drain _ _ _ _
      · rw [Edit.refreshOn133_entry, Edit.closeChannel_entry]
        exact identity_drain _ _ _ _
  | adapterOff => exact .inl rfl
  | adapterOn =>
      refine .inl ?_
      unfold Edit.adapterOn
      split <;> rfl
  | @tick _ _ _ action _ =>
      refine .inl ?_
      unfold Edit.tickApply
      cases action with
      | startConnect attempt => rfl
      | pendingDialExpired => rfl
      | drainingToDead =>
          dsimp only
          split
          · exact identity_armForDial _ _ _
          · rfl
      | restoringToDead => rfl
      | connectedWedged =>
          dsimp only
          rw [Edit.push_entry, Edit.closeChannel_entry]
          exact identity_drain _ _ _ _
  | forget =>
      refine .inl ?_
      unfold Edit.forget
      dsimp only
      rw [Edit.closeChannel_entry]
      rfl
  | stalled =>
      refine .inl ?_
      unfold Edit.stalled
      split
      · dsimp only
        rw [Edit.closeChannel_entry, Edit.modify_entry, Edit.drainToDraining_entry]
        rfl
      · rfl
  | shutdown => exact .inl rfl
  | @dataPipeReady _ txGen handles _ =>
      refine .inl ?_
      -- a pipe of another generation is ignored
      by_cases hgen : w.entry.txGen = txGen
      · obtain ⟨_, _, hentry⟩ := Edit.dataPipeReady_entry w io txGen handles hgen
        rw [hentry]
        rfl
      · unfold Edit.dataPipeReady
        rw [if_pos hgen]
  | openL2capSucceeded =>
      refine .inl ?_
      unfold Edit.openL2capSucceeded
      split
      · rfl
      · split
        · rfl
        · split
          · exact identity_setPath _ _
          · exact identity_setUpgrading _ _
        · rfl
  | openL2capFailed =>
      refine .inl ?_
      unfold Edit.openL2capFailed
      split
      · rfl
      · split
        · rfl
        · exact identity_setUpgrading _ _
        · rfl
  | inboundL2capChannel =>
      refine .inl ?_
      unfold Edit.inboundL2capChannel
      split
      · split
        · rfl
        · exact identity_setPath _ _
        · rfl
      · rfl
  | protocolVersionMismatch =>
      refine .inl ?_
      unfold Edit.protocolVersionMismatch
      split
      · rfl
      · dsimp only
        rw [Edit.closeChannel_entry, Edit.setPhase_entry, Edit.modify_entry,
          Edit.drainToDraining_entry]
        rfl
  | handoverTimeout => exact .inl (identity_setPath _ _)

/-! ## Identities kept beside the entries -/

/-- No prefix is taken for an endpoint anew. -/
def VerifiesNone (t t' : Turn) : Prop :=
  ∀ p endpoint, t'.reg.verifiedPrefixes.lookup p = some endpoint →
    t.reg.verifiedPrefixes.lookup p = some endpoint

theorem VerifiesNone.refl (t : Turn) : VerifiesNone t t := fun _ _ h => h

theorem VerifiesNone.trans {t₁ : Turn} (h : VerifiesNone t t₁) (h' : VerifiesNone t₁ t') :
    VerifiesNone t t' := fun p endpoint hp => h p endpoint (h' p endpoint hp)

/-- The prefixes are as they were. -/
theorem VerifiesNone.of_eq (h : t'.reg.verifiedPrefixes = t.reg.verifiedPrefixes) :
    VerifiesNone t t' := by
  intro p endpoint hp
  rw [h] at hp
  exact hp

theorem verifiedPrefixes_edit (t : Turn) (d : DeviceId) (f : Edit → Edit) :
    (t.edit d f).reg.verifiedPrefixes = t.reg.verifiedPrefixes := by
  unfold edit
  split <;> rfl

theorem verifiedPrefixes_ensure (t : Turn) (d : DeviceId) :
    (t.ensure d).reg.verifiedPrefixes = t.reg.verifiedPrefixes := by
  unfold ensure
  split <;> rfl

theorem verifiedPrefixes_foldl {α : Type} (dev : α → DeviceId) (f : α → Edit → Edit)
    (xs : List α) (t : Turn) :
    (xs.foldl (fun t x => t.edit (dev x) (f x)) t).reg.verifiedPrefixes =
      t.reg.verifiedPrefixes := by
  induction xs generalizing t with
  | nil => rfl
  | cons x xs ih => exact (ih _).trans (verifiedPrefixes_edit t _ _)

theorem verifiedPrefixes_editAll (t : Turn) (ds : List DeviceId) (f : Edit → Edit) :
    (t.editAll ds f).reg.verifiedPrefixes = t.reg.verifiedPrefixes :=
  verifiedPrefixes_foldl id (fun _ => f) ds t

/-- Of the steps of a handshake only the first writes a prefix. -/
theorem verifiedPrefixes_handleVerifiedEndpoint (io : Io) (endpoint : EndpointId)
    (exact : Option DeviceId) (t : Turn) :
    (t.handleVerifiedEndpoint io endpoint exact).reg.verifiedPrefixes =
      t.reg.verifiedPrefixes.insert (prefixFromEndpoint endpoint) endpoint := by
  -- the passes of a handshake edit entries, not the table of prefixes
  have hupgrades : ∀ t : Turn,
      (t.requestUpgrades endpoint).reg.verifiedPrefixes = t.reg.verifiedPrefixes := by
    intro t
    unfold requestUpgrades
    split
    · exact verifiedPrefixes_editAll _ _ _
    · rfl
  have hlosers : ∀ t : Turn,
      (t.drainLosers io endpoint).reg.verifiedPrefixes = t.reg.verifiedPrefixes := by
    intro t
    unfold drainLosers
    dsimp only
    split
    · exact verifiedPrefixes_editAll _ _ _
    · rfl
  have hstamps : ∀ t : Turn,
      (t.stampVerified io endpoint exact).reg.verifiedPrefixes = t.reg.verifiedPrefixes := by
    intro t
    unfold stampVerified
    dsimp only
    rw [verifiedPrefixes_editAll]
    split
    · exact verifiedPrefixes_edit _ _ _
    · rfl
  unfold handleVerifiedEndpoint cancelPendingDials
  rw [hupgrades, hlosers, verifiedPrefixes_editAll, hstamps]
  rfl

/-- What an advertisement writes, it brings back from the entry of the device. -/
theorem verifiedPrefixes_handleAdvertised {io : Io} {q p : KeyPrefix} {d : DeviceId} {t : Turn}
    {endpoint : EndpointId}
    (hp : (t.handleAdvertised io q d).reg.verifiedPrefixes.lookup p = some endpoint) :
    t.reg.verifiedPrefixes.lookup p = some endpoint ∨ prefixFromEndpoint endpoint = p ∧
      ∃ e, (t.ensure d).reg.peer d = some e ∧ e.verifiedEndpoint = some endpoint := by
  -- so does the edit of an advertisement
  have hedit : ∀ f, ((t.ensure d).edit d f).reg.verifiedPrefixes = t.reg.verifiedPrefixes := by
    intro f
    rw [verifiedPrefixes_edit, verifiedPrefixes_ensure]
  unfold handleAdvertised at hp
  dsimp only at hp
  split at hp
  · left
    rwa [verifiedPrefixes_edit] at hp
  · unfold restoreVerified at hp
    split at hp
    · rename_i endpoint' hback
      split at hp
      · rename_i hq
        have hverify : ∀ t : Turn, (t.verify q endpoint').reg.verifiedPrefixes =
            t.reg.verifiedPrefixes.insert q endpoint' := fun _ => rfl
        -- the prefix is verified again as what its entry was
        rw [hverify, hedit, Map.lookup_insert_ite] at hp
        split at hp
        · rename_i heq
          obtain rfl := Option.some.inj hp
          obtain ⟨e, he, hv⟩ := Option.bind_eq_some_iff.mp hback
          refine .inr ⟨hq.trans heq.symm, e, he, ?_⟩
          split at hv
          · exact hv
          · cases hv
        · exact .inl hp
      · rw [hedit] at hp
        exact .inl hp
    · rw [hedit] at hp
      exact .inl hp

theorem verifiesNone_edit (t : Turn) (d : DeviceId) (f : Edit → Edit) :
    VerifiesNone t (t.edit d f) := .of_eq (verifiedPrefixes_edit t d f)

theorem verifiesNone_ensure (t : Turn) (d : DeviceId) : VerifiesNone t (t.ensure d) :=
  .of_eq (verifiedPrefixes_ensure t d)

theorem verifiesNone_editAll (t : Turn) (ds : List DeviceId) (f : Edit → Edit) :
    VerifiesNone t (t.editAll ds f) := .of_eq (verifiedPrefixes_editAll t ds f)

theorem verifiesNone_prune (t : Turn) : VerifiesNone t t.pruneVerifiedPrefixes :=
  fun _ _ h => ((Map.lookup_retain _ _ _ _).mp h).1

/-- Whether it prunes or not. -/
theorem verifiesNone_pruneIfGivenUp (t : Turn) (d : DeviceId) (before : Option PeerEntry) :
    VerifiesNone t (t.pruneIfGivenUp d before) := by
  unfold pruneIfGivenUp
  split
  · exact verifiesNone_prune t
  · exact .refl t

/-- A handshake and an advertisement are the only commands that add to the verified prefixes. -/
theorem handle_verifiesNone {r : Registry} {io : Io} {cmd : PeerCommand}
    (hverified : ∀ endpoint token, cmd ≠ .verifiedEndpoint endpoint token)
    (hadvertised : ∀ p d rssi, cmd ≠ .advertised p d rssi) :
    VerifiesNone (start r) (r.handle io cmd) := by
  cases cmd with
  | verifiedEndpoint endpoint token => exact absurd rfl (hverified endpoint token)
  | advertised p d rssi => exact absurd rfl (hadvertised p d rssi)
  | centralConnected d => exact .refl _
  | centralDisconnected d cause =>
      exact (verifiesNone_edit _ d _).trans (verifiesNone_pruneIfGivenUp _ d _)
  | connectFailed d l error =>
      exact (verifiesNone_edit _ d _).trans (verifiesNone_pruneIfGivenUp _ d _)
  | inboundGattFragment d source bytes =>
      change VerifiesNone _ (Turn.handleInboundGattFragment io d source bytes _)
      unfold handleInboundGattFragment
      split
      · exact (verifiesNone_ensure _ d).trans (verifiesNone_edit _ d _)
      · exact verifiesNone_edit _ d _
  | inboundL2capChannel d channel =>
      change VerifiesNone _ (Turn.handleInboundL2capChannel io d channel _)
      unfold handleInboundL2capChannel
      split
      · exact (verifiesNone_ensure _ d).trans (verifiesNone_edit _ d _)
      · exact verifiesNone_edit _ d _
  | adapterStateChanged powered =>
      change VerifiesNone _ (Turn.handleAdapterStateChanged io powered _)
      unfold handleAdapterStateChanged
      cases powered with
      | true =>
          exact .of_eq (verifiedPrefixes_foldl id (fun _ => Edit.adapterOn io.now) _
            ((start r).setAdapterState .poweredOn))
      | false => exact verifiesNone_editAll ((start r).setAdapterState .poweredOff) _ _
  | sendDatagram d target txGen datagram waker =>
      exact (verifiesNone_ensure _ d).trans (verifiesNone_edit _ d _)
  | tick now =>
      refine VerifiesNone.trans ?_ (verifiesNone_prune _)
      exact .of_eq (verifiedPrefixes_foldl Prod.fst
        (fun x => Edit.tickApply now io.systemNow x.2) _ (start r))
  | connectSucceeded d l channel => exact verifiesNone_edit _ d _
  | openL2capSucceeded d l u channel => exact verifiesNone_edit _ d _
  | openL2capFailed d l u error => exact verifiesNone_edit _ d _
  | protocolVersionMismatch d l got want =>
      change VerifiesNone _ (Turn.handleProtocolVersionMismatch io d l got want _)
      unfold handleProtocolVersionMismatch
      split
      · exact .refl _
      · split
        · exact .refl _
        · exact (verifiesNone_edit _ d _).trans (verifiesNone_prune _)
  | stalled d cause => exact verifiesNone_edit _ d _
  | forget d =>
      change VerifiesNone _ (Turn.handleForget io d _)
      unfold handleForget
      split
      · exact .refl _
      · exact (verifiesNone_edit _ d _).trans (verifiesNone_prune _)
  | dataPipeReady d txGen handles => exact verifiesNone_edit _ d _
  | peripheralClientSubscribed d c p =>
      exact (verifiesNone_ensure _ d).trans (verifiesNone_edit _ d _)
  | peripheralClientUnsubscribed d c =>
      change VerifiesNone _ (Turn.handlePeripheralClientUnsubscribed io d c _)
      unfold handlePeripheralClientUnsubscribed
      split
      · exact .refl _
      · dsimp only
        split
        · exact verifiesNone_edit _ d _
        · exact (verifiesNone_edit _ d _).trans (verifiesNone_prune _)
  | l2capHandoverTimeout d => exact verifiesNone_edit _ d _
  | shutdown => exact verifiesNone_editAll _ _ _

end Turn

namespace Registry

open Turn

/-- Every identity that is kept is one of `S`, and kept for its own prefix. -/
structure Proven (S : EndpointId → Prop) (r : Registry) : Prop where
  entries : ∀ d e, r.peer d = some e → ∀ endpoint, e.verifiedEndpoint = some endpoint → S endpoint
  prefixes : ∀ p endpoint, r.verifiedPrefixes.lookup p = some endpoint →
    prefixFromEndpoint endpoint = p ∧ S endpoint

theorem Proven.mono {S S' : EndpointId → Prop} {r : Registry} (h : Proven S r)
    (hS : ∀ endpoint, S endpoint → S' endpoint) : Proven S' r where
  entries d e he endpoint hv := hS endpoint (h.entries d e he endpoint hv)
  prefixes p endpoint hp := ⟨(h.prefixes p endpoint hp).1, hS endpoint (h.prefixes p endpoint hp).2⟩

/-- The entries, where the command is no subscription. -/
theorem Proven.handle_entries {S : EndpointId → Prop} {r : Registry} (h : Proven S r) {io : Io}
    {cmd : PeerCommand} (hS : ∀ endpoint ∈ verifies (.command io cmd), S endpoint)
    (hsub : ∀ d c p, cmd ≠ .peripheralClientSubscribed d c p) (d : DeviceId) :
    ∀ e, (r.handle io cmd).reg.peer d = some e →
      ∀ endpoint, e.verifiedEndpoint = some endpoint → S endpoint := by
  refine Steps.all (P := fun e => ∀ endpoint, e.verifiedEndpoint = some endpoint → S endpoint)
    (handle_steps io cmd r) ?_ ?_ ?_ (h.entries d)
  · intro n endpoint hv
    cases hv
  · intro f w hf hw endpoint hv
    rcases hf.identity with
      hsame | ⟨endpoint', token, rfl, hnew⟩ | ⟨c, p, rfl, -⟩ | ⟨p, rssi, rfl, hnew⟩
    · have hold : (f w).entry.verifiedEndpoint = w.entry.verifiedEndpoint := congrArg Prod.snd hsame
      exact hw endpoint (hold.symm.trans hv)
    · have hstamp : (f w).entry.verifiedEndpoint = some endpoint' := congrArg Prod.snd hnew
      obtain rfl := Option.some.inj (hstamp.symm.trans hv)
      exact hS endpoint' rfl
    · exact absurd rfl (hsub d c p)
    · have hold : (f w).entry.verifiedEndpoint = w.entry.verifiedEndpoint := congrArg Prod.snd hnew
      exact hw endpoint (hold.symm.trans hv)
  · intro f w n hf hw endpoint hv
    have hnone : (f w).entry.verifiedEndpoint = none := by
      cases hf with
      | fragment => exact congrArg PeerEntry.verifiedEndpoint hw
      | inboundL2capChannel => exact congrArg PeerEntry.verifiedEndpoint hw
    rw [hnone] at hv
    cases hv

/-- The entries, after a subscription. -/
theorem Proven.subscribed_entries {S : EndpointId → Prop} {r : Registry} (h : Proven S r) {io : Io}
    {c : Uuid} {p : Option KeyPrefix} {d' : DeviceId} (d : DeviceId) {e : PeerEntry}
    (he : (r.handle io (.peripheralClientSubscribed d' c p)).reg.peer d = some e)
    {endpoint : EndpointId} (hv : e.verifiedEndpoint = some endpoint) : S endpoint := by
  change (((start r).ensure d').edit d' (Edit.peripheralClientSubscribed io.now c p
    (p.bind fun q => r.verifiedPrefixes.lookup q))).reg.peer d = some e at he
  have hall : ∀ e₀, ((start r).ensure d').reg.peer d = some e₀ →
      e₀.verifiedEndpoint = some endpoint → S endpoint := by
    intro e₀ he₀ hv₀
    cases hd : r.peer d' with
    | some e₁ =>
        rw [ensure_of_some (t := start r) hd] at he₀
        exact h.entries d e₀ he₀ endpoint hv₀
    | none =>
        rw [ensure_of_none (t := start r) hd, peer_insertNew] at he₀
        split at he₀
        · rw [← Option.some.inj he₀] at hv₀
          cases hv₀
        · exact h.entries d e₀ he₀ endpoint hv₀
  by_cases hd : d = d'
  · subst hd
    cases he₀ : ((start r).ensure d).reg.peer d with
    | none =>
        rw [edit_of_none he₀, he₀] at he
        cases he
    | some e₀ =>
        rw [edit_of_some he₀, peer_store he₀, if_pos rfl] at he
        obtain rfl := Option.some.inj he
        rcases verifiedEndpoint_subscribed (((start r).ensure d).focus e₀) io.now c p
          (p.bind fun q => r.verifiedPrefixes.lookup q) with hsame | hknown
        · exact hall e₀ he₀ (hsame.symm.trans hv)
        · -- what is known of the prefix was proven
          obtain ⟨q, -, hq⟩ := Option.bind_eq_some_iff.mp (hknown.symm.trans hv)
          exact (h.prefixes q endpoint hq).2
  · rw [peer_edit_ne hd] at he
    exact hall e he hv

/-- A prefix is verified by the handshake of this command, or was before. -/
theorem Proven.handle_prefixes {S : EndpointId → Prop} {r : Registry} (h : Proven S r) {io : Io}
    {cmd : PeerCommand} (hS : ∀ endpoint ∈ verifies (.command io cmd), S endpoint) :
    ∀ p endpoint, (r.handle io cmd).reg.verifiedPrefixes.lookup p = some endpoint →
      prefixFromEndpoint endpoint = p ∧ S endpoint := by
  intro p endpoint hp
  -- the two commands that write the table
  by_cases hverified : ∃ endpoint token, cmd = .verifiedEndpoint endpoint token
  · obtain ⟨endpoint', token, rfl⟩ := hverified
    have hhandle : r.handle io (.verifiedEndpoint endpoint' token) =
        (start r).handleVerifiedEndpoint io endpoint' none := rfl
    rw [hhandle, verifiedPrefixes_handleVerifiedEndpoint, Map.lookup_insert_ite] at hp
    split at hp
    · rename_i heq
      obtain rfl := Option.some.inj hp
      exact ⟨heq.symm, hS endpoint' rfl⟩
    · exact h.prefixes p endpoint hp
  · by_cases hadvertised : ∃ q d rssi, cmd = .advertised q d rssi
    · obtain ⟨q, d, rssi, rfl⟩ := hadvertised
      have hhandle : r.handle io (.advertised q d rssi) =
          (start r).handleAdvertised io q d := rfl
      rw [hhandle] at hp
      rcases verifiedPrefixes_handleAdvertised hp with hold | ⟨hkey, e, he, hv⟩
      · exact h.prefixes p endpoint hold
      · refine ⟨hkey, ?_⟩
        cases hd : r.peer d with
        | some e₁ =>
            rw [ensure_of_some (t := start r) hd] at he
            exact h.entries d e he endpoint hv
        | none =>
            rw [ensure_of_none (t := start r) hd, peer_insertNew_self] at he
            rw [← Option.some.inj he] at hv
            cases hv
    · refine h.prefixes p endpoint (handle_verifiesNone ?_ ?_ p endpoint hp)
      · intro endpoint' token heq
        exact hverified ⟨endpoint', token, heq⟩
      · intro q d rssi heq
        exact hadvertised ⟨q, d, rssi, heq⟩

/-- The invariant over one command. -/
theorem Proven.handle {S : EndpointId → Prop} {r : Registry} (h : Proven S r) {io : Io}
    {cmd : PeerCommand} (hS : ∀ endpoint ∈ verifies (.command io cmd), S endpoint) :
    Proven S (r.handle io cmd).reg := by
  refine ⟨?_, h.handle_prefixes hS⟩
  intro d e he endpoint hv
  by_cases hsub : ∃ d' c p, cmd = .peripheralClientSubscribed d' c p
  · obtain ⟨d', c, p, rfl⟩ := hsub
    exact h.subscribed_entries d he hv
  · exact h.handle_entries hS (fun d' c p heq => hsub ⟨d', c, p, heq⟩) d e he endpoint hv

/-- In every run the identities kept were proven in it. -/
theorem proven_of_run {h : List (Registry × Label)} {r : Registry} (hrun : system.Run h r) :
    Proven (fun endpoint => endpoint ∈ verifiedEndpoints h) r := by
  induction hrun with
  | init hs =>
      obtain ⟨policy, me, rfl⟩ := hs
      constructor
      · intro d e he
        cases he
      · intro p endpoint hp
        cases hp
  | @step h r r' l hr hs ih =>
      -- what was proven stays proven in a longer run
      have ih : Proven (fun endpoint => endpoint ∈ verifiedEndpoints (h ++ [(r, l)])) r := by
        apply ih.mono
        intro endpoint hmem
        rw [verifiedEndpoints_snoc]
        exact List.mem_append_left _ hmem
      cases l with
      | reorder ks =>
          refine ⟨?_, ?_⟩
          · intro d e he
            rw [peer_reorder hs] at he
            exact ih.entries d e he
          · intro p endpoint hp
            simp only [system, step] at hs
            split at hs
            · obtain rfl := Option.some.inj hs
              exact ih.prefixes p endpoint hp
            · cases hs
      | command io cmd =>
          obtain rfl := Option.some.inj hs
          refine ih.handle fun endpoint hmem => ?_
          rw [verifiedEndpoints_snoc]
          exact List.mem_append_right _ (Option.mem_toList.mpr hmem)

end Registry

/-! ## Upgrades -/

/-- A function that asks for an upgrade leaves the entry upgrading, where it was not before. -/
theorem Moved.upgrades {cmd : PeerCommand} {w w' : Edit} (h : Moved cmd w w') :
    upgradeIds w'.actions = upgradeIds w.actions ∨
      w'.entry.phase.isUpgrading = true ∧ w.entry.phase.isUpgrading = false := by
  -- a move that orders no upgrade
  have hquiet : ∀ {l}, w'.orders = w.orders ++ l → upgradeIds l = [] →
      upgradeIds w'.actions = upgradeIds w.actions := by
    intro l horders hnil
    rw [(Edit.ledger_of_orders horders).2, hnil, List.append_nil]
  cases h with
  | same _ _ _ orders => exact .inl (hquiet (by rw [orders, List.append_nil]) rfl)
  | idle _ _ _ _ orders => exact .inl (hquiet (by rw [orders, List.append_nil]) rfl)
  | settle _ _ _ _ _ orders => exact .inl (hquiet (by rw [orders, List.append_nil]) rfl)
  | upgrade _ _ before after _ _ =>
      refine .inr ⟨?_, ?_⟩
      · rw [after]
        rfl
      · rw [before]
        rfl
  | dial _ _ _ orders => exact .inl (hquiet orders rfl)
  | redial _ _ _ orders => exact .inl (hquiet orders rfl)
  | accept _ _ _ _ orders => exact .inl (hquiet orders rfl)
  | acceptUpgrade _ _ before after _ =>
      refine .inr ⟨?_, ?_⟩
      · rw [after]
        rfl
      · cases hphase : w.entry.phase with
        | connected since channel txGen up =>
            rw [hphase] at before
            cases before
        | _ => rfl
  | overtake _ _ _ _ orders => exact .inl (hquiet orders rfl)
  | restart _ _ orders => exact .inl (hquiet orders rfl)
  | ends native refresh close _ _ _ _ _ orders =>
      refine .inl (hquiet orders ?_)
      cases native <;> cases refresh <;> cases close <;> rfl
  | shutdown _ _ _ orders => exact .inl (hquiet orders rfl)

namespace Turn

variable {io : Io} {cmd : PeerCommand} {d : DeviceId} {t t' : Turn}

/-- A step of a command that may not upgrade asks for no upgrade. -/
theorem upgradeIds_step (hcmd : cmd.mayUpgrade = false) (hset : t.reg.Settled)
    (hs : Step io cmd t t') : upgradeIds t'.actions = upgradeIds t.actions := by
  cases hs with
  | @edit d e f he hf =>
      have hmoved : Moved cmd (t.focus e) (f (t.focus e)) :=
        hf.moved (w := t.focus e) (hset d e he).shaking
      have hphases : Phases io cmd d e.phase (f (t.focus e)).entry.phase :=
        Touch.phases (w := t.focus e) hf
      -- an upgrade that begins would show in the phase
      rcases hmoved.upgrades with hsame | ⟨hafter, hbefore⟩
      · exact hsame
      · change e.phase.isUpgrading = false at hbefore
        generalize (f (t.focus e)).entry.phase = p' at hphases hafter
        cases hphases with
        | same =>
            rw [hbefore] at hafter
            cases hafter
        | leaves _ upgrades _ =>
            rw [hcmd] at upgrades
            cases upgrades hafter
        | dials => cases hafter
        | fails => cases hafter
        | returns => cases hafter
  | insert _ _ => rfl
  | @fresh d f hd hf =>
      rw [edit_of_some (peer_insertNew_self t d)]
      cases hf with
      | fragment =>
          change upgradeIds (t.actions ++ _) = _
          rw [upgradeIds_append]
          exact List.append_nil _
      | inboundL2capChannel =>
          change upgradeIds (t.actions ++ _) = _
          rw [upgradeIds_append]
          exact List.append_nil _
  | verify p endpoint => rfl
  | prune => rfl
  | gcDead _ => rfl
  | adapter state => rfl
  | restore b =>
      change upgradeIds ((t.actions ++ _) ++ _) = _
      rw [upgradeIds_append, upgradeIds_append]
      simp [upgradeIds]

theorem upgradeIds_steps (hcmd : cmd.mayUpgrade = false) (hset : t.reg.Settled)
    (hsteps : Steps io cmd t t') : upgradeIds t'.actions = upgradeIds t.actions := by
  have hall : t'.reg.Settled ∧ upgradeIds t'.actions = upgradeIds t.actions := by
    induction hsteps with
    | refl => exact ⟨hset, rfl⟩
    | tail _ hs ih => exact ⟨ih.1.step hs, (upgradeIds_step hcmd ih.1 hs).trans ih.2⟩
  exact hall.2

theorem mem_upgradeIds {actions : List PeerAction} {l u : ℕ}
    (h : .upgradeToL2cap d l u ∈ actions) : (l, u) ∈ upgradeIds actions :=
  List.mem_filterMap.mpr ⟨_, h, rfl⟩

end Turn

namespace Registry

open Turn

/-- An upgrade has just been asked for, for an entry that dialled and carries the prefix of
`endpoint`. -/
structure Requested (endpoint : EndpointId) (l u : ℕ) (e : PeerEntry) : Prop where
  keyPrefix : e.keyPrefix = some (prefixFromEndpoint endpoint)
  role : e.role = .central
  lifecycleId : e.lifecycleId = l
  upgradeGen : e.upgradeGen = u
  upgrading : e.phase.isUpgrading = true
  notFailed : e.l2capUpgradeFailed = false

/-- Whatever else is live, only a dialler opens a channel. -/
theorem role_of_shouldEmit {n : ℕ} {role : ConnectRole} {me endpoint : EndpointId}
    (h : shouldEmitL2capUpgrade n role me endpoint = true) : role = .central := by
  unfold shouldEmitL2capUpgrade shouldDialL2cap at h
  split at h
  · exact eq_of_beq h
  · exact eq_of_beq (Bool.and_eq_true_iff.mp h).1

theorem requestUpgrade_actions (w : Edit) :
    w.requestUpgrade.actions = w.actions ++
      [.upgradeToL2cap w.entry.deviceId w.entry.lifecycleId (w.entry.upgradeGen + 1)] := by
  unfold Edit.requestUpgrade Edit.setUpgrading
  split <;> rfl

/-- The entry counts it, and a live session waits for it. -/
theorem requestUpgrade_entry (w : Edit) :
    ∃ phase, w.requestUpgrade.entry =
        { w.entry with phase, upgradeGen := w.entry.upgradeGen + 1 } ∧
      (w.entry.phase.isConnected = true → phase.isUpgrading = true) := by
  unfold Edit.requestUpgrade Edit.setUpgrading
  split
  · exact ⟨_, rfl, fun _ => rfl⟩
  · rename_i hno
    refine ⟨w.entry.phase, rfl, ?_⟩
    intro hconnected
    cases hphase : w.entry.phase with
    | connected since channel txGen up => exact absurd hphase (hno _ _ _ _)
    | _ =>
        rw [hphase] at hconnected
        cases hconnected

/-- The loop that asks for upgrades. -/
theorem upgrade_of_editAll {ds : List DeviceId} (hnodup : ds.Nodup) {t : Turn} (hk : t.reg.Keyed)
    {d : DeviceId} {l u : ℕ}
    (h : .upgradeToL2cap d l u ∈ (t.editAll ds Edit.requestUpgrade).actions) :
    .upgradeToL2cap d l u ∈ t.actions ∨ d ∈ ds ∧ ∃ e w, t.reg.peer d = some e ∧ Edit.entry w = e ∧
      l = e.lifecycleId ∧ u = e.upgradeGen + 1 ∧
      (t.editAll ds Edit.requestUpgrade).reg.peer d = some (Edit.requestUpgrade w).entry := by
  -- induction on the devices the pass goes through
  induction ds generalizing t with
  | nil => exact .inl h
  | cons d₁ ds ih =>
      rw [List.nodup_cons] at hnodup
      cases he : t.reg.peer d₁ with
      | none =>
          change .upgradeToL2cap d l u ∈ ((t.edit d₁ Edit.requestUpgrade).editAll ds _).actions at h
          change _ ∨ d ∈ d₁ :: ds ∧ ∃ e w, _ ∧ _ ∧ _ ∧ _ ∧
            ((t.edit d₁ Edit.requestUpgrade).editAll ds _).reg.peer d = _
          rw [edit_of_none he] at h ⊢
          rcases ih hnodup.2 hk h with hold | ⟨hd, hrest⟩
          · exact .inl hold
          · exact .inr ⟨List.mem_cons_of_mem _ hd, hrest⟩
      | some e₁ =>
          -- the first device: asked for here, or by the rest of the pass
          change .upgradeToL2cap d l u ∈ ((t.edit d₁ Edit.requestUpgrade).editAll ds _).actions at h
          change _ ∨ d ∈ d₁ :: ds ∧ ∃ e w, _ ∧ _ ∧ _ ∧ _ ∧
            ((t.edit d₁ Edit.requestUpgrade).editAll ds _).reg.peer d = _
          obtain ⟨phase, hentry, -⟩ := requestUpgrade_entry (t.focus e₁)
          have hk' : (t.edit d₁ Edit.requestUpgrade).reg.Keyed := by
            intro d' e' he'
            by_cases hd' : d' = d₁
            · subst hd'
              rw [edit_of_some he, peer_store he, if_pos rfl] at he'
              rw [← Option.some.inj he', hentry]
              exact hk d' e₁ he
            · rw [peer_edit_ne hd'] at he'
              exact hk d' e' he'
          rcases ih hnodup.2 hk' h with hold | ⟨hd, e, w, hpeer, hrest⟩
          · rw [edit_of_some he] at hold
            change _ ∈ (Edit.requestUpgrade (t.focus e₁)).actions at hold
            rw [requestUpgrade_actions] at hold
            rcases List.mem_append.mp hold with hold | hnew
            · exact .inl hold
            · rw [List.mem_singleton, PeerAction.upgradeToL2cap.injEq] at hnew
              obtain ⟨hd, hl, hu⟩ := hnew
              obtain rfl : d = d₁ := hd.trans (hk d₁ e₁ he)
              refine .inr ⟨List.mem_cons_self, e₁, t.focus e₁, he, rfl, hl, hu, ?_⟩
              have hkept := peer_foldl_ne (t := t.edit d Edit.requestUpgrade) id
                (fun _ => Edit.requestUpgrade) ds (by rw [List.map_id]; exact hnodup.1)
              refine hkept.trans ?_
              rw [edit_of_some he, peer_store he, if_pos rfl]
          · have hne : d ≠ d₁ := by
              rintro rfl
              exact hnodup.1 hd
            rw [peer_edit_ne hne] at hpeer
            exact .inr ⟨List.mem_cons_of_mem _ hd, e, w, hpeer, hrest⟩

/-- Editing entries keeps the policy. -/
theorem l2capPolicy_editAll (t : Turn) (ds : List DeviceId) (f : Edit → Edit) :
    (t.editAll ds f).reg.l2capPolicy = t.reg.l2capPolicy := by
  induction ds generalizing t with
  | nil => rfl
  | cons d ds ih =>
      refine (ih (t.edit d f)).trans ?_
      unfold edit
      split <;> rfl

/-- A function that asks for no upgrade asks for none anywhere. -/
theorem upgradeIds_editAll {f : Edit → Edit}
    (hf : ∀ w, upgradeIds (f w).actions = upgradeIds w.actions) (t : Turn) (ds : List DeviceId) :
    upgradeIds (t.editAll ds f).actions = upgradeIds t.actions := by
  induction ds generalizing t with
  | nil => rfl
  | cons d ds ih =>
      refine (ih (t.edit d f)).trans ?_
      unfold edit
      split
      · rfl
      · exact hf _

theorem upgradeIds_drain (now systemNow : ℕ) (reason : DisconnectReason) (w : Edit) :
    upgradeIds (w.drainToDraining now systemNow reason).actions = upgradeIds w.actions := by
  rw [(Edit.ledger_of_orders (Edit.drainToDraining_orders w now systemNow reason)).2]
  exact List.append_nil _

/-- What a handshake does before it asks for upgrades. -/
def settledFor (io : Io) (endpoint : EndpointId) (r : Registry) : Turn :=
  ((((start r).verify (prefixFromEndpoint endpoint) endpoint).stampVerified io endpoint
    none).cancelPendingDials io (prefixFromEndpoint endpoint)).drainLosers io endpoint

theorem settledFor_steps (io : Io) (endpoint : EndpointId) (token : Option ℕ) (r : Registry) :
    Steps io (.verifiedEndpoint endpoint token) (start r) (settledFor io endpoint r) :=
  (Relation.ReflTransGen.single (.verify _ _)).trans
    ((Steps.stampVerified none).trans (Steps.cancelPendingDials.trans Steps.drainLosers))

theorem l2capPolicy_settledFor (io : Io) (endpoint : EndpointId) (r : Registry) :
    (settledFor io endpoint r).reg.l2capPolicy = r.l2capPolicy := by
  unfold settledFor drainLosers cancelPendingDials Turn.stampVerified
  dsimp only
  split
  · rw [l2capPolicy_editAll, l2capPolicy_editAll, l2capPolicy_editAll]
    rfl
  · rw [l2capPolicy_editAll, l2capPolicy_editAll]
    rfl

/-- Settling an endpoint asks for no upgrade, so those of the command come from its last pass. -/
theorem upgradeIds_settledFor (io : Io) (endpoint : EndpointId) (r : Registry) :
    upgradeIds (settledFor io endpoint r).actions = [] := by
  have hstamp : ∀ w, upgradeIds (Edit.stampVerified io.now endpoint w).actions =
      upgradeIds w.actions := fun _ => rfl
  unfold settledFor drainLosers cancelPendingDials Turn.stampVerified
  dsimp only
  split
  · rw [upgradeIds_editAll (upgradeIds_drain _ _ _), upgradeIds_editAll (upgradeIds_drain _ _ _),
      upgradeIds_editAll hstamp]
    rfl
  · rw [upgradeIds_editAll (upgradeIds_drain _ _ _), upgradeIds_editAll hstamp]
    rfl

/-- What a handshake asks for. -/
theorem upgrade_of_verified {r : Registry} (hk : r.Keyed) {io : Io} {endpoint : EndpointId}
    {token : Option ℕ} {d : DeviceId} {l u : ℕ}
    (h : .upgradeToL2cap d l u ∈ (r.handle io (.verifiedEndpoint endpoint token)).actions) :
    r.l2capPolicy = .preferL2cap ∧
      ∃ e', (r.handle io (.verifiedEndpoint endpoint token)).reg.peer d = some e' ∧
        Requested endpoint l u e' := by
  change .upgradeToL2cap d l u ∈
    ((settledFor io endpoint r).requestUpgrades endpoint).actions at h
  change _ ∧ ∃ e', ((settledFor io endpoint r).requestUpgrades endpoint).reg.peer d = _ ∧ _
  -- the passes before ask for nothing
  have hk' := keyed_steps (t := start r) hk (settledFor_steps io endpoint token r)
  have hnone := upgradeIds_settledFor io endpoint r
  rw [← l2capPolicy_settledFor io endpoint r]
  generalize settledFor io endpoint r = t at h hk' hnone ⊢
  unfold requestUpgrades at h ⊢
  dsimp only at h ⊢
  split at h
  · rename_i hpolicy
    rw [if_pos hpolicy]
    refine ⟨hpolicy, ?_⟩
    rcases upgrade_of_editAll (nodup_devicesWhere t _) hk' h with
      hold | ⟨hd, e, w, he, rfl, rfl, rfl, hafter⟩
    · have hmem := mem_upgradeIds hold
      rw [hnone] at hmem
      cases hmem
    · obtain ⟨e, he', hmeets⟩ := mem_devicesWhere hd
      obtain rfl : e = w.entry := Option.some.inj (he'.symm.trans he)
      simp only [Bool.and_eq_true, decide_eq_true_eq, Bool.not_eq_true'] at hmeets
      obtain ⟨⟨⟨hkept, hfailed⟩, hemit⟩, hupgradable⟩ := hmeets
      obtain ⟨phase, hentry, hup⟩ := requestUpgrade_entry w
      refine ⟨_, hafter, ?_⟩
      have hconnected : w.entry.phase.isConnected = true := by
        cases hphase : w.entry.phase with
        | connected since channel txGen up => rfl
        | _ =>
            rw [hphase] at hupgradable
            cases hupgradable
      rw [hentry]
      exact ⟨hkept, role_of_shouldEmit hemit, rfl, rfl, hup hconnected, hfailed⟩
  · have hmem := mem_upgradeIds h
    rw [hnone] at hmem
    cases hmem

/-- An accepted dial asks for an upgrade last. -/
theorem upgrade_of_accepted {w : Edit} {now l₀ : ℕ} {channel : ChannelHandle}
    {upgrade : PeerEntry → Bool} {d : DeviceId} {l u : ℕ} (hnone : w.actions = [])
    (h : .upgradeToL2cap d l u ∈ (w.connectSucceeded now l₀ channel upgrade).actions) :
    ∃ w₁ : Edit, w.connectSucceeded now l₀ channel upgrade = w₁.requestUpgrade ∧
      upgrade w₁.entry = true ∧ w₁.entry.phase.isConnected = true ∧
      d = w₁.entry.deviceId ∧ l = w₁.entry.lifecycleId ∧ u = w₁.entry.upgradeGen + 1 ∧
      w₁.entry.deviceId = w.entry.deviceId ∧ w₁.entry.keyPrefix = w.entry.keyPrefix := by
  unfold Edit.connectSucceeded at h ⊢
  split at h
  · rw [hnone] at h
    cases h
  · rename_i hfresh
    rw [if_neg hfresh]
    dsimp only at h ⊢
    generalize hw₁ : Edit.startDataPipe _ _ _ _ = w₁ at h ⊢
    have hold : .upgradeToL2cap d l u ∉ w₁.actions := by
      rw [← hw₁]
      simp [hnone, Edit.modify, Edit.push, Edit.enterConnected, Edit.startDataPipe]
    split at h
    · rename_i hwants
      rw [if_pos hwants]
      rw [requestUpgrade_actions] at h
      have hnew := (List.mem_append.mp h).resolve_left hold
      rw [List.mem_singleton, PeerAction.upgradeToL2cap.injEq] at hnew
      refine ⟨w₁, rfl, hwants, ?_, hnew.1, hnew.2.1, hnew.2.2, ?_, ?_⟩ <;> (rw [← hw₁]; rfl)
    · exact absurd h hold

/-- What an accepted dial asks for. -/
theorem upgrade_of_connectSucceeded {S : EndpointId → Prop} {r : Registry} (hk : r.Keyed)
    (hproven : Proven S r) {io : Io} {d₀ : DeviceId} {l₀ : ℕ} {channel : ChannelHandle}
    {d : DeviceId} {l u : ℕ}
    (h : .upgradeToL2cap d l u ∈ (r.handle io (.connectSucceeded d₀ l₀ channel)).actions) :
    r.l2capPolicy = .preferL2cap ∧ ∃ endpoint, S endpoint ∧ ∃ e',
      (r.handle io (.connectSucceeded d₀ l₀ channel)).reg.peer d = some e' ∧
      Requested endpoint l u e' := by
  change .upgradeToL2cap d l u ∈ ((start r).edit d₀ (Edit.connectSucceeded io.now l₀ channel
    ((start r).wantsUpgrade d₀))).actions at h
  change _ ∧ ∃ endpoint, _ ∧ ∃ e', ((start r).edit d₀ (Edit.connectSucceeded io.now l₀ channel
    ((start r).wantsUpgrade d₀))).reg.peer d = _ ∧ _
  cases he : r.peer d₀ with
  | none =>
      rw [edit_of_none (t := start r) he] at h
      cases h
  | some e =>
      rw [edit_of_some (t := start r) he] at h ⊢
      -- the request comes from the handler, on the entry it has just accepted
      obtain ⟨w₁, hw₁, hwants, hconnected, hd, hl, hu, hdevice, hkept⟩ :=
        upgrade_of_accepted (w := (start r).focus e) rfl h
      obtain rfl : d = d₀ := (hd.trans hdevice).trans (hk d₀ e he)
      obtain ⟨phase, hentry, hup⟩ := requestUpgrade_entry w₁
      unfold wantsUpgrade at hwants
      split at hwants
      · cases hwants
      · rename_i p hp
        split at hwants
        · cases hwants
        · rename_i endpoint hknown
          obtain ⟨hkey, hS⟩ := hproven.prefixes p endpoint hknown
          simp only [Bool.and_eq_true, decide_eq_true_eq, Bool.not_eq_true'] at hwants
          obtain ⟨⟨hpolicy, hfailed⟩, hemit⟩ := hwants
          have hpeer : e.keyPrefix = some p := by
            obtain ⟨e₁, he₁, hp₁⟩ := Option.bind_eq_some_iff.mp hp
            rw [← hp₁, Option.some.inj (he.symm.trans he₁)]
          refine ⟨hpolicy, endpoint, hS, (Edit.requestUpgrade w₁).entry, ?_, ?_⟩
          · rw [hw₁, peer_store (t := start r) he, if_pos rfl]
          · rw [hentry]
            refine ⟨?_, role_of_shouldEmit hemit, hl.symm, hu.symm, hup hconnected, hfailed⟩
            change w₁.entry.keyPrefix = _
            rw [hkept, hkey]
            exact hpeer

/-! ## Along a run -/

/-- An upgrade that a step asks for is allowed by the policy, and the endpoint that the prefix
stands for was proven by then. -/
def Authenticated (k : List (Registry × Label)) (r : Registry) (l : Label) : Prop :=
  ∀ d lifecycleId upgradeGen, .upgradeToL2cap d lifecycleId upgradeGen ∈ emitted (r, l) →
    r.l2capPolicy = .preferL2cap ∧ ∃ endpoint ∈ verifiedEndpoints (k ++ [(r, l)]),
      ∃ r' e', step l r = some r' ∧ r'.peer d = some e' ∧
        Requested endpoint lifecycleId upgradeGen e'

/-- Every command of a run asks for upgrades only where it may. -/
theorem authenticated_of_run {k : List (Registry × Label)} {r : Registry} (hrun : system.Run k r)
    (l : Label) : Authenticated k r l := by
  intro d lifecycleId upgradeGen hmem
  have hk := keyed_of_run hrun
  cases l with
  | reorder ks => cases hmem
  | command io cmd =>
      change .upgradeToL2cap d lifecycleId upgradeGen ∈ (r.handle io cmd).actions at hmem
      cases hcmd : cmd.mayUpgrade with
      | false =>
          have hids := upgradeIds_steps hcmd (settled_of_run hrun) (handle_steps io cmd r)
          have hid := mem_upgradeIds hmem
          rw [hids] at hid
          cases hid
      | true =>
          cases cmd with
          | connectSucceeded d₀ l₀ channel =>
              obtain ⟨hpolicy, endpoint, hS, e', he', hrequested⟩ :=
                upgrade_of_connectSucceeded hk (proven_of_run hrun) hmem
              refine ⟨hpolicy, endpoint, ?_, _, e', rfl, he', hrequested⟩
              rw [verifiedEndpoints_snoc]
              exact List.mem_append_left _ hS
          | verifiedEndpoint endpoint token =>
              obtain ⟨hpolicy, e', he', hrequested⟩ := upgrade_of_verified hk hmem
              refine ⟨hpolicy, endpoint, ?_, _, e', rfl, he', hrequested⟩
              rw [verifiedEndpoints_snoc]
              exact List.mem_append_right _ (List.mem_singleton_self _)
          | _ => cases hcmd

/-- In every run each identity that is kept, of an entry or of a prefix, was proven by a handshake
before, and every upgrade to L2CAP is asked for under `PreferL2cap`, by the side that dialled, for
an entry that is `Connected`, has not failed to upgrade in its session and carries the prefix of a
proven endpoint. -/
theorem upgrade_authenticated {h : List (Registry × Label)} {r : Registry}
    (hrun : system.Run h r) :
    Proven (fun endpoint => endpoint ∈ verifiedEndpoints h) r ∧ System.Along Authenticated h := by
  refine ⟨proven_of_run hrun, ?_⟩
  induction hrun with
  | init _ => exact System.along_nil _
  | @step h r r' l hr _ ih =>
      rw [System.along_append]
      exact ⟨ih, authenticated_of_run hr l⟩

/-- A peer is dialled, and then proves who it is. -/
def upgradeRun : List Label :=
  [.command (ioAt 0) (.advertised (prefixFromEndpoint peerEndpoint) "peer" none),
    .command (ioAt 1) (.sendDatagram "peer" none 0 [1] 0),
    .command (ioAt 2) (.connectSucceeded "peer" 2 ⟨1, .gatt⟩),
    .command (ioAt 3) (.verifiedEndpoint peerEndpoint none)]

/-- On a run: a dialled peer authenticates, and its session is upgraded. -/
theorem upgrade_authenticated_upgradeRun :
    ∃ h r, system.Run h r ∧ h.map Prod.snd = upgradeRun ∧
      h.flatMap (fun x => upgradeIds (emitted x)) = [(2, 1)] ∧
      r.verifiedPrefixes.lookup (prefixFromEndpoint peerEndpoint) = some peerEndpoint ∧
      Proven (fun endpoint => endpoint ∈ verifiedEndpoints h) r ∧
      System.Along Authenticated h := by
  obtain ⟨h, r, hrun, hl, hups, hknown⟩ := System.Run.of_trace
    (P := fun h r => h.flatMap (fun x => upgradeIds (emitted x)) = [(2, 1)] ∧
      r.verifiedPrefixes.lookup (prefixFromEndpoint peerEndpoint) = some peerEndpoint)
    upgradeRun (init_new .preferL2cap localEndpoint) (by decide +kernel)
  exact ⟨h, r, hrun, hl, hups, hknown, upgrade_authenticated hrun⟩

end Registry

end IrohBle
