import IrohBle.Registry.EntrySpec
import IrohBle.Registry.Steps

/-! # Registry.Lifecycle: lifecycle ids are issued once

A function that runs on an entry keeps its lifecycle id or gives it one that has just
been issued (`Issued`), so every id in use lies below the counter, in every run.
-/

namespace IrohBle

open Lib Reliable Registry

/-- The entry keeps its lifecycle id or carries a newly issued one. -/
structure Issued (w w' : Edit) : Prop where
  mono : w.nextLifecycle ≤ w'.nextLifecycle
  id : w'.entry.lifecycleId = w.entry.lifecycleId ∨
    w.nextLifecycle ≤ w'.entry.lifecycleId ∧ w'.entry.lifecycleId < w'.nextLifecycle

namespace Issued

variable {w w₁ w' : Edit}

/-- Two functions in a row issue in order. -/
theorem trans (h₁ : Issued w w₁) (h₂ : Issued w₁ w') : Issued w w' where
  mono := h₁.mono.trans h₂.mono
  id := by
    rcases h₂.id with h | ⟨hle, hlt⟩
    · rcases h₁.id with h' | ⟨hle, hlt⟩
      · exact Or.inl (h.trans h')
      · rw [h]
        exact Or.inr ⟨hle, lt_of_lt_of_le hlt h₂.mono⟩
    · exact Or.inr ⟨h₁.mono.trans hle, hlt⟩

/-- An edit that touches neither the id nor the counter. -/
theorem quiet (hn : w'.nextLifecycle = w.nextLifecycle)
    (hl : w'.entry.lifecycleId = w.entry.lifecycleId) : Issued w w' :=
  ⟨hn.ge, Or.inl hl⟩

theorem after (h : Issued w₁ w') (hn : w₁.nextLifecycle = w.nextLifecycle)
    (hl : w₁.entry.lifecycleId = w.entry.lifecycleId) : Issued w w' :=
  (quiet hn hl).trans h

/-- An edit that retires the lifecycle once. -/
theorem renewed (hn : w'.nextLifecycle = w.nextLifecycle + 1)
    (hl : w'.entry.lifecycleId = w.nextLifecycle) : Issued w w' :=
  ⟨by omega, Or.inr (by omega)⟩

theorem beginConnect (w : Edit) (now attempt : ℕ) : Issued w (w.beginConnect now attempt) :=
  renewed rfl rfl

theorem closeChannel (w : Edit) (channel : Option ChannelHandle) (l : ℕ) (reason : DisconnectReason) :
    Issued w (w.closeChannel channel l reason) :=
  quiet (by simp) (by simp)

theorem refreshOn133 (w : Edit) (reason : DisconnectReason) (l : ℕ) :
    Issued w (w.refreshOn133 reason l) := by
  unfold Edit.refreshOn133
  split <;> exact quiet rfl rfl

theorem drainToDraining (w : Edit) (now systemNow : ℕ) (reason : DisconnectReason) :
    Issued w (w.drainToDraining now systemNow reason) :=
  renewed (by simp) (by simp)

/-- Only the branches that dial renew. -/
theorem armForDial (w : Edit) (now : ℕ) (deferPrefix : Option KeyPrefix) :
    Issued w (w.armForDial now deferPrefix) := by
  unfold Edit.armForDial
  split
  · exact quiet rfl rfl
  · split
    · exact quiet rfl rfl
    · exact beginConnect w now 0

theorem clearConnectionState (w : Edit) : Issued w w.clearConnectionState := renewed rfl rfl

theorem resumeDrainedEntry (w : Edit) (now : ℕ) : Issued w (w.resumeDrainedEntry now) :=
  (clearConnectionState w).trans (armForDial _ now none)

/-- A failure that gives the entry up renews nothing. -/
theorem dialFailed (w : Edit) (now attempt : ℕ) (metric : String) (reason : DisconnectReason) :
    Issued w (w.dialFailed now attempt metric reason) := by
  unfold Edit.dialFailed
  dsimp only
  split
  · split <;> exact quiet rfl rfl
  · exact quiet rfl rfl

theorem setUpgrading (w : Edit) (upgrading : Bool) : Issued w (w.setUpgrading upgrading) := by
  unfold Edit.setUpgrading
  split <;> exact quiet rfl rfl

theorem setPath (w : Edit) (path : ConnectPath) : Issued w (w.setPath path) := by
  unfold Edit.setPath
  split <;> exact quiet rfl rfl

theorem requestUpgrade (w : Edit) : Issued w w.requestUpgrade :=
  (setUpgrading w true).trans (quiet rfl rfl)

theorem noteSubscriber (w : Edit) (now : ℕ) (c : Uuid) (p : Option KeyPrefix)
    (verified : Option EndpointId) : Issued w (w.noteSubscriber now c p verified) := by
  unfold Edit.noteSubscriber
  cases p <;> cases verified <;> dsimp only
  · exact quiet rfl rfl
  · split <;> exact quiet rfl rfl
  · exact quiet rfl rfl
  · split <;> exact quiet rfl rfl

theorem restartPeripheralGattPipe (w : Edit) (now : ℕ) (first : Option Bytes) (char : Option Uuid) :
    Issued w (w.restartPeripheralGattPipe now first char) :=
  renewed rfl rfl

/-- Sending keeps the id. -/
theorem flushSends (io : Io) (tx : Sender) (sends : List PendingSend) (w : Edit) :
    Issued w (Edit.flushSends io tx sends w).1 := by
  obtain ⟨_, _, hw⟩ := (Edit.flushed io tx sends w).frame
  rw [hw]
  exact quiet rfl rfl

/-- Handing the backlog over does not change it. -/
theorem flushBacklog (io : Io) (tx : Sender) (backlog : List Bytes) (w : Edit) :
    Issued w (Edit.flushBacklog io tx backlog w) := by
  obtain ⟨_, _, hw⟩ := (Edit.released io tx backlog w).frame
  rw [hw]
  exact quiet rfl rfl

theorem drainBuffered (w : Edit) (io : Io) : Issued w (w.drainBuffered io) := by
  obtain ⟨_, _, _, hw, -⟩ := (Edit.drained w io).frame
  rw [hw]
  exact quiet rfl rfl

theorem offer (w : Edit) (io : Io) (send : PendingSend) : Issued w (w.offer io send) := by
  unfold Edit.offer
  split
  · exact quiet rfl rfl
  · split <;> exact quiet rfl rfl

theorem enqueue (w : Edit) (io : Io) (send : PendingSend) : Issued w (w.enqueue io send) :=
  (drainBuffered w io).trans (offer _ io send)

/-! ## The handlers that branch -/

/-- A subscription renews the id only if it starts a session. -/
theorem peripheralClientSubscribed (w : Edit) (now : ℕ) (c : Uuid) (p : Option KeyPrefix)
    (verified : Option EndpointId) :
    Issued w (w.peripheralClientSubscribed now c p verified) := by
  refine (noteSubscriber w now c p verified).trans ?_
  unfold Edit.peripheralClientSubscribed
  dsimp only
  split
  · split
    · exact quiet rfl rfl
    · exact restartPeripheralGattPipe _ _ _ _
  · exact quiet rfl rfl
  · exact quiet rfl rfl
  · exact restartPeripheralGattPipe _ _ _ _

/-- An advertisement that starts a dial gives it an issued id. -/
theorem advertised (w : Edit) (now : ℕ) (p : KeyPrefix) (deferPrefix : Option KeyPrefix) :
    Issued w (w.advertised now p deferPrefix) := by
  unfold Edit.advertised
  dsimp only
  split
  · exact after (armForDial _ _ _) rfl rfl
  · split
    · exact quiet rfl rfl
    · exact after (armForDial _ _ _) rfl rfl
  · exact trans (renewed rfl rfl) (armForDial _ _ _)
  · exact trans (renewed rfl rfl) (armForDial _ _ _)
  · split
    · exact renewed rfl rfl
    · exact quiet rfl rfl
  · exact quiet rfl rfl

/-- A fragment renews the id only if it revives the entry, and not even then if it overtakes the
success of a dial. -/
theorem inboundGattFragment (w : Edit) (io : Io) (source : FragmentSource) (bytes : Bytes) :
    Issued w (w.inboundGattFragment io source bytes) := by
  unfold Edit.inboundGattFragment
  dsimp only
  split
  · exact quiet rfl rfl
  · split
    · exact quiet rfl rfl
    · split
      · exact renewed rfl rfl
      · exact quiet rfl rfl
  · exact quiet rfl rfl
  · unfold Edit.reviveByFragment
    dsimp only
    split
    · exact quiet rfl rfl
    · exact renewed rfl rfl

/-- A broken link renews the id in every phase. -/
theorem centralDisconnected (w : Edit) (now systemNow : ℕ) (cause : DisconnectCause) :
    Issued w (w.centralDisconnected now systemNow cause) := by
  unfold Edit.centralDisconnected
  dsimp only
  split
  · refine trans ?_ (refreshOn133 _ _ _)
    exact trans (renewed rfl rfl) (dialFailed _ _ _ _ _)
  · split
    · exact resumeDrainedEntry _ _
    · exact (drainToDraining _ _ _ _).trans (refreshOn133 _ _ _)
  · exact ((drainToDraining _ _ _ _).trans (closeChannel _ _ _ _)).trans (refreshOn133 _ _ _)

/-- What falls due either dials, drains or buries the entry. -/
theorem tickApply (w : Edit) (tickNow systemNow : ℕ) (action : Edit.TickAction) :
    Issued w (w.tickApply tickNow systemNow action) := by
  cases action with
  | startConnect attempt => exact renewed rfl rfl
  | pendingDialExpired => exact renewed rfl rfl
  | drainingToDead =>
      unfold Edit.tickApply
      dsimp only
      split
      · exact resumeDrainedEntry _ _
      · exact quiet rfl rfl
  | restoringToDead => exact quiet rfl rfl
  | connectedWedged =>
      exact ((drainToDraining _ _ _ _).trans (closeChannel _ _ _ _)).trans (quiet rfl rfl)

/-- The answers to an upgrade keep the id they answer to. -/
theorem openL2capSucceeded (w : Edit) (now lifecycleId upgradeGen : ℕ) (channel : L2capChannel) :
    Issued w (w.openL2capSucceeded now lifecycleId upgradeGen channel) := by
  unfold Edit.openL2capSucceeded
  split
  · exact quiet rfl rfl
  · split
    · exact quiet rfl rfl
    · split
      · exact (setPath _ _).trans (quiet rfl rfl)
      · exact after (setUpgrading _ _) rfl rfl
    · exact quiet rfl rfl

/-- A failed upgrade does not change it. -/
theorem openL2capFailed (w : Edit) (now lifecycleId upgradeGen : ℕ) (error : String) :
    Issued w (w.openL2capFailed now lifecycleId upgradeGen error) := by
  unfold Edit.openL2capFailed
  split
  · exact quiet rfl rfl
  · split
    · exact quiet rfl rfl
    · exact after (setUpgrading _ _) rfl rfl
    · exact quiet rfl rfl

/-- A channel that starts a session gets an issued id. -/
theorem inboundL2capChannel (w : Edit) (now : ℕ) (channel : L2capChannel) :
    Issued w (w.inboundL2capChannel now channel) := by
  unfold Edit.inboundL2capChannel
  split
  · split
    · exact quiet rfl rfl
    · exact (setPath _ _).trans (quiet rfl rfl)
    · exact quiet rfl rfl
  · exact renewed rfl rfl

end Issued

/-- Every function a command may run issues lifecycle ids in order. -/
theorem Turn.Touch.issued {io : Io} {cmd : PeerCommand} {d : DeviceId} {e : PeerEntry}
    {f : Edit → Edit} (hf : Touch io cmd d e f) (w : Edit) : Issued w (f w) := by
  cases hf with
  | stampExact => exact .quiet rfl rfl
  | stampVerified => exact .quiet rfl rfl
  | cancelDial => exact .drainToDraining _ _ _ _
  | drainLoser => exact .drainToDraining _ _ _ _
  | requestUpgrade => exact .requestUpgrade _
  | subscribed => exact .peripheralClientSubscribed _ _ _ _ _
  | unsubscribed =>
      unfold Edit.peripheralClientUnsubscribed
      dsimp only
      split
      · -- the early return changes the subscriptions only
        exact .quiet rfl rfl
      · exact Issued.after (.drainToDraining _ _ _ _) rfl rfl
  | advertisedSuppressed => exact .quiet rfl rfl
  | advertised => exact .advertised _ _ _ _
  | sendDatagram =>
      unfold Edit.sendDatagram
      split
      · exact .enqueue _ _ _
      · exact .quiet rfl rfl
      · exact .quiet rfl rfl
      · -- the datagram starts a dial
        exact .renewed rfl rfl
  | connectSucceeded =>
      unfold Edit.connectSucceeded
      split
      · exact .quiet rfl rfl
      · dsimp only
        split
        · exact Issued.after (.requestUpgrade _) rfl rfl
        · exact .quiet rfl rfl
  | connectFailed =>
      unfold Edit.connectFailed
      split
      · exact .quiet rfl rfl
      · -- a failure of an old lifecycle changes nothing
        split
        · exact Issued.trans (.renewed rfl rfl) (.dialFailed _ _ _ _ _)
        · exact .quiet rfl rfl
  | fragment => exact .inboundGattFragment _ _ _ _
  | centralDisconnected => exact .centralDisconnected _ _ _ _
  | adapterOff => exact .renewed rfl rfl
  | adapterOn =>
      unfold Edit.adapterOn
      split <;> exact .quiet rfl rfl
  | tick => exact .tickApply _ _ _ _
  | forget => exact Issued.trans (.renewed rfl rfl) (.closeChannel _ _ _ _)
  | stalled =>
      unfold Edit.stalled
      split
      · exact .renewed (by simp) (by simp)
      · exact .quiet rfl rfl
  | shutdown => exact .renewed rfl rfl
  | dataPipeReady =>
      unfold Edit.dataPipeReady
      split
      · exact .quiet rfl rfl
      · exact ((Issued.flushBacklog _ _ _ _).trans (.flushSends _ _ _ _)).trans (.quiet rfl rfl)
  | openL2capSucceeded => exact .openL2capSucceeded _ _ _ _ _
  | openL2capFailed => exact .openL2capFailed _ _ _ _ _
  | inboundL2capChannel => exact .inboundL2capChannel _ _ _
  | protocolVersionMismatch =>
      unfold Edit.protocolVersionMismatch
      split
      · exact .quiet rfl rfl
      · exact .renewed (by simp) (by simp)
  | handoverTimeout => exact Issued.after (.setPath _ _) rfl rfl

namespace Registry

open Turn

/-- Every id in use has been issued. -/
def IdsIssued (r : Registry) : Prop := ∀ d e, r.peer d = some e → e.lifecycleId < r.nextLifecycle

/-- Storing the entry keeps the ids below the counter. -/
theorem IdsIssued.store {t : Turn} {d : DeviceId} {e : PeerEntry} {w : Edit} (h : t.reg.IdsIssued)
    (he : t.reg.peer d = some e) (hw : Issued (t.focus e) w) : (t.store d w).reg.IdsIssued := by
  intro d' e' he'
  rw [peer_store he] at he'
  have hmono : t.reg.nextLifecycle ≤ w.nextLifecycle := hw.mono
  change e'.lifecycleId < w.nextLifecycle
  split at he'
  · obtain rfl := Option.some.inj he'
    rcases hw.id with hid | ⟨-, hlt⟩
    · rw [hid]
      exact lt_of_lt_of_le (h d e he) hmono
    · exact hlt
  · exact lt_of_lt_of_le (h d' e' he') hmono

/-- A fresh entry takes the id that the counter shows. -/
theorem IdsIssued.insertNew {t : Turn} (h : t.reg.IdsIssued) (d : DeviceId) :
    (t.insertNew d).reg.IdsIssued := by
  intro d' e' he'
  rw [peer_insertNew] at he'
  change e'.lifecycleId < t.reg.nextLifecycle + 1
  split at he'
  · obtain rfl := Option.some.inj he'
    exact Nat.lt_succ_self _
  · exact Nat.lt_succ_of_lt (h d' e' he')

/-- The invariant over one step of a command. -/
theorem IdsIssued.step {io : Io} {cmd : PeerCommand} {t t' : Turn} (h : t.reg.IdsIssued)
    (hs : Turn.Step io cmd t t') : t'.reg.IdsIssued := by
  cases hs with
  | edit he hf => exact h.store he (hf.issued _)
  | insert _ hd => exact h.insertNew _
  | @fresh d f hd hf =>
      have he := peer_insertNew_self t d
      rw [edit_of_some he]
      refine (h.insertNew d).store he ?_
      cases hf <;> exact .quiet rfl rfl
  | gcDead _ =>
      intro d e he
      exact h d e (peer_gcDead he)
  | verify p endpoint => exact h
  | prune => exact h
  | adapter state => exact h
  | restore b => exact h

/-- In every run, every lifecycle id in use lies below the counter. -/
theorem idsIssued_of_run {h : List (Registry × Label)} {r : Registry} (hrun : system.Run h r) :
    r.IdsIssued := by
  refine run_invariant ?_ ?_ ?_ hrun
  · intro policy endpoint d e he
    cases he
  · intro r ks hperm hr d e he
    exact hr d e ((Map.lookup_reorder hperm d).symm.trans he)
  · intro io cmd t t' ht hs
    exact ht.step hs

end Registry

end IrohBle
