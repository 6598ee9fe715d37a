import IrohBle.Registry.Command

/-! # Registry.Handles: the pipe handles of a live entry

An entry that goes on with its session goes on with its handles (`Holds`), with two
exceptions: `DataPipeReady` gives it new ones, and a send that finds the outbound channel
closed drops them.
-/

namespace IrohBle

open Lib Reliable Registry

/-- An entry that is `Connected` afterwards, with no new pipe started, has its handles
still. -/
def Holds (w w' : Edit) : Prop :=
  w'.entry.phase.isConnected = true → w'.starts = w.starts → w'.entry.pipe = w.entry.pipe

namespace Holds

variable {w w' : Edit}

theorem same (h : w'.entry.pipe = w.entry.pipe) : Holds w w' := fun _ _ => h

/-- A session that has ended has no handles to hold. -/
theorem ended (h : w'.entry.phase.isConnected = false) : Holds w w' := by
  intro hc
  rw [h] at hc
  cases hc

/-- A function that starts a pipe starts a new session, which waits for handles of its own. -/
theorem started {a : PeerAction} (h : w'.starts = w.starts ++ [a]) : Holds w w' := by
  intro _ hs
  rw [h] at hs
  exact absurd hs (by simp)

theorem setPath (w : Edit) (path : ConnectPath) : (w.setPath path).entry.pipe = w.entry.pipe := by
  rcases Edit.setPath_entry w path with ⟨phase, he, -⟩
  rw [he]

theorem setUpgrading (w : Edit) (upgrading : Bool) :
    (w.setUpgrading upgrading).entry.pipe = w.entry.pipe := by
  rcases Edit.setUpgrading_entry w upgrading with ⟨phase, he, -⟩
  rw [he]

/-- An entry that is armed for a dial is not in a session. -/
theorem armForDial (w : Edit) (now : ℕ) (deferPrefix : Option KeyPrefix) :
    (w.armForDial now deferPrefix).entry.phase.isConnected = false := by
  rcases Edit.armForDial_entry w now deferPrefix with ⟨phase, l, u, he, hphase⟩
  rw [he]
  rcases hphase with rfl | ⟨p, rfl⟩ | rfl <;> rfl

theorem dialFailed (w : Edit) (now attempt : ℕ) (metric : String) (reason : DisconnectReason) :
    (w.dialFailed now attempt metric reason).entry.phase.isConnected = false := by
  rw [Edit.dialFailed_entry]
  split <;> rfl

theorem drainToDraining (w : Edit) (now systemNow : ℕ) (reason : DisconnectReason) :
    (w.drainToDraining now systemNow reason).entry.phase.isConnected = false := by
  simp [PeerPhase.isConnected]

/-- Either the session ends, or only the subscriptions change. -/
theorem peripheralClientUnsubscribed (w : Edit) (now systemNow : ℕ) (c : Uuid) :
    Holds w (w.peripheralClientUnsubscribed now systemNow c) := by
  unfold Edit.peripheralClientUnsubscribed
  dsimp only
  split
  · exact same rfl
  · exact ended (drainToDraining _ now systemNow _)

/-- An advertisement leaves a live session alone. -/
theorem advertised (w : Edit) (now : ℕ) (p : KeyPrefix) (deferPrefix : Option KeyPrefix) :
    Holds w (w.advertised now p deferPrefix) := by
  unfold Edit.advertised
  dsimp only
  split
  · exact ended (armForDial _ now deferPrefix)
  · split
    · exact same rfl
    · exact ended (armForDial _ now deferPrefix)
  · exact ended (armForDial _ now deferPrefix)
  · exact ended (armForDial _ now deferPrefix)
  · split
    · exact ended rfl
    · exact same rfl
  · exact same rfl

/-- A failed dial was not a session yet. -/
theorem connectFailed (w : Edit) (now lifecycleId : ℕ) (error : String) :
    Holds w (w.connectFailed now lifecycleId error) := by
  unfold Edit.connectFailed
  split
  · exact same rfl
  · split
    · exact ended (dialFailed _ now _ error _)
    · exact same rfl

/-- Whatever the phase was, there is no session afterwards. -/
theorem centralDisconnected (w : Edit) (now systemNow : ℕ) (cause : DisconnectCause) :
    Holds w (w.centralDisconnected now systemNow cause) := by
  refine ended ?_
  unfold Edit.centralDisconnected
  dsimp only
  split
  · rw [Edit.refreshOn133_entry]
    exact dialFailed _ now _ _ _
  · split
    · exact armForDial _ now none
    · rw [Edit.refreshOn133_entry]
      exact drainToDraining _ now systemNow _
  · rw [Edit.refreshOn133_entry, Edit.closeChannel_entry]
    exact drainToDraining _ now systemNow _

/-- Only entries that wait for the radio change. -/
theorem adapterOn (w : Edit) (now : ℕ) : Holds w (w.adapterOn now) := by
  unfold Edit.adapterOn
  split
  · exact ended rfl
  · exact same rfl

/-- A tick ends sessions and starts dials. -/
theorem tickApply (w : Edit) (tickNow systemNow : ℕ) (action : Edit.TickAction) :
    Holds w (w.tickApply tickNow systemNow action) := by
  refine ended ?_
  cases action with
  | startConnect attempt => rfl
  | pendingDialExpired => rfl
  | drainingToDead =>
      unfold Edit.tickApply
      dsimp only
      split
      · exact armForDial _ tickNow none
      · rfl
  | restoringToDead => rfl
  | connectedWedged =>
      unfold Edit.tickApply
      rw [Edit.push_entry, Edit.closeChannel_entry]
      exact drainToDraining _ tickNow systemNow _

/-- If there was a session it drains, and otherwise there is none. -/
theorem stalled (w : Edit) (now systemNow : ℕ) (cause : StallCause) :
    (w.stalled now systemNow cause).entry.phase.isConnected = false := by
  unfold Edit.stalled
  split
  · rw [Edit.closeChannel_entry, Edit.modify_entry, Edit.drainToDraining_entry]
    rfl
  · rename_i hne
    cases hp : w.entry.phase with
    | connected since channel txGen up => exact absurd hp (hne since channel txGen up)
    | _ => rfl

/-- The entry dies, or the report is stale. -/
theorem protocolVersionMismatch (w : Edit) (now systemNow lifecycleId : ℕ) (got want : UInt8) :
    Holds w (w.protocolVersionMismatch now systemNow lifecycleId got want) := by
  unfold Edit.protocolVersionMismatch
  split
  · exact same rfl
  · refine ended ?_
    rw [Edit.closeChannel_entry]
    rfl

theorem restartPeripheralGattPipe (w : Edit) (now : ℕ) (first : Option Bytes) (char : Option Uuid) :
    Holds w (w.restartPeripheralGattPipe now first char) :=
  started (by simp [Edit.restartPeripheralGattPipe]; rfl)

theorem starts_enterConnected_ne {w₁ : Edit} {now : ℕ} {channel : ChannelHandle}
    {role : ConnectRole} {path : ConnectPath} {l2cap : Option L2capChannel}
    (h : w₁.starts = w.starts) :
    ((w₁.enterConnected now channel).startDataPipe role path l2cap).starts ≠ w.starts := by
  rw [Edit.startDataPipe_starts, Edit.enterConnected_starts, h]
  simp

theorem enterConnected {w₁ : Edit} (now : ℕ) (channel : ChannelHandle) (role : ConnectRole)
    (path : ConnectPath) (l2cap : Option L2capChannel) (h : w₁.starts = w.starts) :
    Holds w ((w₁.enterConnected now channel).startDataPipe role path l2cap) :=
  fun _ hs => absurd hs (starts_enterConnected_ne h)

/-- A second characteristic changes nothing; a subscription that displaces the session starts a
pipe. -/
theorem peripheralClientSubscribed (w : Edit) (now : ℕ) (c : Uuid) (p : Option KeyPrefix)
    (verified : Option EndpointId) :
    Holds w (w.peripheralClientSubscribed now c p verified) := by
  have hnote : (w.noteSubscriber now c p verified).entry.pipe = w.entry.pipe := by
    rcases Edit.noteSubscriber_entry w now c p verified with ⟨cs, kp, v, va, he⟩
    rw [he]
  have hrestart : Holds w ((w.noteSubscriber now c p verified).restartPeripheralGattPipe now none
      (some c)) := by
    intro hc hs
    rw [← Edit.noteSubscriber_starts w now c p verified] at hs
    rw [← hnote]
    exact restartPeripheralGattPipe _ now none (some c) hc hs
  unfold Edit.peripheralClientSubscribed
  dsimp only
  split
  · split
    · exact same hnote
    · exact hrestart
  · exact same hnote
  · exact same hnote
  · exact hrestart

/-- A dial that succeeds enters a handshake or a session of its own. -/
theorem connectSucceeded (w : Edit) (now lifecycleId : ℕ) (channel : ChannelHandle)
    (upgrade : PeerEntry → Bool) : Holds w (w.connectSucceeded now lifecycleId channel upgrade) := by
  unfold Edit.connectSucceeded
  split
  · exact same rfl
  · dsimp only
    split
    · intro _ hs
      rw [Edit.requestUpgrade_starts] at hs
      refine absurd hs (starts_enterConnected_ne ?_)
      simp [PeerAction.isStartDataPipe]
    · refine enterConnected now channel _ .gatt none ?_
      simp [PeerAction.isStartDataPipe]

/-- A fragment goes into the pipe that is there, or starts one. -/
theorem inboundGattFragment (w : Edit) (io : Io) (source : FragmentSource) (bytes : Bytes) :
    Holds w (w.inboundGattFragment io source bytes) := by
  unfold Edit.inboundGattFragment
  dsimp only
  split
  · exact enterConnected io.now _ _ .gatt none rfl
  · split
    · exact same rfl
    · split
      · exact restartPeripheralGattPipe (w.modify fun e => { e with lastRx := some io.now }) io.now
          (some bytes) none
      · exact same rfl
  · exact same rfl
  · unfold Edit.reviveByFragment
    dsimp only
    split
    · exact enterConnected io.now _ _ .gatt none rfl
    · exact enterConnected io.now _ _ .gatt none (by simp)

/-- A live session is swapped onto the channel and keeps its handles. -/
theorem openL2capSucceeded (w : Edit) (now lifecycleId upgradeGen : ℕ) (channel : L2capChannel) :
    Holds w (w.openL2capSucceeded now lifecycleId upgradeGen channel) := by
  unfold Edit.openL2capSucceeded
  split
  · exact same rfl
  · split
    · exact enterConnected now _ _ .l2cap (some channel) rfl
    · split
      · exact same (setPath w .l2cap)
      · exact same (setUpgrading _ false)
    · exact same rfl

/-- A live session stays on GATT, with its handles. -/
theorem openL2capFailed (w : Edit) (now lifecycleId upgradeGen : ℕ) (error : String) :
    Holds w (w.openL2capFailed now lifecycleId upgradeGen error) := by
  unfold Edit.openL2capFailed
  split
  · exact same rfl
  · split
    · intro _ hs
      rw [(Kept.push _ rfl).starts] at hs
      exact absurd hs (starts_enterConnected_ne rfl)
    · exact same (setUpgrading _ false)
    · exact same rfl

/-- A session with a pipe is swapped; one without starts its pipe on the channel. -/
theorem inboundL2capChannel (w : Edit) (now : ℕ) (channel : L2capChannel) :
    Holds w (w.inboundL2capChannel now channel) := by
  unfold Edit.inboundL2capChannel
  split
  · split
    · exact same rfl
    · exact same (setPath w .l2cap)
    · exact same rfl
  · exact enterConnected now _ _ .l2cap (some channel) (by simp)

end Holds

/-- Of everything a command may run on an entry, only what offers datagrams or brings a pipe
touches the handles of a session. -/
theorem Turn.Touch.holds {io : Io} {cmd : PeerCommand} {d : DeviceId} {e : PeerEntry}
    {f : Edit → Edit} (hf : Touch io cmd d e f) (hcmd : cmd.offers = false) (w : Edit) :
    Holds w (f w) := by
  -- `.same` where the handles are left alone, `.ended` where the session ends with them
  cases hf with
  | stampExact => exact .same rfl
  | stampVerified => exact .same rfl
  | cancelDial => exact .ended (Holds.drainToDraining _ _ _ _)
  | drainLoser => exact .ended (Holds.drainToDraining _ _ _ _)
  | requestUpgrade => exact .same (Holds.setUpgrading w true)
  | subscribed => exact .peripheralClientSubscribed _ _ _ _ _
  | unsubscribed => exact .peripheralClientUnsubscribed _ _ _ _
  | advertisedSuppressed => exact .same rfl
  | advertised => exact .advertised _ _ _ _
  | sendDatagram => cases hcmd
  | connectSucceeded => exact .connectSucceeded _ _ _ _ _
  | connectFailed => exact .connectFailed _ _ _ _
  | fragment => exact .inboundGattFragment _ _ _ _
  | centralDisconnected => exact .centralDisconnected _ _ _ _
  | adapterOff => exact .ended rfl
  | adapterOn => exact .adapterOn _ _
  | tick => exact .tickApply _ _ _ _
  | forget => exact .ended (by simp [Edit.forget, PeerPhase.isConnected])
  | stalled => exact .ended (Holds.stalled _ _ _ _)
  | shutdown => exact .same rfl
  | dataPipeReady => cases hcmd
  | openL2capSucceeded => exact .openL2capSucceeded _ _ _ _ _
  | openL2capFailed => exact .openL2capFailed _ _ _ _ _
  | inboundL2capChannel => exact .inboundL2capChannel _ _ _
  | protocolVersionMismatch => exact .protocolVersionMismatch _ _ _ _ _ _
  | handoverTimeout => exact .same (Holds.setPath _ _)

/-! ## Sends -/

namespace Edit

/-- The handles are dropped because their outbound channel was found closed. -/
def DropsClosed (w w' : Edit) : Prop :=
  w'.entry.pipe = none ∧
    ∃ h send, w.entry.pipe = some h ∧ TrySend.outbound h.outboundTx send .closed ∈ w'.tried

/-- A flush that reports `closed` has seen it on the channel. -/
theorem Flushed.closed {io : Io} {tx : Sender} {sends : List PendingSend} {w w' : Edit}
    (h : Flushed io tx sends w (w', some .closed)) :
    ∃ send, TrySend.outbound tx send .closed ∈ w'.tried := by
  cases h with
  | @stopped taken rest send result hsends hresult hio =>
      exact ⟨send, List.mem_append_right _ List.mem_cons_self⟩

/-- The flush drops the handles only of a pipe that is gone. -/
theorem drainBuffered_pipe (w : Edit) (io : Io) :
    (w.drainBuffered io).entry.pipe = w.entry.pipe ∨ DropsClosed w (w.drainBuffered io) := by
  have h := drained w io
  generalize w.drainBuffered io = w' at h
  cases h with
  | idle hp => exact .inl rfl
  | flushed hp hf hopen => exact .inl hf.pipe
  | @closed pipe w' hp hf =>
      obtain ⟨send, hsend⟩ := hf.closed
      exact .inr ⟨rfl, pipe, send, hp, hsend⟩

theorem offer_pipe (w : Edit) (io : Io) (send : PendingSend) :
    (w.offer io send).entry.pipe = w.entry.pipe ∨ DropsClosed w (w.offer io send) := by
  unfold offer
  split
  · exact .inl rfl
  · rename_i pipe hp
    split
    · exact .inl rfl
    · exact .inl rfl
    · exact .inr ⟨rfl, pipe, send, hp, by simp [push, modify, attempted]⟩

/-- Sending what was buffered and then the datagram itself drops the handles only of a pipe that
is gone. -/
theorem enqueue_pipe (w : Edit) (io : Io) (send : PendingSend) :
    (w.enqueue io send).entry.pipe = w.entry.pipe ∨ DropsClosed w (w.enqueue io send) := by
  unfold enqueue
  rcases drainBuffered_pipe w io with hp | ⟨hnone, h, s, hp, hs⟩
  · rcases offer_pipe (w.drainBuffered io) io send with hp' | ⟨hnone, h, s, hp', hs⟩
    · exact .inl (hp'.trans hp)
    · exact .inr ⟨hnone, h, s, hp.symm.trans hp', hs⟩
  · right
    refine ⟨?_, h, s, hp, (offer_tried _ io send).subset hs⟩
    rcases offer_pipe (w.drainBuffered io) io send with hp' | ⟨hnone', -⟩
    · exact hp'.trans hnone
    · exact hnone'

/-- In the branches that do not enqueue the handles are not looked at. -/
theorem sendDatagram_pipe (w : Edit) (io : Io) (target : Option EndpointId) (send : PendingSend) :
    (w.sendDatagram io target send).entry.pipe = w.entry.pipe ∨
      DropsClosed w (w.sendDatagram io target send) := by
  unfold sendDatagram
  split
  · exact enqueue_pipe w io send
  · exact .inl rfl
  · exact .inl rfl
  · exact .inl rfl

end Edit

/-! ## Commands -/

namespace Turn

variable {io : Io} {cmd : PeerCommand} {t t' : Turn}

/-- A live entry of `d` in `r'` was live in `r` and had the same handles. -/
def HoldsPipe (r r' : Registry) (d : DeviceId) : Prop :=
  ∀ e', r'.peer d = some e' → e'.phase.isConnected = true →
    ∃ e, r.peer d = some e ∧ e.phase.isConnected = true ∧ e'.pipe = e.pipe

theorem HoldsPipe.refl (r : Registry) (d : DeviceId) : HoldsPipe r r d :=
  fun e he hc => ⟨e, he, hc, rfl⟩

/-- The entry is live in between, or its session is another one. -/
theorem HoldsPipe.trans {r r₁ r' : Registry} {d : DeviceId} (h₁ : HoldsPipe r r₁ d)
    (h₂ : HoldsPipe r₁ r' d) : HoldsPipe r r' d := by
  intro e' he' hc'
  rcases h₂ e' he' hc' with ⟨e₁, he₁, hc₁, hg₁⟩
  rcases h₁ e₁ he₁ hc₁ with ⟨e, he, hc, hg⟩
  exact ⟨e, he, hc, hg₁.trans hg⟩

/-- A fresh entry has no session. -/
theorem holdsPipe_insertNew (t : Turn) (d d' : DeviceId) :
    HoldsPipe t.reg (t.insertNew d).reg d' := by
  intro e' he' hc'
  rw [peer_insertNew] at he'
  split at he'
  · obtain rfl := Option.some.inj he'
    cases hc'
  · exact ⟨e', he', hc', rfl⟩

/-- What holds for the function holds in the registry it is stored in. -/
theorem holdsPipe_store {d d' : DeviceId} {e : PeerEntry} {f : Edit → Edit}
    (he : t.reg.peer d = some e) (hf : Holds (t.focus e) (f (t.focus e)))
    (hk : Kept (t.focus e) (f (t.focus e))) :
    HoldsPipe t.reg (t.store d (f (t.focus e))).reg d' := by
  intro e' he' hc'
  rw [peer_store he] at he'
  split at he'
  · rename_i hd
    subst hd
    obtain rfl := Option.some.inj he'
    exact ⟨e, he, hk.isConnected hc', hf hc' hk.starts⟩
  · exact ⟨e', he', hc', rfl⟩

/-- Commands that neither start pipes nor offer datagrams. -/
theorem holdsPipe_steps (hcmd : cmd.mayStart = false) (hoff : cmd.offers = false)
    (h : Steps io cmd t t') (d : DeviceId) : HoldsPipe t.reg t'.reg d := by
  induction h with
  | refl => exact .refl _ _
  | tail _ hs ih =>
      refine ih.trans ?_
      cases hs with
      | edit he hf => exact holdsPipe_store he (hf.holds hoff _) (hf.kept hcmd _)
      | insert _ hd => exact holdsPipe_insertNew _ _ d
      | fresh hd hf => cases hf <;> cases hcmd
      | verify p endpoint => exact .refl _ d
      | prune => exact .refl _ d
      | gcDead h =>
          intro e' he' hc'
          exact ⟨e', peer_gcDead he', hc', rfl⟩
      | adapter state => exact .refl _ d
      | restore b => exact .refl _ d

/-- The same for a command that edits one entry. -/
theorem holdsPipe_edit {d d' : DeviceId} {f : Edit → Edit}
    (hs : ∀ a ∈ (t.edit d f).starts, a.device? ≠ some d') (hkeyed : t.reg.Keyed)
    (hf : ∀ e, t.reg.peer d = some e → Session (t.focus e) (f (t.focus e)))
    (hh : ∀ e, t.reg.peer d = some e → Holds (t.focus e) (f (t.focus e))) :
    HoldsPipe t.reg (t.edit d f).reg d' := by
  cases he : t.reg.peer d with
  | none =>
      rw [edit_of_none he]
      exact .refl _ d'
  | some e =>
      rw [edit_of_some he] at hs ⊢
      cases hf e he with
      | kept hk => exact holdsPipe_store he (hh e he) hk
      | started hst =>
          -- the pipe is started for another device
          rcases hst.starts with ⟨role, path, l2cap, -, hstarts⟩
          have hne : d' ≠ d := by
            rintro rfl
            have hdev : (f (t.focus e)).entry.deviceId = d' := hst.deviceId.trans (hkeyed d' e he)
            have hall : ∀ a ∈ (f (t.focus e)).starts, a.device? ≠ some d' := hs
            rw [hstarts, hdev] at hall
            exact hall _ (List.mem_append_right _ List.mem_cons_self) rfl
          intro e' he' hc'
          rw [peer_store he, if_neg hne] at he'
          exact ⟨e', he', hc', rfl⟩

end Turn

namespace Registry

open Turn

theorem handle_holdsPipe {r : Registry} (hk : r.Keyed) (io : Io) {cmd : PeerCommand} {d : DeviceId}
    (hoff : cmd.offers = false) (hs : ∀ a ∈ (r.handle io cmd).starts, a.device? ≠ some d) :
    HoldsPipe r (r.handle io cmd).reg d := by
  -- a command that may start a pipe edits one entry; another command goes step by step
  by_cases hcmd : cmd.mayStart = true
  · have hedit : ∀ {d₀ : DeviceId} {f : Edit → Edit}, (∀ e, Touch io cmd d₀ e f) →
        (∀ a ∈ ((start r).edit d₀ f).starts, a.device? ≠ some d) →
        HoldsPipe r ((start r).edit d₀ f).reg d := fun hf hs =>
      holdsPipe_edit hs hk (fun e _ => (hf e).session _) fun e _ => (hf e).holds hoff _
    have hfresh : ∀ {d₀ : DeviceId} {f : Edit → Edit}, TouchFresh io cmd d₀ f →
        r.peer d₀ = none → (∀ a ∈ (((start r).ensure d₀).edit d₀ f).starts, a.device? ≠ some d) →
        HoldsPipe r (((start r).ensure d₀).edit d₀ f).reg d := by
      intro d₀ f hf hd hs
      rw [ensure_of_none (t := start r) hd] at hs ⊢
      refine (holdsPipe_insertNew (start r) d₀ d).trans
        (holdsPipe_edit hs (keyed_insertNew (t := start r) hk d₀) (fun e he => ?_) fun e he => ?_)
      · -- the fresh entry is the one that was just inserted
        rw [peer_insertNew, if_pos rfl] at he
        obtain rfl := Option.some.inj he
        exact hf.session rfl
      · cases hf with
        | fragment => exact .same rfl
        | inboundL2capChannel => exact .same rfl
    cases cmd with
    | connectSucceeded d₀ l channel => exact hedit (fun e => .connectSucceeded (failed_of_wantsUpgrade _ d₀)) hs
    | openL2capSucceeded d₀ l u channel => exact hedit (fun e => .openL2capSucceeded) hs
    | openL2capFailed d₀ l u error => exact hedit (fun e => .openL2capFailed) hs
    | inboundGattFragment d₀ source bytes =>
        cases hd : r.peer d₀ with
        | none =>
            rw [handle_fragment_of_none hd] at hs ⊢
            exact hfresh .fragment hd hs
        | some e =>
            rw [handle_fragment_of_some hd] at hs ⊢
            exact hedit (fun e => .fragment) hs
    | inboundL2capChannel d₀ channel =>
        cases hd : r.peer d₀ with
        | none =>
            rw [handle_l2cap_of_none hd] at hs ⊢
            exact hfresh .inboundL2capChannel hd hs
        | some e =>
            rw [handle_l2cap_of_some hd] at hs ⊢
            exact hedit (fun e => .inboundL2capChannel) hs
    | peripheralClientSubscribed d₀ c p =>
        -- the entry is made first, which no handles are lost by
        have hsteps : Steps io (.centralConnected d₀) (start r) ((start r).ensure d₀) :=
          Steps.ensure rfl d₀
        exact (holdsPipe_steps rfl rfl hsteps d).trans (holdsPipe_edit hs (keyed_steps hk hsteps)
          (fun e _ => .peripheralClientSubscribed _ _ _ _ _)
          fun e _ => .peripheralClientSubscribed _ _ _ _ _)
    | _ => cases hcmd
  · exact holdsPipe_steps (by simpa using hcmd) hoff (handle_steps io cmd r) d

/-- With the lookups before the handler: forgetting a device ends its session. -/
theorem runCommand_holdsPipe {r : Registry} (hk : r.Keyed) (io : Io)
    (exact replaced : Option DeviceId) {cmd : PeerCommand} {d : DeviceId} (hoff : cmd.offers = false)
    (hs : ∀ a ∈ (r.runCommand io exact replaced cmd).starts, a.device? ≠ some d) :
    HoldsPipe r (r.runCommand io exact replaced cmd).reg d := by
  by_cases hv : ∃ endpoint token, cmd = .verifiedEndpoint endpoint token
  · rcases hv with ⟨endpoint, token, rfl⟩
    unfold runCommand
    dsimp only
    have hverify : ∀ t : Turn, HoldsPipe r t.reg d →
        HoldsPipe r (t.handleVerifiedEndpoint io endpoint exact).reg d := by
      intro t ht
      have hsteps : Steps io (.verifiedEndpoint endpoint token) t _ :=
        handleVerifiedEndpoint_steps exact
      exact ht.trans (holdsPipe_steps rfl rfl hsteps d)
    split
    · rename_i d₀ previous
      exact hverify _ (holdsPipe_steps rfl rfl (handle_steps io (.forget previous) r) d)
    · exact hverify _ (.refl r d)
  · rw [runCommand_of_ne fun endpoint token h => hv ⟨endpoint, token, h⟩] at hs ⊢
    exact handle_holdsPipe hk io hoff hs

/-- `Stalled` leaves no live session. -/
theorem handle_stalled_peer {r : Registry} {io : Io} {d : DeviceId} {cause : StallCause}
    {e' : PeerEntry} (he' : (r.handle io (.stalled d cause)).reg.peer d = some e') :
    e'.phase.isConnected = false := by
  change ((start r).edit d (Edit.stalled io.now io.systemNow cause)).reg.peer d = some e' at he'
  cases he : (start r).reg.peer d with
  | none =>
      rw [edit_of_none he, he] at he'
      cases he'
  | some e =>
      rw [edit_of_some he, peer_store he, if_pos rfl] at he'
      obtain rfl := Option.some.inj he'
      exact Holds.stalled _ _ _ _

/-- After a send, a live entry has its handles still, or they were dropped because their
outbound channel was found closed. -/
theorem handle_sendDatagram_pipe {r : Registry} {io : Io} {d d₀ : DeviceId}
    {target : Option EndpointId} {txGen : ℕ} {datagram : Bytes} {waker : Waker} {e' : PeerEntry}
    (he' : (r.handle io (.sendDatagram d₀ target txGen datagram waker)).reg.peer d = some e')
    (hc : e'.phase.isConnected = true) :
    ∃ e, r.peer d = some e ∧ e.phase.isConnected = true ∧ (e'.pipe = e.pipe ∨ e'.pipe = none ∧
      ∃ h send, e.pipe = some h ∧ TrySend.outbound h.outboundTx send .closed ∈
        (r.handle io (.sendDatagram d₀ target txGen datagram waker)).tried) := by
  -- a send may make the entry first, without handles
  have hsteps : Steps io (.centralConnected d₀) (start r) ((start r).ensure d₀) := Steps.ensure rfl d₀
  change (((start r).ensure d₀).edit d₀ (Edit.sendDatagram io target ⟨txGen, datagram, waker⟩)).reg.peer
    d = some e' at he'
  change ∃ e, _ ∧ _ ∧ (_ ∨ _ ∧ ∃ h send, _ ∧ _ ∈ (((start r).ensure d₀).edit d₀
    (Edit.sendDatagram io target ⟨txGen, datagram, waker⟩)).tried)
  generalize (start r).ensure d₀ = t at hsteps he' ⊢
  have hheld : HoldsPipe r t.reg d := holdsPipe_steps rfl rfl hsteps d
  cases he : t.reg.peer d₀ with
  | none =>
      rw [edit_of_none he] at he' ⊢
      rcases hheld e' he' hc with ⟨e, hr, hce, hp⟩
      exact ⟨e, hr, hce, .inl hp⟩
  | some e₁ =>
      rw [edit_of_some he] at he' ⊢
      rw [peer_store he] at he'
      split at he'
      · rename_i hd
        subst hd
        obtain rfl := Option.some.inj he'
        have hc₁ := (Kept.sendDatagram (t.focus e₁) io target ⟨txGen, datagram, waker⟩).isConnected hc
        rcases hheld e₁ he hc₁ with ⟨e, hr, hce, hp⟩
        refine ⟨e, hr, hce, ?_⟩
        rcases Edit.sendDatagram_pipe (t.focus e₁) io target ⟨txGen, datagram, waker⟩ with
          hsame | ⟨hnone, h, send, hh, hmem⟩
        · exact .inl (hsame.trans hp)
        · exact .inr ⟨hnone, h, send, hp.symm.trans hh, hmem⟩
      · rcases hheld e' he' hc with ⟨e, hr, hce, hp⟩
        exact ⟨e, hr, hce, .inl hp⟩

/-- The handles arrive at the entry they were made for if its generation is still the current one.
-/
theorem handle_dataPipeReady_pipe {r : Registry} {io : Io} {d d₀ : DeviceId} {txGen : ℕ}
    {handles : PipeHandles} {e' : PeerEntry}
    (he' : (r.handle io (.dataPipeReady d₀ txGen handles)).reg.peer d = some e') :
    ∃ e, r.peer d = some e ∧ e'.txGen = e.txGen ∧
      e'.pipe = if d = d₀ ∧ e.txGen = txGen then some handles else e.pipe := by
  change ((start r).edit d₀ (Edit.dataPipeReady io txGen handles)).reg.peer d = some e' at he'
  -- handles for an unknown device are dropped
  cases he : (start r).reg.peer d₀ with
  | none =>
      rw [edit_of_none he] at he'
      refine ⟨e', he', rfl, ?_⟩
      rw [if_neg]
      rintro ⟨rfl, -⟩
      rw [he] at he'
      cases he'
  | some e =>
      rw [edit_of_some he, peer_store he] at he'
      split at he'
      · rename_i hd
        subst hd
        obtain rfl := Option.some.inj he'
        refine ⟨e, he, (Kept.dataPipeReady _ _ _ _).txGen, ?_⟩
        -- those of an earlier generation are dropped too
        by_cases hg : e.txGen = txGen
        · rcases Edit.dataPipeReady_entry ((start r).focus e) io txGen handles hg with ⟨l, l', hentry⟩
          rw [hentry, if_pos ⟨rfl, hg⟩]
        · rw [if_neg fun h => hg h.2]
          have hsame : ((start r).focus e).dataPipeReady io txGen handles = (start r).focus e := by
            exact if_pos hg
          rw [hsame]
          rfl
      · rename_i hne
        exact ⟨e', he', rfl, (if_neg fun h => hne h.1).symm⟩

end Registry

end IrohBle
