import IrohBle.Registry.FailedDial
import IrohBle.Registry.Session

/-! # Registry.Role: the role of a started pipe

A pipe of the role `Central` writes to the peer's characteristics, one of the role
`Peripheral` notifies on the local ones, so the role has to follow who dialled:
`expectedRole` reads it off the command that starts the pipe.

* `entry.role` is sticky: it survives drains and redials. `ConnectSucceeded` and an
  `InboundL2capChannel` for an entry without a pipe take the role from it, and a
  notification of a device without an entry starts a peripheral pipe.
* `role_follows_iff`: these three are the only ways to get the role wrong.
* `noHandshake_of_run`: the phase `Handshaking`, whose arms inherit the role too, is
  never entered.
-/

namespace IrohBle

open Lib Reliable Registry

/-- Who dialled, going by the command that starts a pipe. -/
def PeerCommand.expectedRole : PeerCommand → Option ConnectRole
  | .connectSucceeded .. => some .central
  | .inboundGattFragment _ .centralReceivedP2c _ => some .central
  | .inboundGattFragment _ .peripheralReceivedC2p _ => some .peripheral
  | .inboundL2capChannel .. => some .peripheral
  | .peripheralClientSubscribed .. => some .peripheral
  | _ => none

/-- The role that a pipe is started in. -/
def PeerAction.pipeRole? : PeerAction → Option ConnectRole
  | .startDataPipe _ _ _ role _ _ _ => some role
  | _ => none

namespace Edit

variable (w : Edit)

/-- A dial starts its pipe in the role that the entry has. -/
theorem connectSucceeded_starts (now lifecycleId : ℕ) (channel : ChannelHandle)
    (upgrade : PeerEntry → Bool) (hl : w.entry.lifecycleId = lifecycleId)
    (hp : w.entry.phase.isConnecting = true) :
    (w.connectSucceeded now lifecycleId channel upgrade).starts =
      w.starts ++ [.startDataPipe w.entry.deviceId w.entry.lifecycleId (w.entry.txGen + 1)
        w.entry.role w.entry.targetEndpoint .gatt none] := by
  unfold connectSucceeded
  rw [if_neg (by simp [hl, hp])]
  dsimp only
  split <;> simp [PeerAction.isStartDataPipe]

theorem restartPeripheralGattPipe_starts (now : ℕ) (first : Option Bytes) (char : Option Uuid) :
    ∃ l g target, (w.restartPeripheralGattPipe now first char).starts =
      w.starts ++ [.startDataPipe w.entry.deviceId l g .peripheral target .gatt none] := by
  simp [restartPeripheralGattPipe]

/-- Outside `Handshaking`, a fragment starts no pipe or one of its source's role. -/
theorem inboundGattFragment_starts (io : Io) (source : FragmentSource) (bytes : Bytes)
    (hs : w.entry.phase.isHandshaking = false) :
    (w.inboundGattFragment io source bytes).starts = w.starts ∨
      ∃ l g target, (w.inboundGattFragment io source bytes).starts =
        w.starts ++ [.startDataPipe w.entry.deviceId l g (roleOfSource source) target .gatt none] := by
  unfold inboundGattFragment
  dsimp only
  split
  · rename_i since channel hp
    have hshake : w.entry.phase = .handshaking since channel := hp
    rw [hshake] at hs
    cases hs
  · split
    · exact Or.inl rfl
    · split
      · rename_i hc
        rw [hc.2.2]
        exact Or.inr (restartPeripheralGattPipe_starts _ io.now (some bytes) none)
      · exact Or.inl rfl
  · exact Or.inl rfl
  · right
    unfold reviveByFragment
    dsimp only
    split <;> simp

/-- If it starts one at all. -/
theorem peripheralClientSubscribed_starts (now : ℕ) (c : Uuid) (p : Option KeyPrefix)
    (verified : Option EndpointId) :
    (w.peripheralClientSubscribed now c p verified).starts = w.starts ∨
      ∃ d l g target, (w.peripheralClientSubscribed now c p verified).starts =
        w.starts ++ [.startDataPipe d l g .peripheral target .gatt none] := by
  have hnote := noteSubscriber_starts w now c p verified
  have hrestart := restartPeripheralGattPipe_starts (w.noteSubscriber now c p verified) now none
    (some c)
  rw [hnote] at hrestart
  unfold peripheralClientSubscribed
  dsimp only
  split
  · split
    · exact Or.inl hnote
    · exact Or.inr ⟨_, hrestart⟩
  · exact Or.inl hnote
  · exact Or.inl hnote
  · exact Or.inr ⟨_, hrestart⟩

/-- A channel for a running pipe starts none. -/
theorem inboundL2capChannel_starts_of_pipe (now : ℕ) (channel : L2capChannel) {pipe : PipeHandles}
    (hp : w.entry.pipe = some pipe) : (w.inboundL2capChannel now channel).starts = w.starts := by
  unfold inboundL2capChannel
  rw [hp]
  dsimp only
  split <;> simp [PeerAction.isStartDataPipe]

/-- Otherwise the pipe takes the role that the entry has. -/
theorem inboundL2capChannel_starts_of_none (now : ℕ) (channel : L2capChannel)
    (hp : w.entry.pipe = none) :
    ∃ l g target, (w.inboundL2capChannel now channel).starts =
      w.starts ++ [.startDataPipe w.entry.deviceId l g w.entry.role target .l2cap (some channel)] := by
  unfold inboundL2capChannel
  rw [hp]
  simp

end Edit

namespace Registry

open Turn

/-! ## `Handshaking` is never entered -/

/-- Nobody is in a handshake. -/
def NoHandshake (r : Registry) : Prop := ∀ d e, r.peer d = some e → e.phase.isHandshaking = false

/-- No function enters one. -/
theorem session_noHandshake {w w' : Edit} (h : Session w w')
    (hw : w.entry.phase.isHandshaking = false) : w'.entry.phase.isHandshaking = false := by
  cases h with
  | kept hk =>
      by_contra hne
      rw [Bool.not_eq_false] at hne
      rw [hk.shaking hne] at hw
      cases hw
  | started hs =>
      have hl := hs.live
      cases hp : w'.entry.phase with
      | handshaking since channel =>
          rw [hp] at hl
          cases hl
      | _ => rfl

theorem noHandshake_of_run {h : List (Registry × Label)} {r : Registry} (hrun : system.Run h r) :
    r.NoHandshake := by
  refine all_of_run (fun n d => rfl) ?_ ?_ hrun
  · intro io cmd d f w hf hw
    exact session_noHandshake (hf.session w) hw
  · intro io cmd d f w n hf hw
    cases hf <;> rfl

/-! ## The role follows the command -/

/-- Every pipe the command starts has the role it calls for. -/
def RoleFollows (cmd : PeerCommand) (actions : List PeerAction) : Prop :=
  ∀ role, cmd.expectedRole = some role → ∀ a ∈ actions, ∀ role', a.pipeRole? = some role' →
    role' = role

/-- The step is not a command, or every pipe it starts has the right role. -/
def RoleStep (r : Registry) : Label → Prop
  | .reorder _ => True
  | .command io cmd => RoleFollows cmd (r.handle io cmd).actions

/-- The entry's sticky role, where the command relies on it, is the right one; a
notification comes from a device that has an entry. -/
def RoleKnown (r : Registry) : Label → Prop
  | .command _ (.connectSucceeded d l _) =>
    ∀ e, r.peer d = some e → e.lifecycleId = l → e.phase.isConnecting = true → e.role = .central
  | .command _ (.inboundGattFragment d .centralReceivedP2c _) => (r.peer d).isSome = true
  | .command _ (.inboundL2capChannel d _) =>
    ∀ e, r.peer d = some e → e.pipe = none → e.role = .peripheral
  | _ => True

theorem pipeRole?_isStart {a : PeerAction} {role : ConnectRole} (h : a.pipeRole? = some role) :
    a.isStartDataPipe = true := by
  cases a <;> first | rfl | cases h

/-- With no pipe started there is nothing to check. -/
theorem roleFollows_of_starts_nil {cmd : PeerCommand} {w : Edit} (h : w.starts = []) :
    RoleFollows cmd w.actions := by
  intro role _ a ha role' hrole
  have hmem : a ∈ w.starts := List.mem_filter.mpr ⟨ha, pipeRole?_isStart hrole⟩
  rw [h] at hmem
  cases hmem

/-- With one pipe started its role has to be the expected one. -/
theorem roleFollows_of_starts_singleton {cmd : PeerCommand} {w : Edit} {a : PeerAction}
    {role role' : ConnectRole} (h : w.starts = [a]) (ha : a.pipeRole? = some role')
    (hcmd : cmd.expectedRole = some role) : RoleFollows cmd w.actions ↔ role' = role := by
  constructor
  · intro hf
    have hmem : a ∈ w.starts := by
      rw [h]
      exact List.mem_singleton.mpr rfl
    exact hf role hcmd a (List.mem_filter.mp hmem).1 role' ha
  · intro hrole role₁ hrole₁ b hb role₂ hb₂
    have hmem : b ∈ w.starts := List.mem_filter.mpr ⟨hb, pipeRole?_isStart hb₂⟩
    rw [h, List.mem_singleton] at hmem
    subst hmem
    rw [ha] at hb₂
    rw [hcmd] at hrole₁
    rw [← Option.some.inj hb₂, ← Option.some.inj hrole₁]
    exact hrole

theorem actions_edit {r : Registry} {d : DeviceId} {e : PeerEntry} {f : Edit → Edit}
    (he : r.peer d = some e) : ((start r).edit d f).actions = (f ((start r).focus e)).actions := by
  rw [edit_of_some he]
  rfl

theorem starts_focus (r : Registry) (e : PeerEntry) : ((start r).focus e).starts = [] := rfl

/-- A dial's pipe has the right role exactly if the entry's is the dialler's. -/
theorem roleStep_connectSucceeded (r : Registry) (io : Io) (d : DeviceId) (l : ℕ)
    (channel : ChannelHandle) :
    RoleStep r (.command io (.connectSucceeded d l channel)) ↔
      RoleKnown r (.command io (.connectSucceeded d l channel)) := by
  change RoleFollows _ ((start r).handleConnectSucceeded io d l channel).actions ↔ _
  unfold handleConnectSucceeded
  cases he : r.peer d with
  | none =>
      rw [edit_of_none he]
      refine iff_of_true (roleFollows_of_starts_nil (w := (start r).focus (newEntry 0 d)) rfl) ?_
      intro e he'
      rw [he] at he'
      cases he'
  | some e =>
      rw [actions_edit he]
      by_cases hacc : e.lifecycleId = l ∧ e.phase.isConnecting = true
      · have hs := Edit.connectSucceeded_starts ((start r).focus e) io.now l channel
          ((start r).wantsUpgrade d) hacc.1 hacc.2
        rw [starts_focus, List.nil_append] at hs
        rw [roleFollows_of_starts_singleton hs rfl rfl]
        constructor
        · intro hrole e' he' _ _
          obtain rfl : e = e' := Option.some.inj (he.symm.trans he')
          exact hrole
        · intro hknown
          exact hknown e he hacc.1 hacc.2
      · -- a superseded attempt, or one that is over: dropped
        have hskip : Edit.connectSucceeded io.now l channel ((start r).wantsUpgrade d)
            ((start r).focus e) = (start r).focus e := by
          unfold Edit.connectSucceeded
          rw [if_pos]
          by_cases hl : e.lifecycleId = l
          · exact Or.inr fun hp => hacc ⟨hl, hp⟩
          · exact Or.inl hl
        rw [hskip]
        refine iff_of_true (roleFollows_of_starts_nil rfl) ?_
        intro e' he' hl hp
        obtain rfl : e = e' := Option.some.inj (he.symm.trans he')
        exact absurd ⟨hl, hp⟩ hacc

/-- The actions of a command that runs `f` on the entry it has just inserted. -/
theorem actions_fresh {r : Registry} {d : DeviceId} {f : Edit → Edit} (hd : r.peer d = none) :
    (((start r).ensure d).edit d f).actions =
      (f (((start r).insertNew d).focus (newEntry r.nextLifecycle d))).actions := by
  have he : ((start r).insertNew d).reg.peer d = some (newEntry r.nextLifecycle d) :=
    peer_insertNew_self (start r) d
  rw [ensure_of_none hd, edit_of_some he]
  rfl

/-- A fragment's pipe has it unless it makes an entry from the central's side. -/
theorem roleStep_fragment {r : Registry} (hr : r.NoHandshake) (io : Io) (d : DeviceId)
    (source : FragmentSource) (bytes : Bytes) :
    RoleStep r (.command io (.inboundGattFragment d source bytes)) ↔
      RoleKnown r (.command io (.inboundGattFragment d source bytes)) := by
  change RoleFollows _ ((start r).handleInboundGattFragment io d source bytes).actions ↔ _
  unfold handleInboundGattFragment
  -- a device without an entry: the fragment makes one, in the peripheral's role
  cases he : r.peer d with
  | none =>
      simp only [peer_start, he]
      rw [actions_fresh he]
      have hs : (Edit.inboundGattFragmentFresh io.now bytes
          (((start r).insertNew d).focus (newEntry r.nextLifecycle d))).starts =
          [.startDataPipe d r.nextLifecycle 1 .peripheral none .gatt none] := rfl
      cases source with
      | centralReceivedP2c =>
          rw [roleFollows_of_starts_singleton hs rfl rfl]
          simp [RoleKnown, he]
      | peripheralReceivedC2p =>
          rw [roleFollows_of_starts_singleton hs rfl rfl]
          exact iff_of_true rfl trivial
  -- an entry that was there starts its pipe in its own role
  | some e =>
      simp only [peer_start, he]
      rw [actions_edit he]
      refine iff_of_true ?_ ?_
      · rcases Edit.inboundGattFragment_starts ((start r).focus e) io source bytes (hr d e he) with
          hs | ⟨l, g, target, hs⟩
        · exact roleFollows_of_starts_nil (hs.trans (starts_focus r e))
        · rw [starts_focus, List.nil_append] at hs
          cases source with
          | centralReceivedP2c => exact (roleFollows_of_starts_singleton hs rfl rfl).mpr rfl
          | peripheralReceivedC2p => exact (roleFollows_of_starts_singleton hs rfl rfl).mpr rfl
      · cases source <;> simp [RoleKnown, he]

/-- An accepted channel's pipe has it exactly if the entry is the peripheral's, or starts none. -/
theorem roleStep_inboundL2capChannel (r : Registry) (io : Io) (d : DeviceId)
    (channel : L2capChannel) :
    RoleStep r (.command io (.inboundL2capChannel d channel)) ↔
      RoleKnown r (.command io (.inboundL2capChannel d channel)) := by
  change RoleFollows _ ((start r).handleInboundL2capChannel io d channel).actions ↔ _
  unfold handleInboundL2capChannel
  cases he : r.peer d with
  | none =>
      simp only [peer_start, he]
      rw [actions_fresh he]
      have hs : (Edit.inboundL2capChannelFresh io.now channel
          (((start r).insertNew d).focus (newEntry r.nextLifecycle d))).starts =
          [.startDataPipe d r.nextLifecycle 1 .peripheral none .l2cap (some channel)] := rfl
      rw [roleFollows_of_starts_singleton hs rfl rfl]
      refine iff_of_true rfl ?_
      intro e he'
      rw [he] at he'
      cases he'
  | some e =>
      simp only [peer_start, he]
      rw [actions_edit he]
      cases hp : e.pipe with
      | none =>
          rcases Edit.inboundL2capChannel_starts_of_none ((start r).focus e) io.now channel hp with
            ⟨l, g, target, hs⟩
          rw [starts_focus, List.nil_append] at hs
          rw [roleFollows_of_starts_singleton hs rfl rfl]
          constructor
          · intro hrole e' he' _
            obtain rfl : e = e' := Option.some.inj (he.symm.trans he')
            exact hrole
          · intro hknown
            exact hknown e he hp
      | some pipe =>
          -- a pipe is there already: the channel joins it, or is dropped
          have hs := Edit.inboundL2capChannel_starts_of_pipe ((start r).focus e) io.now channel hp
          refine iff_of_true (roleFollows_of_starts_nil (hs.trans (starts_focus r e))) ?_
          intro e' he' hnone
          obtain rfl : e = e' := Option.some.inj (he.symm.trans he')
          rw [hp] at hnone
          cases hnone

/-- A subscription's pipe always has it. -/
theorem roleStep_subscribed (r : Registry) (io : Io) (d : DeviceId) (c : Uuid)
    (p : Option KeyPrefix) :
    RoleStep r (.command io (.peripheralClientSubscribed d c p)) := by
  change RoleFollows _ ((start r).handlePeripheralClientSubscribed io d c p).actions
  unfold handlePeripheralClientSubscribed
  have hedit : ∀ w : Edit, w.starts = [] → ∀ verified,
      RoleFollows (.peripheralClientSubscribed d c p)
        (w.peripheralClientSubscribed io.now c p verified).actions := by
    intro w hw verified
    rcases Edit.peripheralClientSubscribed_starts w io.now c p verified with hs | ⟨d', l, g, t, hs⟩
    · exact roleFollows_of_starts_nil (hs.trans hw)
    · rw [hw, List.nil_append] at hs
      exact (roleFollows_of_starts_singleton hs rfl rfl).mpr rfl
  cases he : r.peer d with
  | none =>
      rw [actions_fresh he]
      exact hedit _ rfl _
  | some e =>
      rw [ensure_of_some he, actions_edit he]
      exact hedit _ rfl _

/-- One step starts its pipe in the right role exactly when the condition holds. -/
theorem roleStep_iff {r : Registry} (hr : r.NoHandshake) (l : Label) :
    RoleStep r l ↔ RoleKnown r l := by
  cases l with
  | reorder ks => exact Iff.rfl
  | command io cmd =>
      cases cmd with
      | connectSucceeded d l channel => exact roleStep_connectSucceeded r io d l channel
      | inboundGattFragment d source bytes => exact roleStep_fragment hr io d source bytes
      | inboundL2capChannel d channel => exact roleStep_inboundL2capChannel r io d channel
      | peripheralClientSubscribed d c p =>
          exact iff_of_true (roleStep_subscribed r io d c p) trivial
      | _ =>
          refine iff_of_true ?_ trivial
          intro role hrole
          cases hrole

/-- In a run from `Registry::new`, every pipe is started in the role of who dialled
exactly when every command that relies on the entry's sticky role finds the right one
there, and no notification comes from a device without an entry. -/
theorem role_follows_iff {h : List (Registry × Label)} {r : Registry} (hrun : system.Run h r) :
    System.Meets RoleStep h ↔ System.Meets RoleKnown h := by
  have hstep : ∀ x ∈ h, RoleStep x.1 x.2 ↔ RoleKnown x.1 x.2 := by
    intro x hx
    rcases hrun.prefix_run x hx with ⟨h', -, hrun'⟩
    exact roleStep_iff (noHandshake_of_run hrun') x.2
  constructor
  · intro hrole x hx
    exact (hstep x hx).mp (hrole x hx)
  · intro hknown x hx
    exact (hstep x hx).mpr (hknown x hx)

instance (r : Registry) (l : Label) : Decidable (RoleKnown r l) :=
  match l with
  | .reorder _ => isTrue trivial
  | .command _ cmd =>
    match cmd with
    | .connectSucceeded d l _ =>
      inferInstanceAs (Decidable (∀ e ∈ r.peer d,
        e.lifecycleId = l → e.phase.isConnecting = true → e.role = .central))
    | .inboundGattFragment d .centralReceivedP2c _ =>
      inferInstanceAs (Decidable ((r.peer d).isSome = true))
    | .inboundL2capChannel d _ =>
      inferInstanceAs (Decidable (∀ e ∈ r.peer d, e.pipe = none → e.role = .peripheral))
    | .inboundGattFragment _ .peripheralReceivedC2p _ | .advertised .. | .centralConnected _
    | .centralDisconnected .. | .adapterStateChanged _ | .sendDatagram .. | .tick _
    | .connectFailed .. | .openL2capSucceeded .. | .openL2capFailed .. | .protocolVersionMismatch ..
    | .stalled .. | .forget _ | .dataPipeReady .. | .verifiedEndpoint ..
    | .peripheralClientSubscribed .. | .peripheralClientUnsubscribed .. | .l2capHandoverTimeout _
    | .shutdown => isTrue trivial

/-- A dial that succeeds, and a client that subscribes. -/
def rolesRun : List Label :=
  dialRun ++ [.command (ioAt 2) (.connectSucceeded "peer" 2 ⟨0, .gatt⟩),
    .command (ioAt 3) (.peripheralClientSubscribed "client" 0 none)]

/-- On a run: a dial and a subscription. -/
theorem role_follows_rolesRun :
    ∃ h r, system.Run h r ∧ h.map Prod.snd = rolesRun ∧ System.Meets RoleStep h := by
  obtain ⟨h, r, hrun, hC, hl, -⟩ := System.Run.of_execMeets (C := RoleKnown) (P := fun _ => True)
    rolesRun (init_new .disabled localEndpoint) (by decide +kernel)
  exact ⟨h, r, hrun, hl, (role_follows_iff hrun).mpr hC⟩

/-- The peer dials us, hangs up, is forgotten, advertises again, and is dialled. -/
def redialRun : List Label :=
  [.command (ioAt 0) (.peripheralClientSubscribed "peer" 0 (some peerPrefix)),
    .command (ioAt 1) (.peripheralClientUnsubscribed "peer" 0),
    .command (ioAt 2) (.tick (secs 6)),
    .command (ioAt (secs 6)) (.advertised peerPrefix "peer" none),
    .command (ioAt (secs 6)) (.sendDatagram "peer" none 0 [1] 0)]

/-- The dial succeeds: the pipe is started in the role of the session before. -/
theorem redial_starts_peripheral :
    ∃ h r, system.Run h r ∧ h.map Prod.snd = redialRun ∧
      PeerAction.startDataPipe "peer" 5 2 .peripheral none .gatt none ∈
        (r.handle (ioAt (secs 7)) (.connectSucceeded "peer" 5 ⟨0, .gatt⟩)).actions ∧
      ¬ RoleStep r (.command (ioAt (secs 7)) (.connectSucceeded "peer" 5 ⟨0, .gatt⟩)) := by
  obtain ⟨h, r, hrun, hl, hmem⟩ := System.Run.of_exec
    (P := fun r : Registry => PeerAction.startDataPipe "peer" 5 2 .peripheral none .gatt none ∈
      (r.handle (ioAt (secs 7)) (.connectSucceeded "peer" 5 ⟨0, .gatt⟩)).actions)
    redialRun (init_new .disabled localEndpoint) (by decide +kernel)
  refine ⟨h, r, hrun, hl, hmem, ?_⟩
  intro hstep
  have hrole := hstep .central rfl _ hmem .peripheral rfl
  cases hrole

end Registry

end IrohBle
