import IrohBle.Registry.EntrySpec
import IrohBle.Registry.Steps

/-! # Registry.Moved: what a function does to an entry's lifecycle

The driver carries out some actions on the lane of a device: these are its orders. `Moved`
says once what a function that runs on an entry may do to the lifecycle and the phase, and
which orders it pushes with that; what holds of lifecycles and lanes is derived from it.

* `Touch.moved`: every function a command may run is one of these moves.
* `Handshaking` is entered by nothing and left out.
-/

namespace IrohBle

open Lib Reliable Registry

/-- The actions carried out on the lane of a device. -/
def PeerAction.isOrder : PeerAction → Bool
  | .startConnect .. | .readVersion .. | .retireLifecycle .. | .closeChannel ..
  | .closeNativeConnection .. | .refresh .. | .startDataPipe .. | .upgradeToL2cap .. => true
  | _ => false

/-- The phases in which the lifecycle is the driver's active one. -/
def PeerPhase.isLive : PeerPhase → Bool
  | .connecting .. | .connected .. => true
  | _ => false

namespace Edit

/-! ## Orders pushed -/

section Orders

variable (w : Edit)

/-- What a function has ordered from the lanes so far. -/
def orders : List PeerAction := w.actions.filter PeerAction.isOrder

theorem orders_append {w w' : Edit} {l : List PeerAction} (h : w'.actions = w.actions ++ l) :
    w'.orders = w.orders ++ l.filter PeerAction.isOrder := by
  unfold orders
  rw [h, List.filter_append]

@[simp] theorem push_orders (a : PeerAction) :
    (w.push a).orders = if a.isOrder then w.orders ++ [a] else w.orders := by
  rw [orders_append (w := w) rfl]
  cases h : a.isOrder <;> simp [h]

@[simp] theorem modify_orders (f : PeerEntry → PeerEntry) : (w.modify f).orders = w.orders := rfl

@[simp] theorem setPhase_orders (phase : PeerPhase) : (w.setPhase phase).orders = w.orders := rfl

@[simp] theorem attempted_orders (a : TrySend) : (w.attempted a).orders = w.orders := rfl

@[simp] theorem enterConnected_orders (now : ℕ) (channel : ChannelHandle) :
    (w.enterConnected now channel).orders = w.orders := rfl

@[simp] theorem abandonOutstanding_orders :
    w.abandonOutstanding.orders =
      w.orders ++ [.retireLifecycle w.entry.deviceId w.entry.lifecycleId] := by
  rw [orders_append (w := w) rfl]
  simp [PeerAction.isOrder]

@[simp] theorem beginConnect_orders (now attempt : ℕ) :
    (w.beginConnect now attempt).orders =
      w.orders ++ [.retireLifecycle w.entry.deviceId w.entry.lifecycleId,
        .startConnect w.entry.deviceId attempt w.nextLifecycle] := by
  simp [beginConnect, PeerAction.isOrder]

@[simp] theorem clearConnectionState_orders :
    w.clearConnectionState.orders =
      w.orders ++ [.retireLifecycle w.entry.deviceId w.entry.lifecycleId] := by
  simp [clearConnectionState]

@[simp] theorem failPending_orders (kind : ErrorKind) : (w.failPending kind).orders = w.orders := by
  rw [orders_append (w := w) rfl]
  simp [List.filter_eq_nil_iff, PeerAction.isOrder]

/-- The end of a session orders the end of its lifecycle and no more: closing the link is left to
the caller. -/
@[simp] theorem drainToDraining_orders (now systemNow : ℕ) (reason : DisconnectReason) :
    (w.drainToDraining now systemNow reason).orders =
      w.orders ++ [.retireLifecycle w.entry.deviceId w.entry.lifecycleId] := by
  unfold drainToDraining
  dsimp only
  split
  · split <;> simp [PeerAction.isOrder]
  · simp

@[simp] theorem dialFailed_orders (now attempt : ℕ) (metric : String) (reason : DisconnectReason) :
    (w.dialFailed now attempt metric reason).orders = w.orders := by
  unfold dialFailed
  dsimp only
  split
  · split <;> simp [PeerAction.isOrder]
  · simp [PeerAction.isOrder]

@[simp] theorem dialFailed_nextLifecycle (now attempt : ℕ) (metric : String)
    (reason : DisconnectReason) :
    (w.dialFailed now attempt metric reason).nextLifecycle = w.nextLifecycle := by
  unfold dialFailed
  dsimp only
  split
  · split <;> rfl
  · rfl

@[simp] theorem setUpgrading_orders (upgrading : Bool) :
    (w.setUpgrading upgrading).orders = w.orders := by
  unfold setUpgrading
  split <;> rfl

@[simp] theorem requestUpgrade_orders :
    w.requestUpgrade.orders = w.orders ++
      [.upgradeToL2cap w.entry.deviceId w.entry.lifecycleId (w.entry.upgradeGen + 1)] := by
  rcases setUpgrading_entry w true with ⟨phase, he, -⟩
  simp [requestUpgrade, PeerAction.isOrder, he]

@[simp] theorem setPath_orders (path : ConnectPath) : (w.setPath path).orders = w.orders := by
  unfold setPath
  split <;> rfl

@[simp] theorem startDataPipe_orders (role : ConnectRole) (path : ConnectPath)
    (l2cap : Option L2capChannel) :
    (w.startDataPipe role path l2cap).orders =
      w.orders ++ [.startDataPipe w.entry.deviceId w.entry.lifecycleId w.entry.txGen role
        w.entry.targetEndpoint path l2cap] := by
  simp [startDataPipe, PeerAction.isOrder]

@[simp] theorem noteSubscriber_orders (now : ℕ) (c : Uuid) (p : Option KeyPrefix)
    (verified : Option EndpointId) : (w.noteSubscriber now c p verified).orders = w.orders := by
  unfold noteSubscriber
  cases p <;> cases verified <;> dsimp only
  · rfl
  · split <;> rfl
  · rfl
  · split <;> rfl

@[simp] theorem noteSubscriber_nextLifecycle (now : ℕ) (c : Uuid) (p : Option KeyPrefix)
    (verified : Option EndpointId) :
    (w.noteSubscriber now c p verified).nextLifecycle = w.nextLifecycle := by
  unfold noteSubscriber
  cases p <;> cases verified <;> dsimp only
  · rfl
  · split <;> rfl
  · rfl
  · split <;> rfl

@[simp] theorem refreshOn133_nextLifecycle (reason : DisconnectReason) (lifecycleId : ℕ) :
    (w.refreshOn133 reason lifecycleId).nextLifecycle = w.nextLifecycle := by
  unfold refreshOn133
  split <;> rfl

@[simp] theorem flushSends_orders (io : Io) (tx : Sender) (sends : List PendingSend) (w : Edit) :
    (flushSends io tx sends w).1.orders = w.orders ∧
      (flushSends io tx sends w).1.nextLifecycle = w.nextLifecycle := by
  obtain ⟨_, _, hw⟩ := (flushed io tx sends w).frame
  rw [hw]
  exact ⟨rfl, rfl⟩

@[simp] theorem flushBacklog_orders (io : Io) (tx : Sender) (backlog : List Bytes) (w : Edit) :
    (flushBacklog io tx backlog w).orders = w.orders ∧
      (flushBacklog io tx backlog w).nextLifecycle = w.nextLifecycle := by
  obtain ⟨_, _, hw⟩ := (released io tx backlog w).frame
  rw [hw]
  exact ⟨rfl, rfl⟩

/-- Sending orders nothing from the lanes. -/
theorem drainBuffered_orders (io : Io) :
    (w.drainBuffered io).orders = w.orders ∧
      (w.drainBuffered io).nextLifecycle = w.nextLifecycle := by
  obtain ⟨_, _, _, hw, -⟩ := (drained w io).frame
  rw [hw]
  exact ⟨rfl, rfl⟩

theorem enqueue_orders (io : Io) (send : PendingSend) :
    (w.enqueue io send).orders = w.orders ∧
      (w.enqueue io send).nextLifecycle = w.nextLifecycle := by
  have hdrain := drainBuffered_orders w io
  rw [← hdrain.1, ← hdrain.2]
  unfold enqueue offer
  split
  · exact ⟨rfl, rfl⟩
  · split <;> exact ⟨by simp [PeerAction.isOrder], rfl⟩

end Orders

end Edit

/-! ## Moves -/

/-- The lifecycle goes on. -/
structure Goes (w w' : Edit) : Prop where
  deviceId : w'.entry.deviceId = w.entry.deviceId
  lifecycleId : w'.entry.lifecycleId = w.entry.lifecycleId
  nextLifecycle : w'.nextLifecycle = w.nextLifecycle
  failed : w.entry.l2capUpgradeFailed = true → w'.entry.l2capUpgradeFailed = true

/-- The lifecycle has been replaced `n` times. -/
structure Renewed (n : ℕ) (w w' : Edit) : Prop where
  deviceId : w'.entry.deviceId = w.entry.deviceId
  nextLifecycle : w'.nextLifecycle = w.nextLifecycle + n
  lifecycleId : w'.entry.lifecycleId + 1 = w'.nextLifecycle
  upgradeGen : w'.entry.upgradeGen = 0

/-- The cleanup orders that follow a retirement. -/
def cleanup (d : DeviceId) (l : ℕ) (close : Option (ChannelHandle × DisconnectReason))
    (refresh : Bool) : List PeerAction :=
  (close.map fun x => .closeChannel d l x.1 x.2).toList ++ if refresh then [.refresh d l] else []

/-- What a function may do to an entry, with the orders it pushes. -/
inductive Moved (cmd : PeerCommand) (w w' : Edit) : Prop where
  | same (life : Goes w w') (gen : w'.entry.upgradeGen = w.entry.upgradeGen)
      (phase : w'.entry.phase = w.entry.phase) (orders : w'.orders = w.orders)
  /-- Between two phases without a link. -/
  | idle (life : Goes w w') (gen : w'.entry.upgradeGen = w.entry.upgradeGen)
      (before : w.entry.phase.isLive = false) (after : w'.entry.phase.isLive = false)
      (orders : w'.orders = w.orders)
  /-- The upgrade is over, or the path changes without one. -/
  | settle {since txGen : ℕ} {channel channel' : ChannelHandle} {up : Bool} (life : Goes w w')
      (gen : w'.entry.upgradeGen = w.entry.upgradeGen)
      (before : w.entry.phase = .connected since channel txGen up)
      (after : w'.entry.phase = .connected since channel' txGen false)
      (done : channel'.path = .l2cap ∨ w'.entry.l2capUpgradeFailed = true)
      (orders : w'.orders = w.orders)
  | upgrade {since txGen channelId : ℕ} (life : Goes w w')
      (gen : w'.entry.upgradeGen = w.entry.upgradeGen + 1)
      (before : w.entry.phase = .connected since ⟨channelId, .gatt⟩ txGen false)
      (after : w'.entry.phase = .connected since ⟨channelId, .gatt⟩ txGen true)
      (failed : w.entry.l2capUpgradeFailed = false)
      (orders : w'.orders = w.orders ++
        [.upgradeToL2cap w.entry.deviceId w.entry.lifecycleId (w.entry.upgradeGen + 1)])
  | dial {attempt now : ℕ} (life : Renewed 1 w w') (before : w.entry.phase.isLive = false)
      (after : w'.entry.phase = .connecting attempt now .gatt)
      (orders : w'.orders = w.orders ++ [.retireLifecycle w.entry.deviceId w.entry.lifecycleId,
        .startConnect w.entry.deviceId attempt w'.entry.lifecycleId])
  /-- A dial of an entry whose connection state is cleared first. -/
  | redial {attempt now : ℕ} (life : Renewed 2 w w') (before : w.entry.phase.isLive = false)
      (after : w'.entry.phase = .connecting attempt now .gatt)
      (orders : w'.orders = w.orders ++ [.retireLifecycle w.entry.deviceId w.entry.lifecycleId,
        .retireLifecycle w.entry.deviceId w.nextLifecycle,
        .startConnect w.entry.deviceId attempt w'.entry.lifecycleId])
  | accept {now txGen : ℕ} {channel : ChannelHandle} {role : ConnectRole}
      {target : Option EndpointId} (life : Goes w w')
      (gen : w'.entry.upgradeGen = w.entry.upgradeGen)
      (before : w.entry.phase.isConnecting = true)
      (after : w'.entry.phase = .connected now channel txGen false)
      (orders : w'.orders = w.orders ++ [.readVersion w.entry.deviceId w.entry.lifecycleId,
        .startDataPipe w.entry.deviceId w.entry.lifecycleId txGen role target .gatt none])
  | acceptUpgrade {now txGen : ℕ} {channel : ChannelHandle} {role : ConnectRole}
      {target : Option EndpointId} (life : Goes w w')
      (gen : w'.entry.upgradeGen = w.entry.upgradeGen + 1)
      (before : w.entry.phase.isConnecting = true)
      (after : w'.entry.phase = .connected now channel txGen true)
      (orders : w'.orders = w.orders ++ [.readVersion w.entry.deviceId w.entry.lifecycleId,
        .startDataPipe w.entry.deviceId w.entry.lifecycleId txGen role target .gatt none,
        .upgradeToL2cap w.entry.deviceId w.entry.lifecycleId (w.entry.upgradeGen + 1)])
  /-- A notification arrives before the answer of the dial. -/
  | overtake {now txGen : ℕ} {channel : ChannelHandle} {role : ConnectRole}
      {target : Option EndpointId} (life : Goes w w')
      (gen : w'.entry.upgradeGen = w.entry.upgradeGen)
      (before : w.entry.phase.isConnecting = true)
      (after : w'.entry.phase = .connected now channel txGen false)
      (orders : w'.orders = w.orders ++
        [.startDataPipe w.entry.deviceId w.entry.lifecycleId txGen role target .gatt none])
  | restart {now txGen : ℕ} {channel : ChannelHandle} {role : ConnectRole} {path : ConnectPath}
      {target : Option EndpointId} {l2cap : Option L2capChannel} (life : Renewed 1 w w')
      (after : w'.entry.phase = .connected now channel txGen false)
      (orders : w'.orders = w.orders ++ [.retireLifecycle w.entry.deviceId w.entry.lifecycleId,
        .startDataPipe w.entry.deviceId w'.entry.lifecycleId txGen role target path l2cap])
  | ends (native refresh : Bool) (close : Option (ChannelHandle × DisconnectReason))
      (life : Renewed 1 w w') (after : w'.entry.phase.isLive = false)
      (hnative : native = true → w.entry.phase.isConnecting = true)
      (hclose : ∀ x, close = some x → ∃ since txGen up,
        w.entry.phase = .connected since x.1 txGen up)
      (leaks : w.entry.phase.isConnected = true → close = none →
        (∃ endpoint token, cmd = .verifiedEndpoint endpoint token) ∨
          w.entry.role = .peripheral ∨ ∃ since, w'.entry.phase = .restoring since)
      (orders : w'.orders = w.orders ++
        ((if native then [.closeNativeConnection w.entry.deviceId w.entry.lifecycleId] else []) ++
          .retireLifecycle w.entry.deviceId w.entry.lifecycleId ::
            cleanup w.entry.deviceId w.entry.lifecycleId close refresh))
  | shutdown (hcmd : cmd = .shutdown) (life : Renewed 1 w w')
      (phase : w'.entry.phase = w.entry.phase)
      (orders : w'.orders = w.orders ++
        [.retireLifecycle w.entry.deviceId w.entry.lifecycleId])

namespace Moved

variable {cmd : PeerCommand} {w w₁ w' : Edit}

/-- An edit that touches neither the lifecycle nor the phase and gives no orders. -/
theorem quiet (deviceId : w'.entry.deviceId = w.entry.deviceId)
    (lifecycleId : w'.entry.lifecycleId = w.entry.lifecycleId)
    (next : w'.nextLifecycle = w.nextLifecycle)
    (failed : w'.entry.l2capUpgradeFailed = w.entry.l2capUpgradeFailed)
    (gen : w'.entry.upgradeGen = w.entry.upgradeGen) (phase : w'.entry.phase = w.entry.phase)
    (orders : w'.orders = w.orders) : Moved cmd w w' :=
  .same ⟨deviceId, lifecycleId, next, fun h => failed.trans h⟩ gen phase orders

theorem refl (w : Edit) : Moved cmd w w := quiet rfl rfl rfl rfl rfl rfl rfl

/-- The lifecycle ends where there is no link to take down. -/
theorem endsQuietly (life : Renewed 1 w w') (before : w.entry.phase.isConnected = false)
    (after : w'.entry.phase.isLive = false)
    (orders : w'.orders = w.orders ++
      [.retireLifecycle w.entry.deviceId w.entry.lifecycleId]) : Moved cmd w w' := by
  refine .ends false false none life after (by simp) (by simp)
    ?_ (by simpa [cleanup] using orders)
  intro hconnected
  rw [before] at hconnected
  cases hconnected

/-- Draining alone is a move only where the link is known to leak, or was not this side's. -/
theorem drainToDraining (w : Edit) (now systemNow : ℕ) (reason : DisconnectReason)
    (leaks : w.entry.phase.isConnected = true →
      (∃ endpoint token, cmd = .verifiedEndpoint endpoint token) ∨ w.entry.role = .peripheral) :
    Moved cmd w (w.drainToDraining now systemNow reason) := by
  refine .ends false false none ⟨by simp, by simp, by simp,
    by simp⟩ (by simp [PeerPhase.isLive]) (by simp) (by simp) ?_ (by simp [cleanup])
  intro hconnected _
  rcases leaks hconnected with h | h
  · exact Or.inl h
  · exact Or.inr (Or.inl h)

/-- An armed entry stays without a link, or dials. -/
theorem armForDial (w : Edit) (now : ℕ) (deferPrefix : Option KeyPrefix)
    (before : w.entry.phase.isLive = false) : Moved cmd w (w.armForDial now deferPrefix) := by
  unfold Edit.armForDial
  split
  · exact .idle ⟨rfl, rfl, rfl, id⟩ rfl before rfl rfl
  · split
    · exact .idle ⟨rfl, rfl, rfl, id⟩ rfl before rfl rfl
    · exact .dial ⟨rfl, rfl, rfl, rfl⟩ before rfl (by simp)

/-- The same for an entry whose connection state is cleared first. -/
theorem clearAndArm (w : Edit) (now : ℕ) (deferPrefix : Option KeyPrefix)
    (before : w.entry.phase.isLive = false) :
    Moved cmd w (w.clearConnectionState.armForDial now deferPrefix) := by
  have hconnected : w.entry.phase.isConnected = false := by
    cases hp : w.entry.phase with
    | connected since channel txGen up =>
        rw [hp] at before
        cases before
    | _ => rfl
  unfold Edit.armForDial
  split
  · exact endsQuietly ⟨rfl, rfl, rfl, rfl⟩ hconnected rfl (by simp)
  · split
    · exact endsQuietly ⟨rfl, rfl, rfl, rfl⟩ hconnected rfl (by simp)
    · refine .redial ⟨rfl, rfl, rfl, rfl⟩ before rfl ?_
      rw [Edit.beginConnect_orders, Edit.clearConnectionState_orders, List.append_assoc]
      rfl

/-- A subscription that displaces the session is a restart. -/
theorem restartPeripheralGattPipe (w : Edit) (now : ℕ) (first : Option Bytes) (char : Option Uuid) :
    Moved cmd w (w.restartPeripheralGattPipe now first char) := by
  have orders : (w.restartPeripheralGattPipe now first char).orders = w.orders ++
      [.retireLifecycle w.entry.deviceId w.entry.lifecycleId,
        .startDataPipe w.entry.deviceId w.nextLifecycle (w.entry.txGen + 1) .peripheral
          w.entry.targetEndpoint .gatt none] := by
    simp [Edit.restartPeripheralGattPipe]
  exact .restart ⟨rfl, rfl, rfl, rfl⟩ rfl orders

/-- Edits that leave the lifecycle and the phase alone, before a move. -/
theorem after (h : Moved cmd w₁ w') (deviceId : w₁.entry.deviceId = w.entry.deviceId)
    (lifecycleId : w₁.entry.lifecycleId = w.entry.lifecycleId)
    (next : w₁.nextLifecycle = w.nextLifecycle)
    (failed : w₁.entry.l2capUpgradeFailed = w.entry.l2capUpgradeFailed)
    (gen : w₁.entry.upgradeGen = w.entry.upgradeGen) (phase : w₁.entry.phase = w.entry.phase)
    (role : w₁.entry.role = w.entry.role) (orders : w₁.orders = w.orders) : Moved cmd w w' := by
  -- the new lifecycle is the same seen from before the edits
  have goes : Goes w₁ w' → Goes w w' := fun h =>
    ⟨h.deviceId.trans deviceId, h.lifecycleId.trans lifecycleId, h.nextLifecycle.trans next,
      fun hf => h.failed (failed.trans hf)⟩
  have renewed : ∀ {n}, Renewed n w₁ w' → Renewed n w w' := fun h =>
    ⟨h.deviceId.trans deviceId, by rw [h.nextLifecycle, next], h.lifecycleId, h.upgradeGen⟩
  cases h with
  | same life g p o => exact .same (goes life) (g.trans gen) (p.trans phase) (o.trans orders)
  | idle life g b a o => exact .idle (goes life) (g.trans gen) (by rw [← phase, b]) a (o.trans orders)
  | settle life g b a dn o =>
      exact .settle (goes life) (g.trans gen) (by rw [← phase, b]) a dn (o.trans orders)
  | upgrade life g b a f o =>
      rw [orders, deviceId, lifecycleId, gen] at o
      exact .upgrade (goes life) (by rw [g, gen]) (by rw [← phase, b]) a (by rw [← failed, f]) o
  | dial life b a o =>
      rw [orders, deviceId, lifecycleId] at o
      exact .dial (renewed life) (by rw [← phase, b]) a o
  | redial life b a o =>
      rw [orders, deviceId, lifecycleId, next] at o
      exact .redial (renewed life) (by rw [← phase, b]) a o
  | accept life g b a o =>
      rw [orders, deviceId, lifecycleId] at o
      exact .accept (goes life) (g.trans gen) (by rw [← phase, b]) a o
  | acceptUpgrade life g b a o =>
      rw [orders, deviceId, lifecycleId, gen] at o
      exact .acceptUpgrade (goes life) (by rw [g, gen]) (by rw [← phase, b]) a o
  | overtake life g b a o =>
      rw [orders, deviceId, lifecycleId] at o
      exact .overtake (goes life) (g.trans gen) (by rw [← phase, b]) a o
  | restart life a o =>
      rw [orders, deviceId, lifecycleId] at o
      exact .restart (renewed life) a o
  | @ends native refresh close life a hn hc hl o =>
      refine .ends native refresh close (renewed life) a ?_ ?_ ?_ ?_
      · rw [← phase]
        exact hn
      · rw [← phase]
        exact hc
      · rw [← phase, ← role]
        exact hl
      · rw [o, orders, deviceId, lifecycleId]
  | shutdown hcmd life p o =>
      rw [orders, deviceId, lifecycleId] at o
      exact .shutdown hcmd (renewed life) (p.trans phase) o

/-! ## The handlers -/

/-- The lifecycle ends, and the channel of a `Connected` phase is closed. -/
theorem endsClosing (channel : Option ChannelHandle) (reason : DisconnectReason) (refresh : Bool)
    (life : Renewed 1 w w') (after : w'.entry.phase.isLive = false)
    (hshake : w.entry.phase.isHandshaking = false) (hchannel : channel = w.entry.phase.channel?)
    (orders : w'.orders = w.orders ++ (.retireLifecycle w.entry.deviceId w.entry.lifecycleId ::
      cleanup w.entry.deviceId w.entry.lifecycleId (channel.map (·, reason)) refresh)) :
    Moved cmd w w' := by
  subst hchannel
  refine .ends false refresh (w.entry.phase.channel?.map (·, reason)) life after (by simp) ?_ ?_
    (by simpa using orders)
  · rintro ⟨c, reason'⟩ hc
    cases hp : w.entry.phase with
    | connected since channel txGen up =>
        rw [hp] at hc
        cases hc
        exact ⟨since, txGen, up, rfl⟩
    | handshaking since channel =>
        rw [hp] at hshake
        cases hshake
    | _ =>
        rw [hp] at hc
        cases hc
  · intro hconnected hnone
    cases hp : w.entry.phase with
    | connected since channel txGen up =>
        rw [hp] at hnone
        cases hnone
    | _ =>
        rw [hp] at hconnected
        cases hconnected

/-- Asking for an upgrade leaves lifecycle and phase alone. -/
theorem requestUpgrade (w : Edit) (hfailed : w.entry.l2capUpgradeFailed = false)
    (h : Turn.isUpgradable w.entry.phase = true) : Moved cmd w w.requestUpgrade := by
  unfold Turn.isUpgradable at h
  split at h
  · rename_i since channelId txGen hp
    have he : w.requestUpgrade.entry = { w.entry with
        phase := .connected since ⟨channelId, .gatt⟩ txGen true
        upgradeGen := w.entry.upgradeGen + 1 } := by
      simp [Edit.requestUpgrade, Edit.setUpgrading, hp]
    have hn : w.requestUpgrade.nextLifecycle = w.nextLifecycle := by
      simp [Edit.requestUpgrade, Edit.setUpgrading, hp, Edit.push]
    exact .upgrade ⟨by rw [he], by rw [he], hn, by rw [he]; exact id⟩ (by rw [he]) hp (by rw [he])
      hfailed (by simp)
  · cases h

/-- A restart, or nothing. -/
theorem peripheralClientSubscribed (w : Edit) (now : ℕ) (c : Uuid) (p : Option KeyPrefix)
    (verified : Option EndpointId) :
    Moved cmd w (w.peripheralClientSubscribed now c p verified) := by
  unfold Edit.peripheralClientSubscribed
  dsimp only
  rcases Edit.noteSubscriber_entry w now c p verified with ⟨cs, kp, v, va, he⟩
  have hn := Edit.noteSubscriber_nextLifecycle w now c p verified
  have ho := Edit.noteSubscriber_orders w now c p verified
  generalize w.noteSubscriber now c p verified = w₁ at he hn ho
  suffices h : Moved cmd w₁ _ from h.after (by rw [he]) (by rw [he]) hn (by rw [he]) (by rw [he])
    (by rw [he]) (by rw [he]) ho
  split
  · split
    · exact refl _
    · exact restartPeripheralGattPipe _ _ _ _
  · exact refl _
  · exact refl _
  · exact restartPeripheralGattPipe _ _ _ _

/-- The last subscription of a session this side did not dial ends it. -/
theorem peripheralClientUnsubscribed (w : Edit) (now systemNow : ℕ) (c : Uuid) :
    Moved cmd w (w.peripheralClientUnsubscribed now systemNow c) := by
  unfold Edit.peripheralClientUnsubscribed
  dsimp only
  split
  · exact quiet rfl rfl rfl rfl rfl rfl rfl
  · rename_i hkeep
    refine after (drainToDraining _ now systemNow .remoteClose ?_) rfl rfl rfl rfl rfl rfl rfl rfl
    intro _
    right
    by_contra hrole
    exact hkeep (Or.inl hrole)

/-- A dial, a wait for one, or nothing. -/
theorem advertised (w : Edit) (now : ℕ) (p : KeyPrefix) (deferPrefix : Option KeyPrefix) :
    Moved cmd w (w.advertised now p deferPrefix) := by
  have hafter : ∀ {w' : Edit}, Moved cmd (w.modify fun e => { e with
      lastAdv := some now, keyPrefix := some p, verifiedLiveSuppressedLogged := false }) w' →
      Moved cmd w w' := fun h => h.after rfl rfl rfl rfl rfl rfl rfl rfl
  unfold Edit.advertised
  dsimp only
  split
  · rename_i hp
    exact hafter (armForDial _ now deferPrefix (by rw [hp]; rfl))
  · rename_i since hp
    split
    · exact hafter (refl _)
    · exact hafter (armForDial _ now deferPrefix (by rw [hp]; rfl))
  · rename_i diedAt hp
    exact hafter (clearAndArm _ now deferPrefix (by rw [hp]; rfl))
  · rename_i diedAt hp
    exact hafter (clearAndArm _ now deferPrefix (by rw [hp]; rfl))
  · rename_i attempt nextAt reason hp
    split
    · exact hafter (.dial ⟨rfl, rfl, rfl, rfl⟩ (by rw [hp]; rfl) rfl (by simp))
    · exact hafter (refl _)
  · exact hafter (refl _)

/-- Sending moves nothing. -/
theorem enqueue (w : Edit) (io : Io) (send : PendingSend) : Moved cmd w (w.enqueue io send) := by
  rcases Edit.enqueue_entry w io send with ⟨l, p, he, -⟩
  have ho := Edit.enqueue_orders w io send
  exact quiet (by rw [he]) (by rw [he]) ho.2 (by rw [he]) (by rw [he]) (by rw [he]) ho.1

/-- A datagram may start a dial. -/
theorem sendDatagram (w : Edit) (io : Io) (target : Option EndpointId) (send : PendingSend) :
    Moved cmd w (w.sendDatagram io target send) := by
  unfold Edit.sendDatagram
  split
  · exact enqueue w io send
  · exact quiet rfl rfl rfl rfl rfl rfl (by simp [PeerAction.isOrder])
  · exact quiet rfl rfl rfl rfl rfl rfl (by simp [PeerAction.isOrder, Edit.buffer])
  · rename_i hdecision
    -- only a discovered entry is dialled for a send
    have hidle : w.entry.phase.isLive = false := by
      unfold Edit.sendDecision at hdecision
      cases hp : w.entry.phase with
      | connecting attempt started path =>
          rw [hp] at hdecision
          cases hdecision
      | connected since channel txGen up =>
          rw [hp] at hdecision
          dsimp only at hdecision
          split at hdecision <;> cases hdecision
      | _ => rfl
    have hdial : Moved cmd (w.buffer target send)
        ((w.buffer target send).beginConnect io.now 0) := by
      refine .dial ⟨rfl, rfl, rfl, rfl⟩ hidle rfl ?_
      simp
    exact hdial.after rfl rfl rfl rfl rfl rfl rfl rfl

/-- The dial of the current lifecycle has become a session. -/
theorem connectSucceeded (w : Edit) (now lifecycleId : ℕ) (channel : ChannelHandle)
    (upgrade : PeerEntry → Bool) :
    Moved cmd w (w.connectSucceeded now lifecycleId channel upgrade) := by
  unfold Edit.connectSucceeded
  split
  · exact refl _
  · rename_i hcurrent
    simp only [not_or, not_not] at hcurrent
    rcases hcurrent with ⟨hl, hconnecting⟩
    subst hl
    dsimp only
    have hstart : (((w.modify fun e => { e with
        consecutiveFailures := 0, subscribedChars := ∅ }).push
        (.readVersion w.entry.deviceId w.entry.lifecycleId)).enterConnected now channel
        |>.startDataPipe w.entry.role .gatt none).orders = w.orders ++
          [.readVersion w.entry.deviceId w.entry.lifecycleId,
            .startDataPipe w.entry.deviceId w.entry.lifecycleId (w.entry.txGen + 1) w.entry.role
              w.entry.targetEndpoint .gatt none] := by
      simp [PeerAction.isOrder]
    split
    · have hupgrade := Edit.requestUpgrade_orders (((w.modify fun e => { e with
        consecutiveFailures := 0, subscribedChars := ∅ }).push
        (.readVersion w.entry.deviceId w.entry.lifecycleId)).enterConnected now channel
        |>.startDataPipe w.entry.role .gatt none)
      rw [hstart, List.append_assoc] at hupgrade
      exact .acceptUpgrade ⟨rfl, rfl, rfl, id⟩ rfl hconnecting rfl hupgrade
    · exact .accept ⟨rfl, rfl, rfl, id⟩ rfl hconnecting rfl hstart

/-- The dial of the current lifecycle is over. -/
theorem connectFailed (w : Edit) (now lifecycleId : ℕ) (error : String) :
    Moved cmd w (w.connectFailed now lifecycleId error) := by
  unfold Edit.connectFailed
  split
  · exact refl _
  · rename_i hl
    rw [not_not] at hl
    subst hl
    split
    · rename_i attempt started path hp
      dsimp only
      refine .ends true false none ⟨?_, ?_, ?_, ?_⟩ ?_ (by simp [hp, PeerPhase.isConnecting]) (by simp)
        (by simp [hp, PeerPhase.isConnected]) (by simp [cleanup, PeerAction.isOrder])
      · rw [Edit.dialFailed_entry]
        split <;> rfl
      · simp [Edit.abandonOutstanding, Edit.push]
      · rw [Edit.dialFailed_entry, Edit.dialFailed_nextLifecycle]
        split <;> rfl
      · rw [Edit.dialFailed_entry]
        split <;> rfl
      · rw [Edit.dialFailed_entry]
        split <;> rfl
    · exact refl _

/-- A fragment that overtakes the dial's success keeps its lifecycle; any other fragment starts
over. -/
theorem reviveByFragment (w : Edit) (now : ℕ) (source : FragmentSource) (bytes : Bytes) :
    Moved cmd w (w.reviveByFragment now source bytes) := by
  unfold Edit.reviveByFragment
  dsimp only
  split
  · rename_i hovertakes
    have orders : (((w.modify fun e => { e with
        pipe := none, role := Edit.roleOfSource source, rxBacklog := e.rxBacklog ++ [bytes] }).enterConnected
        now ⟨0, .gatt⟩).startDataPipe (Edit.roleOfSource source) .gatt none).orders = w.orders ++
          [.startDataPipe w.entry.deviceId w.entry.lifecycleId (w.entry.txGen + 1)
            (Edit.roleOfSource source) w.entry.targetEndpoint .gatt none] := by
      simp
    exact .overtake ⟨rfl, rfl, rfl, id⟩ rfl hovertakes.1 rfl orders
  · have orders : (((w.abandonOutstanding.modify fun e => { e with
        pipe := none, role := Edit.roleOfSource source, rxBacklog := e.rxBacklog ++ [bytes] }).enterConnected
        now ⟨0, .gatt⟩).startDataPipe (Edit.roleOfSource source) .gatt none).orders = w.orders ++
          [.retireLifecycle w.entry.deviceId w.entry.lifecycleId,
            .startDataPipe w.entry.deviceId w.nextLifecycle (w.entry.txGen + 1)
              (Edit.roleOfSource source) w.entry.targetEndpoint .gatt none] := by
      simp
    exact .restart ⟨rfl, rfl, rfl, rfl⟩ rfl orders

/-- Only outside a session does a fragment move the entry. -/
theorem inboundGattFragment (w : Edit) (io : Io) (source : FragmentSource) (bytes : Bytes)
    (hshake : w.entry.phase.isHandshaking = false) :
    Moved cmd w (w.inboundGattFragment io source bytes) := by
  have hafter : ∀ {w' : Edit}, Moved cmd (w.modify fun e => { e with lastRx := some io.now }) w' →
      Moved cmd w w' := fun h => h.after rfl rfl rfl rfl rfl rfl rfl rfl
  unfold Edit.inboundGattFragment
  dsimp only
  split
  · rename_i since channel hp
    rw [show w.entry.phase = .handshaking since channel from hp] at hshake
    cases hshake
  · split
    · exact hafter (quiet rfl rfl rfl rfl rfl rfl rfl)
    · split
      · exact hafter (restartPeripheralGattPipe _ _ _ _)
      · exact hafter (quiet rfl rfl rfl rfl rfl rfl rfl)
  · exact hafter (refl _)
  · exact hafter (reviveByFragment _ _ _ _)

/-- A GATT 133 has the native connection refreshed. -/
theorem refreshOn133_orders (w : Edit) (reason : DisconnectReason) (l : ℕ) :
    (w.refreshOn133 reason l).orders =
      w.orders ++ if decide (reason = .gatt133) then [.refresh w.entry.deviceId l] else [] := by
  unfold Edit.refreshOn133
  by_cases h : reason = .gatt133
  · simp [h, PeerAction.isOrder]
  · simp [h]

/-- The channel is closed if there is one. -/
theorem closeChannel_orders (w : Edit) (channel : Option ChannelHandle) (l : ℕ)
    (reason : DisconnectReason) :
    (w.closeChannel channel l reason).orders =
      w.orders ++ (channel.map fun c => .closeChannel w.entry.deviceId l c reason).toList := by
  cases channel with
  | none => simp [Edit.closeChannel]
  | some c => simp [Edit.closeChannel, PeerAction.isOrder]

/-- While dialling the dial is over, otherwise the session. -/
theorem centralDisconnected (w : Edit) (now systemNow : ℕ) (cause : DisconnectCause)
    (hshake : w.entry.phase.isHandshaking = false) :
    Moved cmd w (w.centralDisconnected now systemNow cause) := by
  unfold Edit.centralDisconnected
  dsimp only
  split
  · -- the dial has failed
    rename_i attempt started path hp
    refine .ends false (decide (DisconnectReason.ofCause cause = .gatt133)) none ⟨?_, ?_, ?_, ?_⟩ ?_
      (by simp) (by simp) (by simp [hp, PeerPhase.isConnected]) ?_
    · rw [Edit.refreshOn133_entry, Edit.dialFailed_entry]
      split <;> rfl
    · rw [Edit.refreshOn133_nextLifecycle, Edit.dialFailed_nextLifecycle]
      rfl
    · rw [Edit.refreshOn133_entry, Edit.refreshOn133_nextLifecycle, Edit.dialFailed_entry,
        Edit.dialFailed_nextLifecycle]
      split <;> rfl
    · rw [Edit.refreshOn133_entry, Edit.dialFailed_entry]
      split <;> rfl
    · rw [Edit.refreshOn133_entry, Edit.dialFailed_entry]
      split <;> rfl
    · have hdev : ((w.abandonOutstanding.modify fun e => { e with
          consecutiveFailures := e.consecutiveFailures + 1, pendingSends := [] }).dialFailed now
          attempt (DisconnectReason.ofCause cause).debug
          (DisconnectReason.ofCause cause)).entry.deviceId = w.entry.deviceId := by
        rw [Edit.dialFailed_entry]
        split <;> rfl
      rw [refreshOn133_orders, hdev]
      simp [cleanup]
  · rename_i since reason hp
    split
    · exact clearAndArm w now none (by rw [hp]; rfl)
    · refine .ends false (decide (DisconnectReason.ofCause cause = .gatt133)) none
        ⟨by simp, by simp, by simp, by simp⟩ (by simp [PeerPhase.isLive]) (by simp) (by simp)
        (by simp [hp, PeerPhase.isConnected]) ?_
      rw [refreshOn133_orders]
      simp [cleanup]
  · refine endsClosing _ (DisconnectReason.ofCause cause)
      (decide (DisconnectReason.ofCause cause = .gatt133)) ⟨by simp, by simp, by simp, by simp⟩
      (by simp [PeerPhase.isLive]) hshake rfl ?_
    rw [refreshOn133_orders, closeChannel_orders]
    simp [cleanup, Function.comp_def]

theorem adapterOff (w : Edit) (now : ℕ) : Moved cmd w (w.adapterOff now) :=
  .ends false false none ⟨rfl, rfl, rfl, rfl⟩ rfl (by simp) (by simp)
    (fun _ _ => Or.inr (Or.inr ⟨now, rfl⟩)) (by simp [Edit.adapterOff, cleanup])

theorem adapterOn (w : Edit) (now : ℕ) : Moved cmd w (w.adapterOn now) := by
  unfold Edit.adapterOn
  split
  · rename_i since hp
    exact .idle ⟨rfl, rfl, rfl, id⟩ rfl (by rw [hp]; rfl) rfl rfl
  · exact refl _

/-- What falls due is a dial, the end of a wait or the end of a wedged session. -/
theorem tickApply (w : Edit) (io : Io) (tickNow systemNow : ℕ) (action : Edit.TickAction)
    (h : Edit.tickDecision io tickNow w.entry = some action) :
    Moved cmd w (w.tickApply tickNow systemNow action) := by
  unfold Edit.tickDecision at h
  cases hp : w.entry.phase with
  | reconnecting attempt nextAt reason =>
      rw [hp] at h
      simp only [Option.ite_none_right_eq_some, Option.some.injEq] at h
      obtain rfl := h.2
      exact .dial ⟨rfl, rfl, rfl, rfl⟩ (by rw [hp]; rfl) rfl (by simp [Edit.tickApply])
  | pendingDial since deadline p =>
      rw [hp] at h
      simp only [Option.ite_none_right_eq_some, Option.some.injEq] at h
      obtain rfl := h.2
      exact .dial ⟨rfl, rfl, rfl, rfl⟩ (by rw [hp]; rfl) rfl (by simp [Edit.tickApply])
  | draining since reason =>
      rw [hp] at h
      simp only [Option.ite_none_right_eq_some, Option.some.injEq] at h
      obtain rfl := h.2
      unfold Edit.tickApply
      dsimp only
      split
      · exact clearAndArm w tickNow none (by rw [hp]; rfl)
      · exact .idle ⟨rfl, rfl, rfl, id⟩ rfl (by rw [hp]; rfl) rfl rfl
  -- nobody came back for the entry in time
  | restoring since =>
      rw [hp] at h
      simp only [Option.ite_none_right_eq_some, Option.some.injEq] at h
      obtain rfl := h.2
      exact .idle ⟨rfl, rfl, rfl, id⟩ rfl (by rw [hp]; rfl) rfl rfl
  | connected since channel txGen up =>
      rw [hp] at h
      dsimp only at h
      -- the pipe has been silent for too long
      split at h
      · simp only [Option.ite_none_right_eq_some, Option.some.injEq] at h
        obtain rfl := h.2
        refine endsClosing (some channel) .linkDead false
          ⟨by simp [Edit.tickApply], ?_, ?_, by simp [Edit.tickApply]⟩ ?_ (by rw [hp]; rfl)
          (by rw [hp]; rfl) ?_
        · simp [Edit.tickApply, Edit.push]
        · simp [Edit.tickApply, Edit.push]
        · simp [Edit.tickApply, PeerPhase.isLive]
        · simp [Edit.tickApply, hp, closeChannel_orders, cleanup, PeerAction.isOrder]
      · cases h
  | _ =>
      rw [hp] at h
      cases h

/-- The entry dies, and the link is closed. -/
theorem forget (w : Edit) (now : ℕ) (hshake : w.entry.phase.isHandshaking = false) :
    Moved cmd w (w.forget now) := by
  refine endsClosing _ .localClose false ⟨by simp [Edit.forget], ?_, ?_, ?_⟩
    ?_ hshake rfl ?_
  · simp [Edit.forget, Edit.failPending, Edit.abandonOutstanding]
  · simp [Edit.forget, Edit.failPending, Edit.abandonOutstanding]
  · simp [Edit.forget]
  · simp [Edit.forget, PeerPhase.isLive]
  · simp [Edit.forget, closeChannel_orders, cleanup, Function.comp_def]

/-- The session ends, and the link is closed. -/
theorem stalled (w : Edit) (now systemNow : ℕ) (cause : StallCause) :
    Moved cmd w (w.stalled now systemNow cause) := by
  unfold Edit.stalled
  split
  · rename_i since channel txGen up hp
    have hends : ∀ reason, Moved cmd w (((w.drainToDraining now systemNow reason).modify fun e =>
        { e with resumeAfterDrain := decide (cause = .localClose) }).closeChannel (some channel)
        w.entry.lifecycleId reason) := by
      intro reason
      refine endsClosing (some channel) reason false ⟨by simp, by simp, by simp, by simp⟩
        (by simp [PeerPhase.isLive]) (by rw [hp]; rfl) (by rw [hp]; rfl) ?_
      simp [closeChannel_orders, cleanup]
    exact hends _
  · exact refl _

/-- A mismatch that is not stale ends the session and closes the link. -/
theorem protocolVersionMismatch (w : Edit) (now systemNow lifecycleId : ℕ) (got want : UInt8)
    (hshake : w.entry.phase.isHandshaking = false) :
    Moved cmd w (w.protocolVersionMismatch now systemNow lifecycleId got want) := by
  unfold Edit.protocolVersionMismatch
  split
  · exact refl _
  · rename_i hl
    rw [not_not] at hl
    subst hl
    dsimp only
    refine endsClosing _ .protocolMismatch false ⟨by simp, by simp, by simp,
      by simp⟩ (by simp [PeerPhase.isLive]) hshake rfl ?_
    simp [closeChannel_orders, cleanup, Function.comp_def]

/-- A pipe that arrives moves nothing. -/
theorem dataPipeReady (w : Edit) (io : Io) (txGen : ℕ) (handles : PipeHandles) :
    Moved cmd w (w.dataPipeReady io txGen handles) := by
  by_cases h : w.entry.txGen = txGen
  · rcases Edit.dataPipeReady_entry w io txGen handles h with ⟨l, l', he⟩
    have hkept : (w.dataPipeReady io txGen handles).orders = w.orders ∧
        (w.dataPipeReady io txGen handles).nextLifecycle = w.nextLifecycle := by
      unfold Edit.dataPipeReady
      rw [if_neg (by simp [h])]
      simp
    exact quiet (by rw [he]) (by rw [he]) hkept.2 (by rw [he]) (by rw [he]) (by rw [he]) hkept.1
  · have hsame : w.dataPipeReady io txGen handles = w := by
      simp [Edit.dataPipeReady, h]
    rw [hsame]
    exact refl _

/-- A `Connected` entry moves to `path`, and no upgrade is under way any more. -/
theorem setPath {since txGen : ℕ} {channel : ChannelHandle} {up : Bool} (w : Edit)
    (path : ConnectPath) (hp : w.entry.phase = .connected since channel txGen up)
    (done : path = .l2cap ∨ w.entry.l2capUpgradeFailed = true) : Moved cmd w (w.setPath path) := by
  have he : (w.setPath path).entry =
      { w.entry with phase := .connected since { channel with path } txGen false } := by
    simp [Edit.setPath, hp]
  have hn : (w.setPath path).nextLifecycle = w.nextLifecycle := by
    simp [Edit.setPath, hp]
  refine .settle ⟨by rw [he], by rw [he], hn, by rw [he]; exact id⟩ (by rw [he]) hp (by rw [he]) ?_
    (by simp)
  rw [he]
  exact done

/-- An upgrade that has failed. -/
theorem upgradeFails {since txGen : ℕ} {channel : ChannelHandle} {up : Bool} (w : Edit)
    (hp : w.entry.phase = .connected since channel txGen up) :
    Moved cmd w ((w.modify fun e => { e with l2capUpgradeFailed := true }).setUpgrading false) := by
  have he : ((w.modify fun e => { e with l2capUpgradeFailed := true }).setUpgrading false).entry =
      { w.entry with
        phase := .connected since channel txGen false
        l2capUpgradeFailed := true } := by
    simp [Edit.setUpgrading, hp]
  have hn : ((w.modify fun e => { e with
      l2capUpgradeFailed := true }).setUpgrading false).nextLifecycle = w.nextLifecycle := by
    simp [Edit.setUpgrading, hp]
  exact .settle ⟨by rw [he], by rw [he], hn, by rw [he]; exact fun _ => rfl⟩ (by rw [he]) hp
    (by rw [he]) (Or.inr (by rw [he])) (by simp)

/-- A move, followed by an action that is no order. -/
theorem thenPush (h : Moved cmd w w₁) {a : PeerAction} (ha : a.isOrder = false) :
    Moved cmd w (w₁.push a) := by
  have orders : (w₁.push a).orders = w₁.orders := by
    simp [ha]
  have goes : Goes w w₁ → Goes w (w₁.push a) := fun h => ⟨h.1, h.2, h.3, h.4⟩
  have renewed : ∀ {n}, Renewed n w w₁ → Renewed n w (w₁.push a) := fun h => ⟨h.1, h.2, h.3, h.4⟩
  cases h with
  | same life g p o => exact .same (goes life) g p (orders.trans o)
  | idle life g b af o => exact .idle (goes life) g b af (orders.trans o)
  | settle life g b af dn o => exact .settle (goes life) g b af dn (orders.trans o)
  | upgrade life g b af f o => exact .upgrade (goes life) g b af f (orders.trans o)
  | dial life b af o => exact .dial (renewed life) b af (orders.trans o)
  | redial life b af o => exact .redial (renewed life) b af (orders.trans o)
  | accept life g b af o => exact .accept (goes life) g b af (orders.trans o)
  | acceptUpgrade life g b af o => exact .acceptUpgrade (goes life) g b af (orders.trans o)
  | overtake life g b af o => exact .overtake (goes life) g b af (orders.trans o)
  | restart life af o => exact .restart (renewed life) af (orders.trans o)
  | ends native refresh close life af hn hc hl o =>
      exact .ends native refresh close (renewed life) af hn hc hl (orders.trans o)
  | shutdown hcmd life p o => exact .shutdown hcmd (renewed life) p (orders.trans o)

/-- Only a handshake would start a session here. -/
theorem openL2capSucceeded (w : Edit) (now lifecycleId upgradeGen : ℕ) (channel : L2capChannel)
    (hshake : w.entry.phase.isHandshaking = false) :
    Moved cmd w (w.openL2capSucceeded now lifecycleId upgradeGen channel) := by
  unfold Edit.openL2capSucceeded
  split
  · exact refl _
  · split
    · rename_i since gatt hp
      rw [hp] at hshake
      cases hshake
    · rename_i hp
      split
      · exact (setPath w .l2cap hp (Or.inl rfl)).thenPush rfl
      · exact upgradeFails w hp
    · exact refl _

/-- What a failed upgrade does to an entry. -/
theorem openL2capFailed (w : Edit) (now lifecycleId upgradeGen : ℕ) (error : String)
    (hshake : w.entry.phase.isHandshaking = false) :
    Moved cmd w (w.openL2capFailed now lifecycleId upgradeGen error) := by
  unfold Edit.openL2capFailed
  split
  · exact refl _
  · split
    · rename_i since gatt hp
      rw [hp] at hshake
      cases hshake
    · rename_i hp
      exact upgradeFails w hp
    · exact refl _

/-- A swap moves nothing; without a pipe the channel starts a session. -/
theorem inboundL2capChannel (w : Edit) (now : ℕ) (channel : L2capChannel) :
    Moved cmd w (w.inboundL2capChannel now channel) := by
  unfold Edit.inboundL2capChannel
  split
  · split
    · exact (refl w).thenPush rfl
    · rename_i hp
      exact ((setPath w .l2cap hp (Or.inl rfl)).thenPush rfl).thenPush rfl
    · exact (refl w).thenPush rfl
  · have orders : (((w.abandonOutstanding.modify fun e => { e with l2capChannel := none }).enterConnected
        now ⟨0, .l2cap⟩).startDataPipe w.entry.role .l2cap (some channel)).orders = w.orders ++
          [.retireLifecycle w.entry.deviceId w.entry.lifecycleId,
            .startDataPipe w.entry.deviceId w.nextLifecycle (w.entry.txGen + 1) w.entry.role
              w.entry.targetEndpoint .l2cap (some channel)] := by
      simp
    exact .restart ⟨rfl, rfl, rfl, rfl⟩ rfl orders

/-- A path change moves nothing. -/
theorem l2capHandoverTimeout (w : Edit) : Moved cmd w w.l2capHandoverTimeout := by
  cases hp : w.entry.phase with
  | connected since channel txGen up =>
      have he : w.l2capHandoverTimeout.entry =
          { w.entry with
            phase := .connected since { channel with path := .gatt } txGen false
            l2capUpgradeFailed := true } := by
        simp [Edit.l2capHandoverTimeout, Edit.setPath, hp]
      have hn : w.l2capHandoverTimeout.nextLifecycle = w.nextLifecycle := by
        simp [Edit.l2capHandoverTimeout, Edit.setPath, hp]
      exact .settle ⟨by rw [he], by rw [he], hn, by rw [he]; exact fun _ => rfl⟩ (by rw [he]) hp
        (by rw [he]) (Or.inr (by rw [he])) (by simp [Edit.l2capHandoverTimeout])
  | _ =>
      have hsame : w.l2capHandoverTimeout = w.modify fun e => { e with l2capUpgradeFailed := true } := by
        simp [Edit.l2capHandoverTimeout, Edit.setPath, hp]
      rw [hsame]
      exact .same ⟨rfl, rfl, rfl, fun _ => rfl⟩ rfl rfl rfl

end Moved

/-- Every function a command may run is one of the moves. -/
theorem Turn.Touch.moved {io : Io} {cmd : PeerCommand} {d : DeviceId} {f : Edit → Edit} {w : Edit}
    (hf : Touch io cmd d w.entry f) (hshake : w.entry.phase.isHandshaking = false) :
    Moved cmd w (f w) := by
  -- one lemma for each function of `Registry.Entry`
  cases hf with
  | stampExact => exact .quiet rfl rfl rfl rfl rfl rfl rfl
  | stampVerified => exact .quiet rfl rfl rfl rfl rfl rfl rfl
  | cancelDial => exact .drainToDraining _ _ _ _ fun _ => Or.inl ⟨_, _, rfl⟩
  | drainLoser => exact .drainToDraining _ _ _ _ fun _ => Or.inl ⟨_, _, rfl⟩
  | requestUpgrade hp hfailed h => exact .requestUpgrade w hfailed h
  | subscribed => exact .peripheralClientSubscribed _ _ _ _ _
  | unsubscribed => exact .peripheralClientUnsubscribed _ _ _ _
  | advertisedSuppressed => exact .quiet rfl rfl rfl rfl rfl rfl rfl
  | advertised => exact .advertised _ _ _ _
  | sendDatagram => exact .sendDatagram _ _ _ _
  | connectSucceeded => exact .connectSucceeded _ _ _ _ _
  | connectFailed => exact .connectFailed _ _ _ _
  | fragment => exact .inboundGattFragment _ _ _ _ hshake
  | centralDisconnected => exact .centralDisconnected _ _ _ _ hshake
  | adapterOff => exact .adapterOff _ _
  | adapterOn => exact .adapterOn _ _
  | tick h => exact .tickApply _ _ _ _ _ h
  | forget => exact .forget _ _ hshake
  | stalled => exact .stalled _ _ _ _
  | shutdown => exact .shutdown rfl ⟨rfl, rfl, rfl, rfl⟩ rfl (by simp [Edit.shutdown])
  | dataPipeReady => exact .dataPipeReady _ _ _ _
  | openL2capSucceeded => exact .openL2capSucceeded _ _ _ _ _ hshake
  | openL2capFailed => exact .openL2capFailed _ _ _ _ _ hshake
  | inboundL2capChannel => exact .inboundL2capChannel _ _ _
  | protocolVersionMismatch => exact .protocolVersionMismatch _ _ _ _ _ _ hshake
  | handoverTimeout => exact .l2capHandoverTimeout _

end IrohBle
