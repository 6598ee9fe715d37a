import IrohBle.Lib.Map
import IrohBle.Registry.EntrySpec

/-! # Registry.Books: what each function does with the queued sends

A datagram that cannot go out yet waits in `pending_sends` of its entry. `Books` are the
sends that wait, the sends that outbound channels took and the senders that were answered.

* `Accounts`: whatever no longer waits is found among the others. Sends are counted one by
  one, so two equal ones need two answers.
* `Conserves`: the exact form, where no send came in and none was offered to a channel.
* `Settles`: the functions that conserve, which keep the queue or answer all of it. Two more
  only clear the queue, and settle it where it is empty: a disconnect while dialling and the
  adapter going off.
-/

namespace IrohBle

open Lib Reliable

/-! ## Books -/

/-- Whom an `AckSend` has to name to answer this send. -/
def PendingSend.sender (s : PendingSend) : ℕ × Waker := (s.txGen, s.waker)

/-- The send an outbound channel took. -/
def TrySend.accepted? : TrySend → Option PendingSend
  | .outbound _ send .ok => some send
  | _ => none

/-- The sender an action answers. -/
def PeerAction.answers? : PeerAction → Option (ℕ × Waker)
  | .ackSend txGen waker _ => some (txGen, waker)
  | _ => none

/-- A send that a channel took was offered to an outbound channel. -/
theorem TrySend.eq_of_accepted {x : TrySend} {s : PendingSend} (h : x.accepted? = some s) :
    ∃ tx, x = .outbound tx s .ok := by
  cases x with
  | inbound tx bytes result => cases h
  | outbound tx send result =>
      cases result with
      | ok =>
          obtain rfl := Option.some.inj h
          exact ⟨tx, rfl⟩
      | full => cases h
      | closed => cases h

/-- Only `AckSend` answers a sender. -/
theorem PeerAction.eq_of_answers {a : PeerAction} {g : ℕ} {waker : Waker}
    (h : a.answers? = some (g, waker)) : ∃ result, a = .ackSend g waker result := by
  cases a with
  | ackSend txGen waker result =>
      obtain ⟨rfl, rfl⟩ := Prod.mk.inj (Option.some.inj h)
      exact ⟨result, rfl⟩
  | _ => cases h

/-- The sends that wait, those a channel took, and the senders that were answered. -/
structure Books where
  queued : Multiset PendingSend
  accepted : Multiset PendingSend
  answered : Multiset (ℕ × Waker)

namespace Books

/-- The books of a queue, with what the attempts and the actions so far say. -/
def of (queued : Multiset PendingSend) (tried : List TrySend) (actions : List PeerAction) : Books :=
  ⟨queued, tried.filterMap TrySend.accepted?, actions.filterMap PeerAction.answers?⟩

/-- The same books with more sends waiting. -/
def beside (rest : Multiset PendingSend) (b : Books) : Books := { b with queued := b.queued + rest }

end Books

/-- Every send that waited and no longer does was taken by a channel or answered. -/
def Accounts (b b' : Books) : Prop :=
  ∃ taken told : Multiset PendingSend, b.queued ≤ b'.queued + taken + told ∧
    b.accepted + taken ≤ b'.accepted ∧ b.answered + told.map PendingSend.sender ≤ b'.answered

/-- No channel was used and no send came in: the answers are those to the sends that left. -/
def Conserves (b b' : Books) : Prop :=
  ∃ told : Multiset PendingSend, b.queued = b'.queued + told ∧ b'.accepted = b.accepted ∧
    b'.answered = b.answered + told.map PendingSend.sender

section

variable {b b₁ b' : Books}

theorem Conserves.refl (b : Books) : Conserves b b := ⟨0, by simp, rfl, by simp⟩

/-- The answers add up. -/
theorem Conserves.trans (h : Conserves b b₁) (h' : Conserves b₁ b') : Conserves b b' := by
  obtain ⟨told, hq, ha, hs⟩ := h
  obtain ⟨told', hq', ha', hs'⟩ := h'
  refine ⟨told' + told, ?_, ha'.trans ha, ?_⟩
  · rw [hq, hq', add_assoc]
  · rw [hs', hs, Multiset.map_add, add_comm (told'.map _), add_assoc]

/-- Where the books are conserved, everything is accounted for. -/
theorem Conserves.accounts (h : Conserves b b') : Accounts b b' := by
  obtain ⟨told, hq, ha, hs⟩ := h
  refine ⟨0, told, ?_, ?_, hs.ge⟩
  · rw [add_zero, hq]
  · rw [add_zero, ha]

/-- What is no longer queued half way is accounted for there. -/
theorem Accounts.trans (h : Accounts b b₁) (h' : Accounts b₁ b') : Accounts b b' := by
  obtain ⟨taken, told, hq, ha, hs⟩ := h
  obtain ⟨taken', told', hq', ha', hs'⟩ := h'
  refine ⟨taken' + taken, told' + told, ?_, ?_, ?_⟩
  · calc b.queued ≤ b₁.queued + taken + told := hq
      _ ≤ b'.queued + taken' + told' + taken + told := by gcongr
      _ = b'.queued + (taken' + taken) + (told' + told) := by
        simp only [add_assoc, add_left_comm told' taken]
  · calc b.accepted + (taken' + taken) = b.accepted + taken + taken' := by
          rw [add_comm taken', add_assoc]
      _ ≤ b₁.accepted + taken' := by gcongr
      _ ≤ b'.accepted := ha'
  · calc b.answered + (told' + told).map PendingSend.sender
        = b.answered + told.map PendingSend.sender + told'.map PendingSend.sender := by
          rw [Multiset.map_add, add_comm (told'.map _), add_assoc]
      _ ≤ b₁.answered + told'.map PendingSend.sender := by gcongr
      _ ≤ b'.answered := hs'

/-- What waits elsewhere does not matter. -/
theorem Conserves.beside (h : Conserves b b') (rest : Multiset PendingSend) :
    Conserves (b.beside rest) (b'.beside rest) := by
  obtain ⟨told, hq, ha, hs⟩ := h
  refine ⟨told, ?_, ha, hs⟩
  change b.queued + rest = b'.queued + rest + told
  rw [hq, add_right_comm]

/-- The sends of other entries do not matter. -/
theorem Accounts.beside (h : Accounts b b') (rest : Multiset PendingSend) :
    Accounts (b.beside rest) (b'.beside rest) := by
  obtain ⟨taken, told, hq, ha, hs⟩ := h
  refine ⟨taken, told, ?_, ha, hs⟩
  calc b.queued + rest ≤ b'.queued + taken + told + rest := by gcongr
    _ = b'.queued + rest + taken + told := by
      simp only [add_assoc, add_comm rest]

/-- Where the books conserve up to a point and sends are thrown away there, they do not account
for these. -/
theorem Accounts.nothing_lost {lost : Multiset PendingSend}
    (hconserves : Conserves b b₁) (hlost : b₁.queued = b'.queued + lost)
    (hacc : b'.accepted = b₁.accepted) (hans : b'.answered = b₁.answered) (h : Accounts b b') :
    lost = 0 := by
  obtain ⟨answered, hq, ha, hs⟩ := hconserves
  obtain ⟨taken, told, hle, hle', hle''⟩ := h
  have hqueued := Multiset.card_le_card hle
  have htaken := Multiset.card_le_card hle'
  have htold := Multiset.card_le_card hle''
  rw [hq, hlost] at hqueued
  rw [hacc, ha] at htaken
  rw [hans, hs] at htold
  simp only [Multiset.card_add, Multiset.card_map] at hqueued htaken htold
  exact Multiset.card_eq_zero.mp (by omega)

end

/-! ## One entry -/

/-- The books of the entry that a function runs on. -/
def Edit.books (w : Edit) : Books := .of w.entry.pendingSends w.tried w.actions

/-- The senders answered so far, in order. -/
def Edit.answers (w : Edit) : List (ℕ × Waker) := w.actions.filterMap PeerAction.answers?

/-- The entry with nothing queued. -/
def Edit.cleared (w : Edit) : Edit := w.modify fun e => { e with pendingSends := [] }

/-- An attempt at an outbound channel. -/
def TrySend.isOutbound : TrySend → Bool
  | .outbound .. => true
  | .inbound .. => false

/-- The queue is kept, or every send in it is answered. No outbound channel is used, and no pipe
comes in. -/
structure Settles (w w' : Edit) : Prop where
  pipe : w'.entry.pipe = w.entry.pipe ∨ w'.entry.pipe = none
  offered : w'.tried.filter TrySend.isOutbound = w.tried.filter TrySend.isOutbound
  queue : w'.entry.pendingSends = w.entry.pendingSends ∧ w'.answers = w.answers ∨
    w'.entry.pendingSends = [] ∧
      w'.answers = w.answers ++ w.entry.pendingSends.map PendingSend.sender

/-- No send comes in. -/
theorem Settles.queue_sublist {w w' : Edit} (h : Settles w w') :
    w'.entry.pendingSends.Sublist w.entry.pendingSends := by
  rcases h.queue with ⟨hq, -⟩ | ⟨hq, -⟩
  · rw [hq]
  · rw [hq]
    exact List.nil_sublist _

/-- What an inbound channel takes is a fragment. -/
theorem accepted_outbound (tried : List TrySend) :
    (tried.filter TrySend.isOutbound).filterMap TrySend.accepted? =
      tried.filterMap TrySend.accepted? := by
  induction tried with
  | nil => rfl
  | cons x tried ih =>
      cases x with
      | outbound tx send result =>
          rw [List.filter_cons_of_pos rfl, List.filterMap_cons, List.filterMap_cons, ih]
      | inbound tx bytes result =>
          rw [List.filter_cons_of_neg (by simp [TrySend.isOutbound]), ih]
          rfl

namespace Settles

variable {w w₁ w' : Edit}

theorem refl (w : Edit) : Settles w w := ⟨.inl rfl, rfl, .inl ⟨rfl, rfl⟩⟩

/-- A queue that was kept or answered half way is kept or answered in the end. -/
theorem trans (h : Settles w w₁) (h' : Settles w₁ w') : Settles w w' where
  pipe := by
    rcases h'.pipe with hp | hp
    · rw [hp]
      exact h.pipe
    · exact .inr hp
  offered := h'.offered.trans h.offered
  queue := by
    rcases h.queue with ⟨hq, ha⟩ | ⟨hq, ha⟩
    · rw [← hq, ← ha]
      exact h'.queue
    · -- what is answered once is no longer queued
      rcases h'.queue with ⟨hq', ha'⟩ | ⟨hq', ha'⟩
      · exact .inr ⟨hq'.trans hq, ha'.trans ha⟩
      · rw [hq, List.map_nil, List.append_nil] at ha'
        exact .inr ⟨hq', ha'.trans ha⟩

/-- Settling conserves: a queue that is gone was answered, send by send. -/
theorem conserves (h : Settles w w') : Conserves w.books w'.books := by
  have haccepted : w'.books.accepted = w.books.accepted := by
    change (↑(w'.tried.filterMap TrySend.accepted?) : Multiset PendingSend) =
      ↑(w.tried.filterMap TrySend.accepted?)
    rw [← accepted_outbound, h.offered, accepted_outbound]
  rcases h.queue with ⟨hq, ha⟩ | ⟨hq, ha⟩
  · refine ⟨0, ?_, haccepted, ?_⟩
    · change (↑w.entry.pendingSends : Multiset PendingSend) = ↑w'.entry.pendingSends + 0
      rw [hq, add_zero]
    · change (↑w'.answers : Multiset (ℕ × Waker)) = ↑w.answers + _
      rw [ha, Multiset.map_zero, add_zero]
  · refine ⟨w.entry.pendingSends, ?_, haccepted, ?_⟩
    · change (↑w.entry.pendingSends : Multiset PendingSend) = ↑w'.entry.pendingSends + _
      rw [hq, Multiset.coe_nil, zero_add]
    · change (↑w'.answers : Multiset (ℕ × Waker)) = ↑w.answers + _
      rw [ha, Multiset.map_coe, Multiset.coe_add]

theorem accounts (h : Settles w w') : Accounts w.books w'.books := h.conserves.accounts

/-- A queue that is cleared first is not answered. -/
theorem of_cleared (h : Settles w.cleared w') :
    w'.entry.pendingSends = [] ∧ w'.books.accepted = w.books.accepted ∧
      w'.books.answered = w.books.answered := by
  obtain ⟨told, hq, ha, hs⟩ := h.conserves
  have hcard := congrArg Multiset.card hq
  change 0 = _ at hcard
  rw [Multiset.card_add] at hcard
  have hempty : w'.books.queued = 0 := Multiset.card_eq_zero.mp (by omega)
  have htold : told = 0 := Multiset.card_eq_zero.mp (by omega)
  rw [htold, Multiset.map_zero, add_zero] at hs
  exact ⟨(Multiset.coe_eq_zero _).mp hempty, ha, hs⟩

/-- An edit that leaves the queue and the pipe alone, uses no channel and answers nobody. -/
theorem quiet (hq : w'.entry.pendingSends = w.entry.pendingSends)
    (hp : w'.entry.pipe = w.entry.pipe) (ht : w'.tried = w.tried) (ha : w'.answers = w.answers) :
    Settles w w' :=
  ⟨.inl hp, by rw [ht], .inl ⟨hq, ha⟩⟩

theorem push (w : Edit) {a : PeerAction} (ha : a.answers? = none) : Settles w (w.push a) := by
  refine quiet rfl rfl rfl ?_
  simp [Edit.answers, Edit.push, ha]

theorem modify (w : Edit) {f : PeerEntry → PeerEntry}
    (hq : (f w.entry).pendingSends = w.entry.pendingSends)
    (hp : (f w.entry).pipe = w.entry.pipe) : Settles w (w.modify f) :=
  quiet hq hp rfl rfl

/-- The same for an edit that drops the pipe. -/
theorem unpipe (w : Edit) {f : PeerEntry → PeerEntry}
    (hq : (f w.entry).pendingSends = w.entry.pendingSends) (hp : (f w.entry).pipe = none) :
    Settles w (w.modify f) :=
  ⟨.inr hp, rfl, .inl ⟨hq, rfl⟩⟩

theorem setPhase (w : Edit) (phase : PeerPhase) : Settles w (w.setPhase phase) := modify w rfl rfl

theorem abandonOutstanding (w : Edit) : Settles w w.abandonOutstanding := by
  refine quiet rfl rfl rfl ?_
  simp [Edit.answers, Edit.abandonOutstanding, PeerAction.answers?]

/-- Every queued sender is told, once. -/
theorem failPending (w : Edit) (kind : ErrorKind) : Settles w (w.failPending kind) := by
  have hsenders : (w.entry.pendingSends.map fun send =>
      PeerAction.ackSend send.txGen send.waker (.err kind)).filterMap PeerAction.answers? =
      w.entry.pendingSends.map PendingSend.sender := by
    rw [List.filterMap_map]
    exact congrFun (List.filterMap_eq_map (f := PendingSend.sender)) _
  refine ⟨.inl rfl, rfl, .inr ⟨rfl, ?_⟩⟩
  unfold Edit.answers Edit.failPending
  rw [List.filterMap_append, hsenders]

theorem beginConnect (w : Edit) (now attempt : ℕ) :
    Settles w (w.beginConnect now attempt) :=
  ((abandonOutstanding w).trans (setPhase _ _)).trans (push _ rfl)

theorem armForDial (w : Edit) (now : ℕ) (deferPrefix : Option KeyPrefix) :
    Settles w (w.armForDial now deferPrefix) := by
  unfold Edit.armForDial
  split
  · exact setPhase w _
  · split
    · exact setPhase w _
    · exact beginConnect w now 0

theorem clearConnectionState (w : Edit) : Settles w w.clearConnectionState :=
  (abandonOutstanding w).trans (unpipe _ rfl rfl)

theorem resumeDrainedEntry (w : Edit) (now : ℕ) :
    Settles w (w.resumeDrainedEntry now) :=
  (clearConnectionState w).trans (armForDial _ now none)

/-- The end of a session answers everything that waits. -/
theorem drainToDraining (w : Edit) (now systemNow : ℕ) (reason : DisconnectReason) :
    Settles w (w.drainToDraining now systemNow reason) := by
  have hfail : Settles w (((w.modify fun e => { e with pipe := none }).abandonOutstanding.modify fun e =>
        { e with resumeAfterDrain := false, l2capUpgradeFailed := false }).failPending
          .brokenPipe) :=
    (((unpipe w rfl rfl).trans (abandonOutstanding _)).trans (modify _ rfl rfl)).trans (failPending _ _)
  unfold Edit.drainToDraining
  dsimp only
  refine hfail.trans ?_
  split
  · split
    · exact (push _ rfl).trans (setPhase _ _)
    · exact setPhase _ _
  · exact setPhase _ _

theorem closeChannel (w : Edit) (channel : Option ChannelHandle) (l : ℕ)
    (reason : DisconnectReason) : Settles w (w.closeChannel channel l reason) := by
  cases channel with
  | none => exact refl _
  | some ch => exact push w rfl

theorem refreshOn133 (w : Edit) (reason : DisconnectReason) (l : ℕ) :
    Settles w (w.refreshOn133 reason l) := by
  unfold Edit.refreshOn133
  split
  · exact push w rfl
  · exact refl _

/-- The attempt that gives the entry up answers its queue too; an earlier one keeps it. -/
theorem dialFailed (w : Edit) (now attempt : ℕ) (metric : String) (reason : DisconnectReason) :
    Settles w (w.dialFailed now attempt metric reason) := by
  have hdead : ∀ w : Edit, Settles w ((w.modify fun e => { e with targetEndpoint := none }).setPhase
      (.dead .maxRetries now)) :=
    fun w => (modify w rfl rfl).trans (setPhase _ _)
  unfold Edit.dialFailed
  dsimp only
  refine (push (a := .emitMetric ("connect_failed:" ++ metric)) w rfl).trans ?_
  split
  · refine (hdead _).trans ?_
    split
    · exact push _ rfl
    · exact refl _
  · exact setPhase _ _

theorem startDataPipe (w : Edit) (role : ConnectRole) (path : ConnectPath)
    (l2cap : Option L2capChannel) : Settles w (w.startDataPipe role path l2cap) :=
  push w rfl

/-- A session that starts: a new generation, and its pipe is asked for. -/
theorem enterConnected (w : Edit) (now : ℕ) (channel : ChannelHandle) (role : ConnectRole)
    (path : ConnectPath) (l2cap : Option L2capChannel) :
    Settles w ((w.enterConnected now channel).startDataPipe role path l2cap) :=
  (modify w rfl rfl).trans (startDataPipe _ _ _ _)

/-- Changes within a session leave the queue alone. -/
theorem setUpgrading (w : Edit) (upgrading : Bool) :
    Settles w (w.setUpgrading upgrading) := by
  unfold Edit.setUpgrading
  split
  · exact setPhase w _
  · exact refl _

/-- The path of a session has nothing to do with its queue. -/
theorem setPath (w : Edit) (path : ConnectPath) : Settles w (w.setPath path) := by
  unfold Edit.setPath
  split
  · exact setPhase w _
  · exact refl _

theorem requestUpgrade (w : Edit) : Settles w w.requestUpgrade :=
  ((setUpgrading w true).trans (modify _ rfl rfl)).trans (push _ rfl)

theorem noteSubscriber (w : Edit) (now : ℕ) (c : Uuid) (p : Option KeyPrefix)
    (verified : Option EndpointId) :
    Settles w (w.noteSubscriber now c p verified) := by
  unfold Edit.noteSubscriber
  cases p <;> cases verified <;> dsimp only
  · exact modify w rfl rfl
  · split <;> exact quiet rfl rfl rfl rfl
  · exact quiet rfl rfl rfl rfl
  · split <;> exact quiet rfl rfl rfl rfl

theorem restartPeripheralGattPipe (w : Edit) (now : ℕ) (first : Option Bytes) (char : Option Uuid) :
    Settles w (w.restartPeripheralGattPipe now first char) :=
  (((unpipe w rfl rfl).trans (abandonOutstanding _)).trans (modify _ rfl rfl)).trans
    (enterConnected _ _ _ _ _ _)

theorem deliver (w : Edit) (io : Io) (pipe : PipeHandles) (bytes : Bytes) :
    Settles w (w.deliver io pipe bytes) := by
  refine ⟨.inl rfl, ?_, .inl ⟨rfl, rfl⟩⟩
  unfold Edit.deliver Edit.attempted
  rw [List.filter_append]
  exact List.append_nil _

/-! ## The handlers that branch -/

theorem peripheralClientSubscribed (w : Edit) (now : ℕ) (c : Uuid) (p : Option KeyPrefix)
    (verified : Option EndpointId) :
    Settles w (w.peripheralClientSubscribed now c p verified) := by
  refine (noteSubscriber w now c p verified).trans ?_
  unfold Edit.peripheralClientSubscribed
  dsimp only
  split
  · split
    · exact refl _
    · exact restartPeripheralGattPipe _ _ _ _
  · exact refl _
  · exact refl _
  · exact restartPeripheralGattPipe _ _ _ _

/-- The queue is answered with the end of the session. -/
theorem peripheralClientUnsubscribed (w : Edit) (now systemNow : ℕ) (c : Uuid) :
    Settles w (w.peripheralClientUnsubscribed now systemNow c) := by
  unfold Edit.peripheralClientUnsubscribed
  dsimp only
  split
  · exact modify w rfl rfl
  · exact ((modify w rfl rfl).trans (modify _ rfl rfl)).trans (drainToDraining _ _ _ _)

/-- Whatever an advertisement starts, the queue waits for it. -/
theorem advertised (w : Edit) (now : ℕ) (p : KeyPrefix) (deferPrefix : Option KeyPrefix) :
    Settles w (w.advertised now p deferPrefix) := by
  have hseen : Settles w (w.modify fun e =>
      { e with lastAdv := some now, keyPrefix := some p, verifiedLiveSuppressedLogged := false }) :=
    modify w rfl rfl
  unfold Edit.advertised
  dsimp only
  refine hseen.trans ?_
  split
  · exact armForDial _ _ _
  · split
    · exact refl _
    · exact armForDial _ _ _
  · exact (clearConnectionState _).trans (armForDial _ _ _)
  · exact (clearConnectionState _).trans (armForDial _ _ _)
  · split
    · exact beginConnect _ _ _
    · exact refl _
  · exact refl _

theorem connectSucceeded (w : Edit) (now l : ℕ) (channel : ChannelHandle)
    (upgrade : PeerEntry → Bool) :
    Settles w (w.connectSucceeded now l channel upgrade) := by
  unfold Edit.connectSucceeded
  split
  · exact refl _
  · have hread : Settles w ((w.modify fun e =>
        { e with consecutiveFailures := 0, subscribedChars := ∅ }).push
          (.readVersion w.entry.deviceId l)) :=
      (modify w rfl rfl).trans (push _ rfl)
    refine (hread.trans (enterConnected _ now channel w.entry.role .gatt none)).trans ?_
    dsimp only
    split
    · exact requestUpgrade _
    · exact refl _

/-- A failure answers the queue or keeps it for the next attempt. -/
theorem connectFailed (w : Edit) (now l : ℕ) (error : String) :
    Settles w (w.connectFailed now l error) := by
  unfold Edit.connectFailed
  split
  · exact refl _
  · split
    · have hclose : Settles w ((w.push (.closeNativeConnection w.entry.deviceId
          l)).abandonOutstanding.modify fun e =>
            { e with consecutiveFailures := e.consecutiveFailures + 1 }) :=
        ((push w rfl).trans (abandonOutstanding _)).trans (modify _ rfl rfl)
      exact hclose.trans (dialFailed _ _ _ _ _)
    · exact refl _

theorem reviveByFragment (w : Edit) (now : ℕ) (source : FragmentSource) (bytes : Bytes) :
    Settles w (w.reviveByFragment now source bytes) := by
  unfold Edit.reviveByFragment
  dsimp only
  split
  · exact (unpipe w rfl rfl).trans (enterConnected _ _ _ _ _ _)
  · exact ((abandonOutstanding w).trans (unpipe _ rfl rfl)).trans (enterConnected _ _ _ _ _ _)

/-- A fragment may start a session, and the queue waits for its pipe. -/
theorem inboundGattFragment (w : Edit) (io : Io) (source : FragmentSource) (bytes : Bytes) :
    Settles w (w.inboundGattFragment io source bytes) := by
  have hrx : Settles w (w.modify fun e => { e with lastRx := some io.now }) :=
    modify w rfl rfl
  unfold Edit.inboundGattFragment
  dsimp only
  refine hrx.trans ?_
  split
  · exact (modify _ rfl rfl).trans (enterConnected _ _ _ _ _ _)
  · split
    · exact deliver _ _ _ _
    · split
      · exact restartPeripheralGattPipe _ _ _ _
      · exact modify _ rfl rfl
  · exact refl _
  · exact reviveByFragment _ _ _ _

/-- A disconnect while dialling only clears the queue. -/
theorem centralDisconnected (w : Edit) (now systemNow : ℕ) (cause : DisconnectCause)
    (hq : w.entry.phase.isConnecting = true → w.entry.pendingSends = []) :
    Settles w (w.centralDisconnected now systemNow cause) := by
  unfold Edit.centralDisconnected
  dsimp only
  split
  · rename_i attempt started path hphase
    have hempty : w.entry.pendingSends = [] := by
      apply hq
      rw [hphase]
      rfl
    have hcount : Settles w (w.abandonOutstanding.modify fun e =>
        { e with consecutiveFailures := e.consecutiveFailures + 1, pendingSends := [] }) :=
      (abandonOutstanding w).trans (modify _ hempty.symm rfl)
    exact (hcount.trans (dialFailed _ _ _ _ _)).trans (refreshOn133 _ _ _)
  · split
    · exact resumeDrainedEntry w now
    · exact (drainToDraining w _ _ _).trans (refreshOn133 _ _ _)
  · exact ((drainToDraining w _ _ _).trans (closeChannel _ _ _ _)).trans (refreshOn133 _ _ _)

/-- A disconnect while dialling is the same whatever is queued. -/
theorem cleared_centralDisconnected {w : Edit} (now systemNow : ℕ) (cause : DisconnectCause)
    (hconnecting : w.entry.phase.isConnecting = true) :
    Settles w.cleared (w.centralDisconnected now systemNow cause) := by
  have hsame : w.centralDisconnected now systemNow cause =
      w.cleared.centralDisconnected now systemNow cause := by
    cases hp : w.entry.phase with
    | connecting attempt started path =>
        unfold Edit.centralDisconnected
        simp only [Edit.cleared, Edit.modify_entry, hp]
        rfl
    | _ =>
        rw [hp] at hconnecting
        cases hconnecting
  rw [hsame]
  exact centralDisconnected _ _ _ _ fun _ => rfl

theorem adapterOff (w : Edit) (now : ℕ) (hq : w.entry.pendingSends = []) :
    Settles w (w.adapterOff now) :=
  ((abandonOutstanding w).trans (setPhase _ _)).trans (modify _ hq.symm rfl)

theorem cleared_adapterOff (w : Edit) (now : ℕ) : Settles w.cleared (w.adapterOff now) :=
  (adapterOff w.cleared now rfl : Settles w.cleared (w.cleared.adapterOff now))

theorem adapterOn (w : Edit) (now : ℕ) : Settles w (w.adapterOn now) := by
  unfold Edit.adapterOn
  split
  · exact setPhase w _
  · exact refl _

/-- Of what falls due only the wedged session answers its queue. -/
theorem tickApply (w : Edit) (tickNow systemNow : ℕ) (action : Edit.TickAction) :
    Settles w (w.tickApply tickNow systemNow action) := by
  cases action with
  | startConnect attempt => exact beginConnect w tickNow attempt
  | pendingDialExpired => exact beginConnect w tickNow 0
  | drainingToDead =>
      unfold Edit.tickApply
      dsimp only
      split
      · exact resumeDrainedEntry w tickNow
      · exact (modify w rfl rfl).trans (setPhase _ _)
  | restoringToDead => exact (modify w rfl rfl).trans (setPhase _ _)
  | connectedWedged =>
      exact ((drainToDraining w _ _ _).trans (closeChannel _ _ _ _)).trans (push _ rfl)

/-- A forgotten device's senders are told. -/
theorem forget (w : Edit) (now : ℕ) : Settles w (w.forget now) := by
  have hfail : Settles w (((w.modify fun e =>
      { e with pipe := none }).abandonOutstanding).failPending .connectionAborted) :=
    ((unpipe w rfl rfl).trans (abandonOutstanding _)).trans (failPending _ _)
  exact ((hfail.trans (modify _ rfl rfl)).trans (setPhase _ _)).trans (closeChannel _ _ _ _)

theorem stalled (w : Edit) (now systemNow : ℕ) (cause : StallCause) :
    Settles w (w.stalled now systemNow cause) := by
  unfold Edit.stalled
  split
  · exact ((drainToDraining w _ _ _).trans (modify _ rfl rfl)).trans (closeChannel _ _ _ _)
  · exact refl _

theorem shutdown (w : Edit) : Settles w w.shutdown :=
  (abandonOutstanding w).trans (failPending _ _)

theorem openL2capSucceeded (w : Edit) (now l upgradeGen : ℕ) (channel : L2capChannel) :
    Settles w (w.openL2capSucceeded now l upgradeGen channel) := by
  unfold Edit.openL2capSucceeded
  split
  · exact refl _
  · split
    · exact (modify w rfl rfl).trans (enterConnected _ _ _ _ _ _)
    · split
      · exact (setPath w _).trans (push _ rfl)
      · exact (modify w rfl rfl).trans (setUpgrading _ _)
    · exact refl _

theorem openL2capFailed (w : Edit) (now l upgradeGen : ℕ) (error : String) :
    Settles w (w.openL2capFailed now l upgradeGen error) := by
  unfold Edit.openL2capFailed
  split
  · exact refl _
  · split
    · exact ((modify w rfl rfl).trans (enterConnected _ _ _ _ _ _)).trans (push _ rfl)
    · exact (modify w rfl rfl).trans (setUpgrading _ _)
    · exact refl _

theorem inboundL2capChannel (w : Edit) (now : ℕ) (channel : L2capChannel) :
    Settles w (w.inboundL2capChannel now channel) := by
  unfold Edit.inboundL2capChannel
  split
  · split
    · exact push w rfl
    · exact ((setPath w _).trans (push _ rfl)).trans (push _ rfl)
    · exact push w rfl
  · exact ((abandonOutstanding w).trans (modify _ rfl rfl)).trans (enterConnected _ _ _ _ _ _)

theorem protocolVersionMismatch (w : Edit) (now systemNow l : ℕ) (got want : UInt8) :
    Settles w (w.protocolVersionMismatch now systemNow l got want) := by
  unfold Edit.protocolVersionMismatch
  split
  · exact refl _
  · exact (((drainToDraining w _ _ _).trans (modify _ rfl rfl)).trans (setPhase _ _)).trans
      (closeChannel _ _ _ _)

theorem l2capHandoverTimeout (w : Edit) : Settles w w.l2capHandoverTimeout :=
  (modify w rfl rfl).trans (setPath _ _)

end Settles

/-! ## Sends -/

theorem accepted_ok (tx : Sender) (sends : List PendingSend) :
    (sends.map (TrySend.outbound tx · .ok)).filterMap TrySend.accepted? = sends := by
  rw [List.filterMap_map]
  exact (List.filterMap_congr fun s _ => rfl).trans List.filterMap_some

/-- The refused one is not. -/
theorem accepted_refused (tx : Sender) (s : PendingSend) {result : TrySendResult}
    (h : result ≠ .ok) : [TrySend.outbound tx s result].filterMap TrySend.accepted? = [] := by
  cases result with
  | ok => exact absurd rfl h
  | full => rfl
  | closed => rfl

namespace Accounts

variable {w : Edit}

/-- What a flush takes out of the queue is in the channel. -/
theorem flushed {io : Io} {tx : Sender} {x : Edit × Option TrySendResult}
    (h : Edit.Flushed io tx w.entry.pendingSends w x) : Accounts w.books x.1.books := by
  cases h with
  | all =>
      refine ⟨w.entry.pendingSends, 0, ?_, ?_, ?_⟩
      · simp [Edit.books, Books.of]
      · simp only [Edit.books, Books.of, List.filterMap_append, accepted_ok, Multiset.coe_add, le_refl]
      · simp [Edit.books, Books.of]
  | @stopped taken rest send result hsends hresult _ =>
      refine ⟨taken, 0, ?_, ?_, ?_⟩
      · have hq : (↑w.entry.pendingSends : Multiset PendingSend) = ↑(send :: rest) + ↑taken := by
          rw [hsends, Multiset.coe_add]
          exact Multiset.coe_eq_coe.mpr List.perm_append_comm
        simp [Edit.books, Books.of, hq]
      · simp only [Edit.books, Books.of, List.filterMap_append, accepted_ok,
          accepted_refused tx send hresult, List.append_nil, Multiset.coe_add, le_refl]
      · simp [Edit.books, Books.of]

/-- What the flush takes off the queue, the channel took. -/
theorem drainBuffered (w : Edit) (io : Io) : Accounts w.books (w.drainBuffered io).books := by
  have h := Edit.drained w io
  generalize w.drainBuffered io = w' at h ⊢
  cases h with
  | idle hp => exact (Settles.refl _).accounts
  | flushed hp hf hopen => exact flushed hf
  | closed hp hf => exact (flushed hf).trans (Settles.unpipe _ rfl rfl).accounts

/-- Nothing leaves the queue. -/
theorem grows {w w' : Edit} (hq : w.entry.pendingSends.Sublist w'.entry.pendingSends)
    (ht : w.tried.Sublist w'.tried) (ha : w.actions.Sublist w'.actions) :
    Accounts w.books w'.books := by
  refine ⟨0, 0, ?_, ?_, ?_⟩
  · simpa [Edit.books, Books.of] using hq.subperm
  · simpa [Edit.books, Books.of] using (ht.filterMap _).subperm
  · simpa [Edit.books, Books.of] using (ha.filterMap _).subperm

theorem buffer (w : Edit) (target : Option EndpointId) (send : PendingSend) :
    Accounts w.books (w.buffer target send).books :=
  grows (List.sublist_append_left _ _) (List.Sublist.refl _) (List.Sublist.refl _)

theorem push (w : Edit) (a : PeerAction) : Accounts w.books (w.push a).books :=
  grows (List.Sublist.refl _) (List.Sublist.refl _) (List.sublist_append_left _ _)

theorem attempted (w : Edit) (a : TrySend) : Accounts w.books (w.attempted a).books :=
  grows (List.Sublist.refl _) (List.sublist_append_left _ _) (List.Sublist.refl _)

/-- The new datagram is taken, or its sender is answered. -/
theorem offer (w : Edit) (io : Io) (send : PendingSend) :
    Accounts w.books (w.offer io send).books := by
  have hlater : ∀ (w : Edit) (pipe : Option PipeHandles), Accounts w.books
      (w.modify fun e => { e with pipe := pipe, pendingSends := e.pendingSends ++ [send] }).books :=
    fun w pipe => grows (List.sublist_append_left _ _) (List.Sublist.refl _) (List.Sublist.refl _)
  unfold Edit.offer
  split
  · exact grows (List.sublist_append_left _ _) (List.Sublist.refl _) (List.Sublist.refl _)
  · split
    · exact (attempted w _).trans (push _ _)
    · exact (attempted w _).trans (push _ _)
    · exact ((attempted w _).trans (hlater _ none)).trans (push _ _)

/-- In every branch the sends that waited still wait or were taken. -/
theorem sendDatagram (w : Edit) (io : Io) (target : Option EndpointId) (send : PendingSend) :
    Accounts w.books (w.sendDatagram io target send).books := by
  unfold Edit.sendDatagram
  split
  · exact (drainBuffered w io).trans (offer _ io send)
  · exact push w _
  · exact (buffer w target send).trans (push _ _)
  · exact (buffer w target send).trans (Settles.beginConnect _ _ _).accounts

/-- Fragments are not sends. -/
theorem flushBacklog (io : Io) (tx : Sender) (backlog : List Bytes) (w : Edit) :
    Accounts w.books (Edit.flushBacklog io tx backlog w).books := by
  obtain ⟨tried, htried, -⟩ := Edit.flushBacklog_tried tx io tx backlog w
  obtain ⟨_, _, hw⟩ := (Edit.released io tx backlog w).frame
  refine grows ?_ ?_ ?_
  · rw [hw]
  · rw [htried]
    exact List.sublist_append_left _ _
  · rw [hw]

/-- The new pipe takes the queue, or what it refuses stays. -/
theorem dataPipeReady (w : Edit) (io : Io) (txGen : ℕ) (handles : PipeHandles) :
    Accounts w.books (w.dataPipeReady io txGen handles).books := by
  unfold Edit.dataPipeReady
  split
  · exact (Settles.refl _).accounts
  · have hready : ∀ w : Edit, Accounts w.books
        (w.modify fun e => { e with pipe := some handles, targetEndpoint := none }).books :=
      fun w => grows (List.Sublist.refl _) (List.Sublist.refl _) (List.Sublist.refl _)
    exact ((flushBacklog io _ _ w).trans (flushed (Edit.flushed io _ _ _))).trans (hready _)

end Accounts

end IrohBle
