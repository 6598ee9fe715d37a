import IrohBle.Registry.Entry

/-! # Registry.EntrySpec: what each entry-level function leaves behind

One equation for the entry a function leaves, where it does not branch, and the
same for the actions it pushes. Later proofs rewrite with these and do not unfold
the functions.
-/

namespace IrohBle.Edit

open Reliable

variable (w : Edit)

/-! ## Entries -/

@[simp] theorem push_entry (a : PeerAction) : (w.push a).entry = w.entry := rfl

@[simp] theorem modify_entry (f : PeerEntry → PeerEntry) : (w.modify f).entry = f w.entry := rfl

@[simp] theorem setPhase_entry (phase : PeerPhase) :
    (w.setPhase phase).entry = { w.entry with phase } := rfl

@[simp] theorem attempted_entry (a : TrySend) : (w.attempted a).entry = w.entry := rfl

@[simp] theorem abandonOutstanding_entry :
    w.abandonOutstanding.entry =
      { w.entry with lifecycleId := w.nextLifecycle, upgradeGen := 0 } := rfl

@[simp] theorem beginConnect_entry (now attempt : ℕ) :
    (w.beginConnect now attempt).entry =
      { w.entry with
        lifecycleId := w.nextLifecycle
        upgradeGen := 0
        phase := .connecting attempt now .gatt } := rfl

@[simp] theorem failPending_entry (kind : ErrorKind) :
    (w.failPending kind).entry = { w.entry with pendingSends := [] } := rfl

@[simp] theorem enterConnected_entry (now : ℕ) (channel : ChannelHandle) :
    (w.enterConnected now channel).entry =
      { w.entry with
        txGen := w.entry.txGen + 1
        phase := .connected now channel (w.entry.txGen + 1) false } := rfl

@[simp] theorem startDataPipe_entry (role : ConnectRole) (path : ConnectPath)
    (l2cap : Option L2capChannel) : (w.startDataPipe role path l2cap).entry = w.entry := rfl

@[simp] theorem closeChannel_entry (channel : Option ChannelHandle) (lifecycleId : ℕ)
    (reason : DisconnectReason) : (w.closeChannel channel lifecycleId reason).entry = w.entry := by
  cases channel <;> rfl

@[simp] theorem refreshOn133_entry (reason : DisconnectReason) (lifecycleId : ℕ) :
    (w.refreshOn133 reason lifecycleId).entry = w.entry := by
  unfold refreshOn133
  split <;> rfl

/-- Draining ends the session, the lifecycle and the sends at once. Role, prefix and identity
stay. -/
@[simp] theorem drainToDraining_entry (now systemNow : ℕ) (reason : DisconnectReason) :
    (w.drainToDraining now systemNow reason).entry =
      { w.entry with
        phase := .draining now reason
        lifecycleId := w.nextLifecycle
        upgradeGen := 0
        pendingSends := []
        pipe := none
        l2capUpgradeFailed := false
        resumeAfterDrain := false } := by
  -- the updates are merged first: comparing them one inside the other is slow
  unfold drainToDraining setPhase
  dsimp only [modify, failPending, abandonOutstanding]
  split
  · split <;> rfl
  · rfl

/-- A subscription may change who the device is, and nothing of its session. -/
theorem noteSubscriber_entry (now : ℕ) (c : Uuid) (p : Option KeyPrefix)
    (verified : Option EndpointId) :
    ∃ subscribedChars keyPrefix verifiedEndpoint verifiedAt,
      (w.noteSubscriber now c p verified).entry =
        { w.entry with subscribedChars, keyPrefix, verifiedEndpoint, verifiedAt } := by
  unfold noteSubscriber
  cases p <;> cases verified <;> dsimp only
  · exact ⟨_, _, _, _, rfl⟩
  · split <;> exact ⟨_, _, _, _, rfl⟩
  · exact ⟨_, _, _, _, rfl⟩
  · split <;> exact ⟨_, _, _, _, rfl⟩

/-- An entry that is armed is idle, waits its turn or dials. -/
theorem armForDial_entry (now : ℕ) (deferPrefix : Option KeyPrefix) :
    ∃ phase lifecycleId upgradeGen,
      (w.armForDial now deferPrefix).entry = { w.entry with phase, lifecycleId, upgradeGen } ∧
        (phase = .discovered now ∨ (∃ p, phase = .pendingDial now (pendingDialDeadline now p) p) ∨
          phase = .connecting 0 now .gatt) := by
  unfold armForDial
  split
  · exact ⟨_, _, _, rfl, Or.inl rfl⟩
  · split
    · rename_i p
      exact ⟨_, _, _, rfl, Or.inr (Or.inl ⟨p, rfl⟩)⟩
    · exact ⟨_, _, _, rfl, Or.inr (Or.inr rfl)⟩

/-- One more failed attempt leaves the entry waiting, or dead. -/
theorem dialFailed_entry (now attempt : ℕ) (metric : String) (reason : DisconnectReason) :
    (w.dialFailed now attempt metric reason).entry =
      if attempt + 1 ≥ maxConnectAttempts then
        { w.entry with targetEndpoint := none, phase := .dead .maxRetries now }
      else
        { w.entry with
          phase := .reconnecting (attempt + 1) (now + reconnectBackoff (attempt + 1)) reason } := by
  unfold dialFailed
  dsimp only
  split
  · split <;> rfl
  · rfl

/-- Setting a flag of a phase keeps what kind of phase it is. -/
theorem setUpgrading_entry (upgrading : Bool) :
    ∃ phase, (w.setUpgrading upgrading).entry = { w.entry with phase } ∧
      ((∃ since channel txGen up, w.entry.phase = .connected since channel txGen up ∧
          phase = .connected since channel txGen upgrading) ∨
        (w.entry.phase.isConnected = false ∧ phase = w.entry.phase)) := by
  unfold setUpgrading
  cases hp : w.entry.phase with
  | connected since channel txGen up => exact ⟨_, rfl, Or.inl ⟨_, _, _, _, rfl, rfl⟩⟩
  | _ => exact ⟨w.entry.phase, rfl, Or.inr ⟨rfl, hp⟩⟩

/-- The path of a session changes in place: the generation stays, and the upgrade is over. Outside
a session nothing changes. -/
theorem setPath_entry (path : ConnectPath) :
    ∃ phase, (w.setPath path).entry = { w.entry with phase } ∧
      ((∃ since channel txGen up, w.entry.phase = .connected since channel txGen up ∧
          phase = .connected since { channel with path } txGen false) ∨
        (w.entry.phase.isConnected = false ∧ phase = w.entry.phase)) := by
  unfold setPath
  cases hp : w.entry.phase with
  | connected since channel txGen up => exact ⟨_, rfl, Or.inl ⟨_, _, _, _, rfl, rfl⟩⟩
  | _ => exact ⟨w.entry.phase, rfl, Or.inr ⟨rfl, hp⟩⟩

/-- What a flush leaves: it took all sends, in order, or stopped at the first refusal. -/
inductive Flushed (io : Io) (tx : Sender) (sends : List PendingSend) (w : Edit) :
    Edit × Option TrySendResult → Prop where
  | all : Flushed io tx sends w
      ({ w with
          entry := { w.entry with pendingSends := [] }
          tried := w.tried ++ sends.map (TrySend.outbound tx · .ok) }, none)
  | stopped {taken rest : List PendingSend} {send : PendingSend} {result : TrySendResult}
      (hsends : sends = taken ++ send :: rest) (hresult : result ≠ .ok)
      (hio : io.trySend (w.tried.length + taken.length) = result) : Flushed io tx sends w
      ({ w with
          entry := { w.entry with pendingSends := send :: rest }
          tried := w.tried ++ taken.map (TrySend.outbound tx · .ok) ++
            [.outbound tx send result] }, some result)

/-- The flush stops at the first send that is not taken; that one and the rest stay. -/
theorem flushed (io : Io) (tx : Sender) (sends : List PendingSend) (w : Edit) :
    Flushed io tx sends w (flushSends io tx sends w) := by
  induction sends generalizing w with
  | nil =>
      have h : Flushed io tx [] w _ := .all
      rw [List.map_nil, List.append_nil] at h
      exact h
  | cons send rest ih =>
      unfold flushSends
      split
      · have h := ih (w.attempted (.outbound tx send .ok))
        generalize flushSends io tx rest (w.attempted (.outbound tx send .ok)) = x at h
        -- the send that went out comes before those of the rest
        cases h with
        | all =>
            have h : Flushed io tx (send :: rest) w _ := .all
            rw [List.map_cons, List.append_cons] at h
            exact h
        | @stopped taken rest' send' result hsends hresult hio =>
            have hindex : io.trySend (w.tried.length + (send :: taken).length) = result := by
              rw [← hio]
              congr 1
              simp only [attempted, List.length_append, List.length_cons, List.length_nil]
              omega
            have h : Flushed io tx (send :: rest) w _ :=
              @Flushed.stopped io tx _ w (send :: taken) rest' send' result (by rw [hsends]; rfl)
                hresult hindex
            rw [List.map_cons, List.append_cons w.tried] at h
            exact h
      · rename_i hresult
        have h : Flushed io tx (send :: rest) w _ :=
          @Flushed.stopped io tx _ w [] rest send _ rfl hresult rfl
        rw [List.map_nil, List.append_nil] at h
        exact h

/-- Either everything was sent, or the flush knows why not. -/
theorem Flushed.refusal {io : Io} {tx : Sender} {sends : List PendingSend} {w : Edit}
    {x : Edit × Option TrySendResult} (h : Flushed io tx sends w x) :
    x.1.entry.pendingSends = [] ∧ x.2 = none ∨ ∃ result, x.2 = some result ∧ result ≠ .ok := by
  cases h with
  | all => exact .inl ⟨rfl, rfl⟩
  | stopped hsends hresult hio => exact .inr ⟨_, rfl, hresult⟩

/-- Only the queue and the attempts change. -/
theorem Flushed.frame {io : Io} {tx : Sender} {sends : List PendingSend} {w : Edit}
    {x : Edit × Option TrySendResult} (h : Flushed io tx sends w x) :
    ∃ pendingSends tried, x.1 = { w with entry := { w.entry with pendingSends }, tried := tried } := by
  cases h with
  | all => exact ⟨_, _, rfl⟩
  | stopped hsends hresult hio => exact ⟨_, _, rfl⟩

theorem Flushed.pipe {io : Io} {tx : Sender} {sends : List PendingSend} {w : Edit}
    {x : Edit × Option TrySendResult} (h : Flushed io tx sends w x) :
    x.1.entry.pipe = w.entry.pipe := by
  obtain ⟨_, _, hw⟩ := h.frame
  rw [hw]

theorem flushSends_entry (io : Io) (tx : Sender) (sends : List PendingSend) (w : Edit) :
    ∃ pendingSends, (flushSends io tx sends w).1.entry = { w.entry with pendingSends } := by
  obtain ⟨pendingSends, _, hw⟩ := (flushed io tx sends w).frame
  exact ⟨pendingSends, congrArg Edit.entry hw⟩

/-- What a flush of the backlog leaves: it took all fragments, in order, or stopped at the first
refusal and lost that one. -/
inductive Released (io : Io) (tx : Sender) (backlog : List Bytes) (w : Edit) : Edit → Prop where
  | all : Released io tx backlog w
      { w with
        entry := { w.entry with rxBacklog := [] }
        tried := w.tried ++ backlog.map (TrySend.inbound tx · .ok) }
  | stopped {taken rest : List Bytes} {bytes : Bytes} {result : TrySendResult}
      (hbacklog : backlog = taken ++ bytes :: rest) (hresult : result ≠ .ok)
      (hio : io.trySend (w.tried.length + taken.length) = result) : Released io tx backlog w
      { w with
        entry := { w.entry with rxBacklog := rest }
        tried := w.tried ++ taken.map (TrySend.inbound tx · .ok) ++ [.inbound tx bytes result] }

/-- The backlog goes to the pipe in order, up to the first fragment that is refused. -/
theorem released (io : Io) (tx : Sender) (backlog : List Bytes) (w : Edit) :
    Released io tx backlog w (flushBacklog io tx backlog w) := by
  -- induction on the backlog, which is handed over from the front
  induction backlog generalizing w with
  | nil =>
      have h : Released io tx [] w _ := .all
      rw [List.map_nil, List.append_nil] at h
      exact h
  | cons bytes rest ih =>
      unfold flushBacklog
      dsimp only
      split
      · rename_i hok
        have h := ih (w.attempted (.inbound tx bytes (w.nextTry io)))
        generalize flushBacklog io tx rest (w.attempted (.inbound tx bytes (w.nextTry io))) = w' at h
        rw [hok] at h
        cases h with
        | all =>
            have h : Released io tx (bytes :: rest) w _ := .all
            rw [List.map_cons, List.append_cons] at h
            exact h
        | @stopped taken rest' bytes' result hbacklog hresult hio =>
            have hindex : io.trySend (w.tried.length + (bytes :: taken).length) = result := by
              rw [← hio]
              congr 1
              simp only [attempted, List.length_append, List.length_cons, List.length_nil]
              omega
            have h : Released io tx (bytes :: rest) w _ :=
              @Released.stopped io tx _ w (bytes :: taken) rest' bytes' result
                (by rw [hbacklog]; rfl) hresult hindex
            rw [List.map_cons, List.append_cons w.tried] at h
            exact h
      · rename_i hresult
        have h : Released io tx (bytes :: rest) w _ :=
          @Released.stopped io tx _ w [] rest bytes _ rfl hresult rfl
        rw [List.map_nil, List.append_nil] at h
        exact h

/-- Apart from the backlog and the attempts, everything is as before. -/
theorem Released.frame {io : Io} {tx : Sender} {backlog : List Bytes} {w w' : Edit}
    (h : Released io tx backlog w w') :
    ∃ rxBacklog tried, w' = { w with entry := { w.entry with rxBacklog }, tried := tried } := by
  cases h with
  | all => exact ⟨_, _, rfl⟩
  | stopped hbacklog hresult hio => exact ⟨_, _, rfl⟩

theorem flushBacklog_entry (io : Io) (tx : Sender) (backlog : List Bytes) (w : Edit) :
    ∃ rxBacklog, (flushBacklog io tx backlog w).entry = { w.entry with rxBacklog } := by
  obtain ⟨rxBacklog, _, hw⟩ := (released io tx backlog w).frame
  exact ⟨rxBacklog, congrArg Edit.entry hw⟩

/-- Nothing is offered to an outbound channel. -/
theorem flushBacklog_tried (tx : Sender) (io : Io) (tx' : Sender) (backlog : List Bytes) (w : Edit) :
    ∃ tried, (flushBacklog io tx' backlog w).tried = w.tried ++ tried ∧
      ∀ s result, .outbound tx s result ∉ tried := by
  have h := released io tx' backlog w
  generalize flushBacklog io tx' backlog w = w' at h
  cases h with
  | all => exact ⟨_, rfl, by simp⟩
  | stopped hbacklog hresult hio => exact ⟨_, List.append_assoc _ _ _, by simp⟩

/-- The queue before a new send is offered: nothing happens without a pipe, and a pipe whose channel
is closed is dropped. -/
inductive Drained (io : Io) (w : Edit) : Edit → Prop where
  | idle (hp : w.entry.pipe = none) : Drained io w w
  | flushed {pipe : PipeHandles} {w' : Edit} {refusal : Option TrySendResult}
      (hp : w.entry.pipe = some pipe)
      (h : Flushed io pipe.outboundTx w.entry.pendingSends w (w', refusal))
      (hopen : refusal ≠ some .closed) : Drained io w w'
  | closed {pipe : PipeHandles} {w' : Edit} (hp : w.entry.pipe = some pipe)
      (h : Flushed io pipe.outboundTx w.entry.pendingSends w (w', some .closed)) :
      Drained io w (w'.modify fun e => { e with pipe := none })

/-- The flush before a new datagram drops a pipe that turns out closed. -/
theorem drained (io : Io) : Drained io w (w.drainBuffered io) := by
  unfold drainBuffered
  split
  · rename_i hp
    exact .idle hp
  · rename_i pipe hp
    have h := flushed io pipe.outboundTx w.entry.pendingSends w
    split
    · rename_i w' hw'
      rw [hw'] at h
      exact .closed hp h
    · rename_i w' refusal hopen hw'
      rw [hw'] at h
      exact .flushed hp h hopen

/-- Apart from the sends, the pipe and the attempts, everything is as before. -/
theorem Drained.frame {io : Io} {w w' : Edit} (h : Drained io w w') :
    ∃ pendingSends pipe tried,
      w' = { w with entry := { w.entry with pendingSends, pipe }, tried := tried } ∧
        (pipe = w.entry.pipe ∨ pipe = none) := by
  cases h with
  | idle hp => exact ⟨w.entry.pendingSends, w.entry.pipe, w.tried, rfl, .inl rfl⟩
  | flushed hp hf hopen =>
      obtain ⟨pendingSends, tried, rfl⟩ := hf.frame
      exact ⟨pendingSends, w.entry.pipe, tried, rfl, .inl rfl⟩
  | closed hp hf =>
      obtain ⟨pendingSends, tried, rfl⟩ := hf.frame
      exact ⟨pendingSends, none, tried, rfl, .inr rfl⟩

theorem drainBuffered_entry (io : Io) :
    ∃ pendingSends pipe, (w.drainBuffered io).entry = { w.entry with pendingSends, pipe } ∧
      (pipe = w.entry.pipe ∨ pipe = none) := by
  obtain ⟨pendingSends, pipe, _, hw, hpipe⟩ := (drained w io).frame
  exact ⟨pendingSends, pipe, congrArg Edit.entry hw, hpipe⟩

/-- Offering the new datagram does the same to the entry as the flush before it. -/
theorem offer_entry (io : Io) (send : PendingSend) :
    ∃ pendingSends pipe, (w.offer io send).entry = { w.entry with pendingSends, pipe } ∧
      (pipe = w.entry.pipe ∨ pipe = none) := by
  unfold offer
  split
  · exact ⟨w.entry.pendingSends ++ [send], w.entry.pipe, rfl, Or.inl rfl⟩
  · split
    · exact ⟨w.entry.pendingSends, w.entry.pipe, rfl, Or.inl rfl⟩
    · exact ⟨w.entry.pendingSends, w.entry.pipe, rfl, Or.inl rfl⟩
    · exact ⟨w.entry.pendingSends ++ [send], none, rfl, Or.inr rfl⟩

/-- The attempts made so far are not rewritten. -/
theorem offer_tried (w : Edit) (io : Io) (send : PendingSend) :
    w.tried <+: (w.offer io send).tried := by
  unfold offer
  split
  · exact List.prefix_rfl
  · split <;> exact List.prefix_append _ _

/-- A send on a live entry changes its queue, and drops the pipe if it is gone. -/
theorem enqueue_entry (io : Io) (send : PendingSend) :
    ∃ pendingSends pipe, (w.enqueue io send).entry = { w.entry with pendingSends, pipe } ∧
      (pipe = w.entry.pipe ∨ pipe = none) := by
  unfold enqueue
  rcases drainBuffered_entry w io with ⟨l, p, he, hp⟩
  rcases offer_entry (w.drainBuffered io) io send with ⟨l', p', he', hp'⟩
  refine ⟨l', p', by rw [he', he], ?_⟩
  rw [he] at hp'
  rcases hp' with rfl | rfl
  · exact hp
  · exact Or.inr rfl

/-- A pipe of the current generation is taken, and the dial's target has served its purpose. -/
theorem dataPipeReady_entry (io : Io) (txGen : ℕ) (handles : PipeHandles)
    (h : w.entry.txGen = txGen) :
    ∃ rxBacklog pendingSends,
      (w.dataPipeReady io txGen handles).entry =
        { w.entry with rxBacklog, pendingSends, pipe := some handles, targetEndpoint := none } := by
  unfold dataPipeReady
  rw [if_neg (by simp [h])]
  dsimp only
  rcases flushBacklog_entry io handles.inboundTx w.entry.rxBacklog w with ⟨l, hl⟩
  generalize flushBacklog io handles.inboundTx w.entry.rxBacklog w = w' at hl
  rcases flushSends_entry io handles.outboundTx w'.entry.pendingSends w' with ⟨l', hl'⟩
  refine ⟨l, l', ?_⟩
  rw [modify_entry, hl', hl]

/-- The session itself does not change when its pipe arrives. -/
theorem dataPipeReady_phase (io : Io) (txGen : ℕ) (handles : PipeHandles) :
    (w.dataPipeReady io txGen handles).entry.phase = w.entry.phase := by
  by_cases h : w.entry.txGen = txGen
  · rcases dataPipeReady_entry w io txGen handles h with ⟨_, _, he⟩
    rw [he]
  · unfold dataPipeReady
    rw [if_pos h]

/-! ## The lifecycle counter -/

@[simp] theorem modify_nextLifecycle (f : PeerEntry → PeerEntry) :
    (w.modify f).nextLifecycle = w.nextLifecycle := rfl

@[simp] theorem setPhase_nextLifecycle (phase : PeerPhase) :
    (w.setPhase phase).nextLifecycle = w.nextLifecycle := rfl

@[simp] theorem closeChannel_nextLifecycle (channel : Option ChannelHandle) (lifecycleId : ℕ)
    (reason : DisconnectReason) :
    (w.closeChannel channel lifecycleId reason).nextLifecycle = w.nextLifecycle := by
  cases channel <;> rfl

/-- Draining issues one lifecycle id. -/
@[simp] theorem drainToDraining_nextLifecycle (now systemNow : ℕ) (reason : DisconnectReason) :
    (w.drainToDraining now systemNow reason).nextLifecycle = w.nextLifecycle + 1 := by
  unfold drainToDraining
  dsimp only
  split
  · split <;> rfl
  · rfl

/-! ## Pipes started -/

/-- The `StartDataPipe` actions pushed so far. -/
def starts : List PeerAction := w.actions.filter PeerAction.isStartDataPipe

theorem starts_append {w w' : Edit} {l : List PeerAction} (h : w'.actions = w.actions ++ l) :
    w'.starts = w.starts ++ l.filter PeerAction.isStartDataPipe := by
  unfold starts
  rw [h, List.filter_append]

@[simp] theorem push_starts (a : PeerAction) :
    (w.push a).starts = w.starts ++ [a].filter PeerAction.isStartDataPipe :=
  starts_append rfl

@[simp] theorem modify_starts (f : PeerEntry → PeerEntry) : (w.modify f).starts = w.starts := rfl

@[simp] theorem setPhase_starts (phase : PeerPhase) : (w.setPhase phase).starts = w.starts := rfl

@[simp] theorem attempted_starts (a : TrySend) : (w.attempted a).starts = w.starts := rfl

@[simp] theorem enterConnected_starts (now : ℕ) (channel : ChannelHandle) :
    (w.enterConnected now channel).starts = w.starts := rfl

@[simp] theorem abandonOutstanding_starts : w.abandonOutstanding.starts = w.starts := by
  rw [starts_append (w := w) rfl]
  simp [PeerAction.isStartDataPipe]

@[simp] theorem beginConnect_starts (now attempt : ℕ) :
    (w.beginConnect now attempt).starts = w.starts := by
  simp [beginConnect, PeerAction.isStartDataPipe]

@[simp] theorem clearConnectionState_starts : w.clearConnectionState.starts = w.starts := by
  simp [clearConnectionState]

@[simp] theorem armForDial_starts (now : ℕ) (deferPrefix : Option KeyPrefix) :
    (w.armForDial now deferPrefix).starts = w.starts := by
  unfold armForDial
  split
  · rfl
  · split
    · rfl
    · simp

@[simp] theorem failPending_starts (kind : ErrorKind) : (w.failPending kind).starts = w.starts := by
  rw [starts_append (w := w) rfl]
  simp [List.filter_eq_nil_iff, PeerAction.isStartDataPipe]

@[simp] theorem closeChannel_starts (channel : Option ChannelHandle) (lifecycleId : ℕ)
    (reason : DisconnectReason) :
    (w.closeChannel channel lifecycleId reason).starts = w.starts := by
  cases channel with
  | none => rfl
  | some ch => simp [closeChannel, PeerAction.isStartDataPipe]

@[simp] theorem refreshOn133_starts (reason : DisconnectReason) (lifecycleId : ℕ) :
    (w.refreshOn133 reason lifecycleId).starts = w.starts := by
  unfold refreshOn133
  split
  · simp [PeerAction.isStartDataPipe]
  · rfl

@[simp] theorem drainToDraining_starts (now systemNow : ℕ) (reason : DisconnectReason) :
    (w.drainToDraining now systemNow reason).starts = w.starts := by
  unfold drainToDraining
  dsimp only
  split
  · split <;> simp [PeerAction.isStartDataPipe]
  · simp

@[simp] theorem dialFailed_starts (now attempt : ℕ) (metric : String) (reason : DisconnectReason) :
    (w.dialFailed now attempt metric reason).starts = w.starts := by
  unfold dialFailed
  dsimp only
  split
  · split <;> simp [PeerAction.isStartDataPipe]
  · simp [PeerAction.isStartDataPipe]

@[simp] theorem setUpgrading_starts (upgrading : Bool) :
    (w.setUpgrading upgrading).starts = w.starts := by
  unfold setUpgrading
  split <;> rfl

@[simp] theorem setPath_starts (path : ConnectPath) : (w.setPath path).starts = w.starts := by
  unfold setPath
  split <;> rfl

@[simp] theorem noteSubscriber_starts (now : ℕ) (c : Uuid) (p : Option KeyPrefix)
    (verified : Option EndpointId) : (w.noteSubscriber now c p verified).starts = w.starts := by
  unfold noteSubscriber
  cases p <;> cases verified <;> dsimp only
  · rfl
  · split <;> rfl
  · rfl
  · split <;> rfl

@[simp] theorem requestUpgrade_starts : w.requestUpgrade.starts = w.starts := by
  simp [requestUpgrade, PeerAction.isStartDataPipe]

@[simp] theorem startDataPipe_starts (role : ConnectRole) (path : ConnectPath)
    (l2cap : Option L2capChannel) :
    (w.startDataPipe role path l2cap).starts =
      w.starts ++ [.startDataPipe w.entry.deviceId w.entry.lifecycleId w.entry.txGen role
        w.entry.targetEndpoint path l2cap] := by
  simp [startDataPipe, PeerAction.isStartDataPipe]

/-- Flushes and attempts start no pipe. -/
@[simp] theorem flushSends_starts (io : Io) (tx : Sender) (sends : List PendingSend) (w : Edit) :
    (flushSends io tx sends w).1.starts = w.starts := by
  obtain ⟨_, _, hw⟩ := (flushed io tx sends w).frame
  rw [hw]
  rfl

@[simp] theorem flushBacklog_starts (io : Io) (tx : Sender) (backlog : List Bytes) (w : Edit) :
    (flushBacklog io tx backlog w).starts = w.starts := by
  obtain ⟨_, _, hw⟩ := (released io tx backlog w).frame
  rw [hw]
  rfl

@[simp] theorem drainBuffered_starts (io : Io) : (w.drainBuffered io).starts = w.starts := by
  obtain ⟨_, _, _, hw, -⟩ := (drained w io).frame
  rw [hw]
  rfl

@[simp] theorem enqueue_starts (io : Io) (send : PendingSend) :
    (w.enqueue io send).starts = w.starts := by
  unfold enqueue offer
  split
  · simp
  · split <;> simp [PeerAction.isStartDataPipe]

end IrohBle.Edit
