import IrohBle.Registry.PipeHandles

/-! # Registry.Backlog: fragments held until a pipe is ready

A fragment that arrives before the pipe of its session is held in `rx_backlog`, and
`DataPipeReady` moves what is held into the pipe. Of the ways a session can end only some
clear the backlog, and nothing clears it when the next session starts.

* `receivedSince`: the fragments received since the pipe of a generation was started.
* `backlog_in_session_iff`: a pipe gets only these, at every point of a run, exactly if every
  session starts with an empty backlog.
-/

namespace IrohBle

open Lib Reliable Registry

namespace PeerCommand

/-- The fragment a command brings for `d`. -/
def fragment? (d : DeviceId) : PeerCommand → Option Bytes
  | .inboundGattFragment d' _ bytes => if d' = d then some bytes else none
  | _ => none

/-- Whether a command starts a new session in the entry `e` of `d`. -/
def startsSession (d : DeviceId) (e : PeerEntry) : PeerCommand → Bool
  | .connectSucceeded d' l _ =>
    decide (d' = d) && decide (l = e.lifecycleId) && e.phase.isConnecting
  | .inboundGattFragment d' source _ =>
    decide (d' = d) &&
      match e.phase with
      | .connected _ channel _ _ =>
        e.pipe.isNone && decide (channel.path = .l2cap) && decide (e.role = .peripheral) &&
          decide (source = .peripheralReceivedC2p)
      | .restoring _ => false
      | _ => true
  | .peripheralClientSubscribed d' _ _ =>
    decide (d' = d) &&
      match e.phase with
      | .connected _ channel _ _ => !decide (e.role = .peripheral ∧ channel.path = .gatt)
      | .connecting .. | .handshaking .. => false
      | _ => true
  | .inboundL2capChannel d' _ => decide (d' = d) && e.pipe.isNone
  | _ => false

end PeerCommand

/-! ## One function -/

namespace Edit

@[simp] theorem setUpgrading_rxBacklog (w : Edit) (upgrading : Bool) :
    (w.setUpgrading upgrading).entry.rxBacklog = w.entry.rxBacklog := by
  unfold setUpgrading
  split <;> rfl

@[simp] theorem setPath_rxBacklog (w : Edit) (path : ConnectPath) :
    (w.setPath path).entry.rxBacklog = w.entry.rxBacklog := by
  unfold setPath
  split <;> rfl

@[simp] theorem requestUpgrade_rxBacklog (w : Edit) :
    w.requestUpgrade.entry.rxBacklog = w.entry.rxBacklog :=
  setUpgrading_rxBacklog w true

@[simp] theorem armForDial_rxBacklog (w : Edit) (now : ℕ) (deferPrefix : Option KeyPrefix) :
    (w.armForDial now deferPrefix).entry.rxBacklog = w.entry.rxBacklog := by
  rcases armForDial_entry w now deferPrefix with ⟨_, _, _, he, -⟩
  rw [he]

@[simp] theorem dialFailed_rxBacklog (w : Edit) (now attempt : ℕ) (metric : String)
    (reason : DisconnectReason) :
    (w.dialFailed now attempt metric reason).entry.rxBacklog = w.entry.rxBacklog := by
  rw [dialFailed_entry]
  split <;> rfl

@[simp] theorem noteSubscriber_rxBacklog (w : Edit) (now : ℕ) (c : Uuid) (p : Option KeyPrefix)
    (verified : Option EndpointId) :
    (w.noteSubscriber now c p verified).entry.rxBacklog = w.entry.rxBacklog := by
  rcases noteSubscriber_entry w now c p verified with ⟨_, _, _, _, he⟩
  rw [he]

/-- What stays of the backlog keeps its order. -/
theorem flushBacklog_rxBacklog (io : Io) (tx : Sender) (backlog : List Bytes) (w : Edit) :
    (flushBacklog io tx backlog w).entry.rxBacklog.Sublist backlog := by
  have h := released io tx backlog w
  generalize flushBacklog io tx backlog w = w' at h ⊢
  cases h with
  | all => exact List.nil_sublist _
  | @stopped taken rest bytes result hbacklog hresult hio =>
      rw [hbacklog]
      exact (List.sublist_cons_self bytes rest).trans (List.sublist_append_right _ _)

/-- A pipe takes from the backlog and adds nothing. -/
theorem dataPipeReady_rxBacklog (io : Io) (txGen : ℕ) (handles : PipeHandles) (w : Edit) :
    (w.dataPipeReady io txGen handles).entry.rxBacklog.Sublist w.entry.rxBacklog := by
  unfold dataPipeReady
  split
  · exact List.Sublist.refl _
  · dsimp only
    have hflush := flushBacklog_rxBacklog io handles.inboundTx w.entry.rxBacklog w
    generalize flushBacklog io handles.inboundTx w.entry.rxBacklog w = w₁ at hflush ⊢
    rcases flushSends_entry io handles.outboundTx w₁.entry.pendingSends w₁ with ⟨_, he⟩
    rw [modify_entry, he]
    exact hflush

/-- A full backlog loses its oldest fragment for the new one. -/
theorem pushBacklog_rxBacklog (bytes : Bytes) (w : Edit) :
    (w.pushBacklog bytes).entry.rxBacklog.Sublist (w.entry.rxBacklog ++ [bytes]) := by
  unfold pushBacklog
  rw [modify_entry]
  refine List.Sublist.append_right ?_ [bytes]
  split
  · exact List.tail_sublist _
  · exact List.Sublist.refl _

/-- A fragment is added at the end, if at all. -/
theorem inboundGattFragment_rxBacklog (io : Io) (source : FragmentSource) (bytes : Bytes)
    (w : Edit) :
    (w.inboundGattFragment io source bytes).entry.rxBacklog.Sublist
      (w.entry.rxBacklog ++ [bytes]) := by
  unfold inboundGattFragment
  dsimp only
  split
  · simp
  · split
    · exact List.sublist_append_left _ _
    · split
      · simp [restartPeripheralGattPipe]
      · exact pushBacklog_rxBacklog bytes _
  · exact List.sublist_append_left _ _
  · simp only [reviveByFragment]
    split <;> simp

end Edit

namespace Turn

variable {io : Io} {cmd : PeerCommand} {d : DeviceId} {w : Edit} {f : Edit → Edit}

/-- A function adds the fragment of its command to the backlog, if anything. -/
theorem Touch.backlog (hf : Touch io cmd d w.entry f) :
    (f w).entry.rxBacklog.Sublist (w.entry.rxBacklog ++ (cmd.fragment? d).toList) := by
  have hsame : (f w).entry.rxBacklog = w.entry.rxBacklog →
      (f w).entry.rxBacklog.Sublist (w.entry.rxBacklog ++ (cmd.fragment? d).toList) := by
    intro heq
    rw [heq]
    exact List.sublist_append_left _ _
  have hclear : (f w).entry.rxBacklog = [] →
      (f w).entry.rxBacklog.Sublist (w.entry.rxBacklog ++ (cmd.fragment? d).toList) := by
    intro heq
    rw [heq]
    exact List.nil_sublist _
  cases hf with
  | stampExact => exact hsame rfl
  | stampVerified _ => exact hsame rfl
  | cancelDial _ => exact hsame (by simp)
  | drainLoser _ => exact hsame (by simp)
  | requestUpgrade _ _ _ => exact hsame (by simp)
  -- a displaced session leaves its backlog to the next one
  | subscribed =>
      refine hsame ?_
      unfold Edit.peripheralClientSubscribed
      dsimp only
      split
      · split
        · simp
        · simp [Edit.restartPeripheralGattPipe]
      · simp
      · simp
      · simp [Edit.restartPeripheralGattPipe]
  | unsubscribed =>
      unfold Edit.peripheralClientUnsubscribed at hsame hclear ⊢
      dsimp only at hsame hclear ⊢
      split
      · exact List.sublist_append_left _ _
      · simp
  | advertisedSuppressed => exact hsame rfl
  | advertised =>
      unfold Edit.advertised
      dsimp only
      split
      · simp
      · split <;> simp
      · simp [Edit.clearConnectionState]
      · simp [Edit.clearConnectionState]
      · split <;> simp
      · simp
  | @sendDatagram _ target txGen datagram waker =>
      refine hsame ?_
      unfold Edit.sendDatagram
      split
      · rcases Edit.enqueue_entry w io ⟨txGen, datagram, waker⟩ with ⟨_, _, he, -⟩
        rw [he]
      · rfl
      · rfl
      · simp [Edit.buffer]
  | connectSucceeded _ =>
      refine hsame ?_
      unfold Edit.connectSucceeded
      split
      · rfl
      · dsimp only
        split <;> simp
  | connectFailed =>
      refine hsame ?_
      unfold Edit.connectFailed
      split
      · rfl
      · split <;> simp
  | fragment =>
      simp only [PeerCommand.fragment?, if_true, Option.toList_some]
      exact Edit.inboundGattFragment_rxBacklog io _ _ w
  | centralDisconnected =>
      unfold Edit.centralDisconnected
      dsimp only
      split
      · simp
      · split
        · simp [Edit.resumeDrainedEntry, Edit.clearConnectionState]
        · simp
      · simp
  | adapterOff => exact hsame rfl
  | adapterOn =>
      refine hsame ?_
      unfold Edit.adapterOn
      split <;> rfl
  | @tick _ _ _ action _ =>
      unfold Edit.tickApply
      cases action with
      | startConnect attempt => simp
      | pendingDialExpired => simp
      | drainingToDead =>
          dsimp only
          split
          · simp [Edit.resumeDrainedEntry, Edit.clearConnectionState]
          · simp
      | restoringToDead => simp
      | connectedWedged => simp
  | forget => exact hclear (by simp [Edit.forget])
  | stalled =>
      refine hsame ?_
      unfold Edit.stalled
      split
      · simp
      · rfl
  | shutdown => exact hsame rfl
  | @dataPipeReady _ txGen handles =>
      have hflush := Edit.dataPipeReady_rxBacklog io txGen handles w
      exact hflush.trans (List.sublist_append_left _ _)
  | openL2capSucceeded =>
      refine hsame ?_
      unfold Edit.openL2capSucceeded
      split
      · rfl
      · split
        · simp
        · split <;> simp
        · rfl
  | openL2capFailed =>
      refine hsame ?_
      unfold Edit.openL2capFailed
      split
      · rfl
      · split <;> simp
  | inboundL2capChannel =>
      refine hsame ?_
      unfold Edit.inboundL2capChannel
      split
      · split <;> simp
      · simp
  | protocolVersionMismatch =>
      refine hsame ?_
      unfold Edit.protocolVersionMismatch
      split
      · rfl
      · simp
  | handoverTimeout => exact hsame (by simp [Edit.l2capHandoverTimeout])

/-- What a command does to the generation and, where it starts a session, to the backlog. -/
def Begins (starts : Bool) (frag : Option Bytes) (w w' : Edit) : Prop :=
  if starts = true then
    w'.entry.txGen = w.entry.txGen + 1 ∧
      w'.entry.rxBacklog = w.entry.rxBacklog ++ frag.toList
  else w'.entry.txGen = w.entry.txGen

/-- A subscription that starts a session keeps what is held and adds nothing. -/
theorem begins_subscribed (c : Uuid) (p : Option KeyPrefix) (verified : Option EndpointId)
    (now : ℕ) :
    Begins (PeerCommand.startsSession d w.entry (.peripheralClientSubscribed d c p)) none w
      (w.peripheralClientSubscribed now c p verified) := by
  rcases Edit.noteSubscriber_entry w now c p verified with ⟨_, _, _, _, he⟩
  unfold Edit.peripheralClientSubscribed
  dsimp only
  generalize w.noteSubscriber now c p verified = w₁ at he ⊢
  have hphase : w₁.entry.phase = w.entry.phase := by rw [he]
  have hrole : w₁.entry.role = w.entry.role := by rw [he]
  -- noting the subscriber touches neither the backlog nor the generation
  have hkept : Begins false none w w₁ := by
    show w₁.entry.txGen = w.entry.txGen
    rw [he]
  -- a session that is started again takes over what is held
  have hrestart : Begins true none w (w₁.restartPeripheralGattPipe now none (some c)) := by
    constructor
    · simp [Edit.restartPeripheralGattPipe, he]
    · simp [Edit.restartPeripheralGattPipe, he]
  cases hp : w.entry.phase with
  | connected since channel txGen up =>
      simp only [PeerCommand.startsSession, hp, hphase, hrole, decide_true, Bool.true_and]
      by_cases hlive : w.entry.role = .peripheral ∧ channel.path = .gatt
      · rw [if_pos hlive, decide_eq_true hlive]
        exact hkept
      · rw [if_neg hlive, decide_eq_false hlive]
        exact hrestart
  | connecting attempt started path =>
      simp only [PeerCommand.startsSession, hp, hphase, decide_true, Bool.true_and]
      exact hkept
  | handshaking since channel =>
      simp only [PeerCommand.startsSession, hp, hphase, decide_true, Bool.true_and]
      exact hkept
  | _ =>
      simp only [PeerCommand.startsSession, hp, hphase, decide_true, Bool.true_and]
      exact hrestart

/-- A fragment that starts a session is the last one held. -/
theorem begins_fragment (source : FragmentSource) (bytes : Bytes)
    (hshake : w.entry.phase.isHandshaking = false) :
    Begins (PeerCommand.startsSession d w.entry (.inboundGattFragment d source bytes)) (some bytes) w
      (w.inboundGattFragment io source bytes) := by
  unfold Edit.inboundGattFragment
  dsimp only
  obtain ⟨w₁, hw₁⟩ : ∃ w₁, w.modify (fun e => { e with lastRx := some io.now }) = w₁ := ⟨_, rfl⟩
  -- the time of the last reception is all that has changed so far
  have hgen : w₁.entry.txGen = w.entry.txGen := hw₁ ▸ rfl
  have hback : w₁.entry.rxBacklog = w.entry.rxBacklog := hw₁ ▸ rfl
  have hphase : w₁.entry.phase = w.entry.phase := hw₁ ▸ rfl
  have hpipe₁ : w₁.entry.pipe = w.entry.pipe := hw₁ ▸ rfl
  have hrole : w₁.entry.role = w.entry.role := hw₁ ▸ rfl
  rw [hw₁]
  -- an entry without a session starts one with the fragment behind the backlog
  have hrevive : Begins true (some bytes) w (w₁.reviveByFragment io.now source bytes) := by
    unfold Edit.reviveByFragment
    dsimp only
    constructor
    · split <;> simp [hgen]
    · split <;> simp [hback]
  cases hp : w.entry.phase with
  | connected since channel txGen up =>
      simp only [PeerCommand.startsSession, hp, hphase, decide_true, Bool.true_and]
      cases hpipe : w.entry.pipe with
      | some handles =>
          rw [hpipe] at hpipe₁
          simp only [hpipe₁]
          exact hgen
      | none =>
          rw [hpipe] at hpipe₁
          simp only [hpipe₁, hrole, Option.isNone_none, Bool.true_and]
          by_cases hstart : channel.path = .l2cap ∧ w.entry.role = .peripheral ∧
              source = .peripheralReceivedC2p
          · rw [if_pos hstart, decide_eq_true hstart.1, decide_eq_true hstart.2.1,
              decide_eq_true hstart.2.2]
            constructor
            · simp [Edit.restartPeripheralGattPipe, hgen]
            · simp [Edit.restartPeripheralGattPipe, hback]
          · have hno : (decide (channel.path = .l2cap) && decide (w.entry.role = .peripheral) &&
                decide (source = .peripheralReceivedC2p)) = false := by
              simp only [Bool.and_eq_false_iff, decide_eq_false_iff_not]
              tauto
            rw [if_neg hstart, hno]
            exact hgen
  | handshaking since channel =>
      rw [hp] at hshake
      cases hshake
  | restoring since =>
      simp only [PeerCommand.startsSession, hp, hphase, decide_true, Bool.true_and]
      exact hgen
  | _ =>
      simp only [PeerCommand.startsSession, hp, hphase, decide_true, Bool.true_and]
      exact hrevive

/-- A command starts a session where it is said to, and no function clears the backlog
then. -/
theorem Touch.begins (hf : Touch io cmd d w.entry f)
    (hshake : w.entry.phase.isHandshaking = false) :
    Begins (cmd.startsSession d w.entry) (cmd.fragment? d) w (f w) := by
  cases hmay : cmd.mayStart with
  | false =>
      -- the other commands start no session
      have hno : cmd.startsSession d w.entry = false := by
        cases cmd with
        | connectSucceeded d' l channel => cases hmay
        | inboundGattFragment d' source bytes => cases hmay
        | peripheralClientSubscribed d' c p => cases hmay
        | inboundL2capChannel d' channel => cases hmay
        | _ => rfl
      rw [hno]
      exact (hf.kept hmay w).txGen
  | true =>
      cases hf with
      | @connectSucceeded _ l channel _ upgrade _ =>
          unfold Edit.connectSucceeded
          by_cases hstale : w.entry.lifecycleId ≠ l ∨ ¬ w.entry.phase.isConnecting = true
          · -- a success of another lifecycle, or none awaited, changes nothing
            have hno : PeerCommand.startsSession d w.entry (.connectSucceeded d l channel) =
                false := by
              rcases hstale with hl | hdial
              · simp [PeerCommand.startsSession, Ne.symm hl]
              · simp [PeerCommand.startsSession, hdial]
            rw [if_pos hstale, hno]
            rfl
          · have hyes : PeerCommand.startsSession d w.entry (.connectSucceeded d l channel) =
                true := by
              simp only [not_or, not_not] at hstale
              simp [PeerCommand.startsSession, hstale]
            rw [if_neg hstale, hyes]
            dsimp only
            split
            · exact ⟨by simp [Edit.requestUpgrade], by simp [PeerCommand.fragment?]⟩
            · exact ⟨by simp, by simp [PeerCommand.fragment?]⟩
      | subscribed => exact begins_subscribed _ _ _ _
      | @fragment _ source bytes =>
          have hfrag : PeerCommand.fragment? d (.inboundGattFragment d source bytes) =
              some bytes := by
            simp [PeerCommand.fragment?]
          rw [hfrag]
          exact begins_fragment source bytes hshake
      | openL2capSucceeded =>
          show (Edit.openL2capSucceeded _ _ _ _ w).entry.txGen = w.entry.txGen
          unfold Edit.openL2capSucceeded
          split
          · rfl
          · split
            · rename_i hp
              rw [hp] at hshake
              cases hshake
            · split <;> simp
            · rfl
      | openL2capFailed =>
          show (Edit.openL2capFailed _ _ _ _ w).entry.txGen = w.entry.txGen
          unfold Edit.openL2capFailed
          split
          · rfl
          · split
            · rename_i hp
              rw [hp] at hshake
              cases hshake
            · simp
            · rfl
      | inboundL2capChannel =>
          unfold Edit.inboundL2capChannel
          cases hpipe : w.entry.pipe with
          | none =>
              simp only [PeerCommand.startsSession, hpipe, Option.isNone_none, decide_true,
                Bool.and_self]
              exact ⟨by simp, by simp [PeerCommand.fragment?]⟩
          | some handles =>
              simp only [PeerCommand.startsSession, hpipe, Option.isNone_some, Bool.and_false]
              show _ = w.entry.txGen
              split <;> simp
      | _ => cases hmay

end Turn

/-! ## One command -/

namespace Registry

open Turn

/-- What is held for `d`. -/
def backlogOf (r : Registry) (d : DeviceId) : List Bytes := (r.peer d).elim [] PeerEntry.rxBacklog

section Command

variable {r : Registry} {io : Io} {cmd : PeerCommand} {d : DeviceId} {e e' : PeerEntry}

/-- A small step of a command without a fragment adds nothing. -/
theorem backlog_step {t t' : Turn} (hcmd : ∀ d, cmd.fragment? d = none)
    (ht : ∀ d e, t.reg.peer d = some e → e.rxBacklog.Sublist (r.backlogOf d))
    (h : Step io cmd t t') :
    ∀ d e, t'.reg.peer d = some e → e.rxBacklog.Sublist (r.backlogOf d) := by
  intro d
  refine h.all (fun n => List.nil_sublist _) ?_ ?_ (ht d)
  · intro f w hf hw
    have hadd := hf.backlog
    rw [hcmd d, Option.toList_none, List.append_nil] at hadd
    exact hadd.trans hw
  · intro f w n hf hw
    cases hf with
    | fragment =>
        have hfrag := hcmd d
        simp [PeerCommand.fragment?] at hfrag
    | inboundL2capChannel =>
        have hempty : w.entry.rxBacklog = [] := by rw [hw]; rfl
        change w.entry.rxBacklog.Sublist _
        rw [hempty]
        exact List.nil_sublist _

/-- A command adds its own fragment to the backlog, if anything. -/
theorem handle_backlog (he' : (r.handle io cmd).reg.peer d = some e') :
    e'.rxBacklog.Sublist (r.backlogOf d ++ (cmd.fragment? d).toList) := by
  by_cases hfrag : ∃ d₀ source bytes, cmd = .inboundGattFragment d₀ source bytes
  · rcases hfrag with ⟨d₀, source, bytes, rfl⟩
    by_cases hd : d = d₀
    · subst hd
      have hsome : PeerCommand.fragment? d (.inboundGattFragment d source bytes) = some bytes := by
        simp [PeerCommand.fragment?]
      rw [hsome]
      cases he : r.peer d with
      | none =>
          rw [handle_fragment_of_none he, ensure_of_none (t := start r) he] at he'
          have hnew : ((start r).insertNew d).reg.peer d = some (newEntry r.nextLifecycle d) :=
            peer_insertNew_self (start r) d
          rw [edit_of_some hnew, peer_store hnew, if_pos rfl] at he'
          obtain rfl := Option.some.inj he'
          exact List.sublist_append_right _ _
      | some e =>
          rw [handle_fragment_of_some he, edit_of_some (t := start r) he,
            peer_store (t := start r) he, if_pos rfl] at he'
          obtain rfl := Option.some.inj he'
          have hheld : r.backlogOf d = e.rxBacklog := by
            rw [backlogOf, he]
            rfl
          rw [hheld]
          exact Edit.inboundGattFragment_rxBacklog io source bytes ((start r).focus e)
    · -- a fragment of another device
      have hsame : (r.handle io (.inboundGattFragment d₀ source bytes)).reg.peer d = r.peer d := by
        cases he₀ : r.peer d₀ with
        | none =>
            rw [handle_fragment_of_none he₀, peer_edit_ne hd, ensure_of_none (t := start r) he₀,
              peer_insertNew, if_neg hd]
            rfl
        | some e₀ =>
            rw [handle_fragment_of_some he₀, peer_edit_ne hd]
            rfl
      rw [hsame] at he'
      rw [backlogOf, he']
      exact List.sublist_append_left _ _
  · have hcmd : ∀ d, cmd.fragment? d = none := by
      intro d
      cases cmd with
      | inboundGattFragment d₀ source bytes => exact absurd ⟨d₀, source, bytes, rfl⟩ hfrag
      | _ => rfl
    rw [hcmd d, Option.toList_none, List.append_nil]
    have hsteps := handle_steps io cmd r
    generalize r.handle io cmd = t at hsteps he'
    have hall : ∀ d e, t.reg.peer d = some e → e.rxBacklog.Sublist (r.backlogOf d) := by
      clear he'
      induction hsteps with
      | refl =>
          intro d e he
          rw [backlogOf, show r.peer d = some e from he]
          exact List.Sublist.refl _
      | tail _ hs ih => exact backlog_step hcmd ih hs
    exact hall d e' he'

/-- Where a command starts no session, the generation stays. -/
theorem handle_txGen_of_not_starts (hset : r.Settled) (he : r.peer d = some e)
    (he' : (r.handle io cmd).reg.peer d = some e') (hno : cmd.startsSession d e = false) :
    e'.txGen = e.txGen := by
  by_cases hv : ∃ endpoint token, cmd = .verifiedEndpoint endpoint token
  · rcases hv with ⟨endpoint, token, rfl⟩
    refine (handle_steps io _ r).track_entry (Q := fun e₁ => e₁.txGen = e.txGen) ?_ he he' rfl
    intro w f hf hw
    exact (hf.kept rfl w).txGen.trans hw
  · have honce : Once io cmd d e (r.handle io cmd) :=
      handle_entry hset (fun endpoint token heq => hv ⟨endpoint, token, heq⟩) he
    rcases honce e' he' with rfl | ⟨f, w, rfl, hf, rfl, -⟩
    · rfl
    · have hbegins := hf.begins (hset d w.entry he).shaking
      rw [hno] at hbegins
      exact hbegins

/-- A command that starts a session runs one function, on the entry. -/
theorem handle_eq_edit_of_starts (io : Io) (he : r.peer d = some e)
    (hyes : cmd.startsSession d e = true) :
    ∃ f, Touch io cmd d e f ∧ r.handle io cmd = (start r).edit d f := by
  cases cmd with
  | connectSucceeded d' l channel =>
      simp only [PeerCommand.startsSession, Bool.and_eq_true, decide_eq_true_eq] at hyes
      obtain rfl := hyes.1.1
      exact ⟨_, .connectSucceeded (failed_of_wantsUpgrade _ d'), rfl⟩
  | inboundGattFragment d' source bytes =>
      simp only [PeerCommand.startsSession, Bool.and_eq_true, decide_eq_true_eq] at hyes
      obtain rfl := hyes.1
      exact ⟨_, .fragment, handle_fragment_of_some he⟩
  | peripheralClientSubscribed d' c p =>
      simp only [PeerCommand.startsSession, Bool.and_eq_true, decide_eq_true_eq] at hyes
      obtain rfl := hyes.1
      have hhandle : r.handle io (.peripheralClientSubscribed d' c p) = (start r).edit d'
          (Edit.peripheralClientSubscribed io.now c p
            (p.bind fun q => r.verifiedPrefixes.lookup q)) := by
        change ((start r).ensure d').edit d' _ = _
        rw [ensure_of_some (t := start r) he]
        rfl
      exact ⟨_, .subscribed, hhandle⟩
  | inboundL2capChannel d' channel =>
      simp only [PeerCommand.startsSession, Bool.and_eq_true, decide_eq_true_eq] at hyes
      obtain rfl := hyes.1
      exact ⟨_, .inboundL2capChannel, handle_l2cap_of_some he⟩
  | _ => cases hyes

/-- A session starts in the next generation, with all that was held before. -/
theorem handle_of_starts (io : Io) (hset : r.Settled) (hkeyed : r.Keyed) (he : r.peer d = some e)
    (hyes : cmd.startsSession d e = true) :
    ∃ e', (r.handle io cmd).reg.peer d = some e' ∧
      e'.rxBacklog = e.rxBacklog ++ (cmd.fragment? d).toList ∧
      e'.txGen ∈ startedGens d (r.handle io cmd).actions := by
  rcases handle_eq_edit_of_starts io he hyes with ⟨f, hf, heq⟩
  have hbegins := Touch.begins (w := (start r).focus e) hf (hset d e he).shaking
  rw [show ((start r).focus e).entry = e from rfl, hyes] at hbegins
  rw [heq, edit_of_some (t := start r) he]
  refine ⟨_, (peer_store (t := start r) he _ d).trans (if_pos rfl), hbegins.2, ?_⟩
  cases hf.session ((start r).focus e) with
  | kept hkept =>
      have hgen := hkept.txGen
      rw [hbegins.1] at hgen
      exact absurd hgen (Nat.succ_ne_self _)
  | started hst =>
      rcases hst.starts with ⟨role, path, l2cap, -, hstarts⟩
      rw [mem_startedGens]
      have hdev : (f ((start r).focus e)).entry.deviceId = d := hst.deviceId.trans (hkeyed d e he)
      have hmem : PeerAction.startDataPipe d (f ((start r).focus e)).entry.lifecycleId
          (f ((start r).focus e)).entry.txGen role (f ((start r).focus e)).entry.targetEndpoint path
          l2cap ∈ (f ((start r).focus e)).starts := by
        rw [hstarts, hdev]
        exact List.mem_append_right _ (List.mem_singleton_self _)
      exact ⟨_, role, _, path, l2cap, (List.mem_filter.mp hmem).1⟩

end Command

/-! ## A run -/

/-- The fragment a step receives for `d`. -/
def Label.fragment? (d : DeviceId) : Label → Option Bytes
  | .reorder _ => none
  | .command _ cmd => cmd.fragment? d

/-- The fragments received for `d` in the step that last started a pipe of generation `g`
for it, and later. -/
def receivedSince (d : DeviceId) (g : ℕ) (h : List (Registry × Label)) : List Bytes :=
  h.foldl (fun acc x =>
    (if g ∈ startedGens d (emitted x) then [] else acc) ++ (x.2.fragment? d).toList) []

theorem receivedSince_snoc (d : DeviceId) (g : ℕ) (h : List (Registry × Label))
    (x : Registry × Label) :
    receivedSince d g (h ++ [x]) =
      (if g ∈ startedGens d (emitted x) then [] else receivedSince d g h) ++
        (x.2.fragment? d).toList := by
  simp [receivedSince]

/-- The fragments that have gone into a pipe. -/
def moved (tried : List TrySend) : List Bytes :=
  tried.filterMap fun
    | .inbound _ bytes .ok => some bytes
    | _ => none

/-- Whichever pipe becomes ready next, it gets only fragments received since it was
started. -/
def BacklogInSession (h : List (Registry × Label)) (r : Registry) : Prop :=
  ∀ io d g handles, (moved (r.handle io (.dataPipeReady d g handles)).tried).Sublist
    (receivedSince d g h)

/-- A session is started only in an entry that holds nothing. -/
def StartsClean (r : Registry) : Label → Prop
  | .reorder _ => True
  | .command _ cmd =>
      ∀ d e, r.peer d = some e → cmd.startsSession d e = true → e.rxBacklog = []

/-- What every entry holds has been received in its generation. -/
def HeldInSession (h : List (Registry × Label)) (r : Registry) : Prop :=
  ∀ d e, r.peer d = some e → e.rxBacklog.Sublist (receivedSince d e.txGen h)

/-- A step keeps what is held within its session exactly if a session it starts finds nothing
held. -/
theorem heldInSession_step_iff {h : List (Registry × Label)} {r r' : Registry} {l : Label}
    (hset : r.Settled) (hkeyed : r.Keyed) (hr : HeldInSession h r) (hs : step l r = some r') :
    HeldInSession (h ++ [(r, l)]) r' ↔ StartsClean r l := by
  cases l with
  | reorder ks =>
      refine iff_of_true ?_ trivial
      intro d e he
      rw [peer_reorder hs] at he
      rw [receivedSince_snoc]
      simpa [emitted, startedGens, Label.fragment?] using hr d e he
  | command io cmd =>
      obtain rfl := Option.some.inj hs
      constructor
      · intro hafter d e he hyes
        rcases handle_of_starts io hset hkeyed he hyes with ⟨e', he', hback, hgen⟩
        have hsub := hafter d e' he'
        have hgen' : e'.txGen ∈ startedGens d (emitted (r, .command io cmd)) := hgen
        rw [receivedSince_snoc, if_pos hgen', hback] at hsub
        -- what was held before is too much
        have hlen := hsub.length_le
        simp only [List.length_append, List.nil_append, Label.fragment?] at hlen
        exact List.eq_nil_of_length_eq_zero (by omega)
      · intro hclean d e' he'
        have hadd := handle_backlog he'
        have hfrag : ((cmd.fragment? d).toList).Sublist
            (receivedSince d e'.txGen (h ++ [(r, .command io cmd)])) := by
          rw [receivedSince_snoc]
          exact List.sublist_append_right _ _
        cases he : r.peer d with
        | none =>
            have hempty : r.backlogOf d = [] := by
              rw [backlogOf, he]
              rfl
            rw [hempty, List.nil_append] at hadd
            exact hadd.trans hfrag
        | some e =>
            have hheld : r.backlogOf d = e.rxBacklog := by
              rw [backlogOf, he]
              rfl
            rw [hheld] at hadd
            cases hstarts : cmd.startsSession d e with
            | true =>
                rw [hclean d e he hstarts, List.nil_append] at hadd
                exact hadd.trans hfrag
            | false =>
                have hgen := handle_txGen_of_not_starts hset he he' hstarts
                have hno : e'.txGen ∉ startedGens d (emitted (r, .command io cmd)) := by
                  change e'.txGen ∉ startedGens d (r.handle io cmd).actions
                  rcases handle_startedGens hkeyed io cmd d with hnil | ⟨e₁, he₁, -, hlt⟩
                  · rw [hnil]
                    exact List.not_mem_nil
                  · obtain rfl : e₁ = e' := Option.some.inj (he₁.symm.trans he')
                    have hup := hlt e he
                    omega
                rw [receivedSince_snoc, if_neg hno, hgen]
                exact hadd.trans ((hr d e he).append_right _)

end Registry

namespace Edit

theorem moved_append (a b : List TrySend) : moved (a ++ b) = moved a ++ moved b := by
  unfold moved
  exact List.filterMap_append

/-- Datagrams are not fragments. -/
theorem moved_outbound (tx : Sender) (sends : List PendingSend) (result : TrySendResult) :
    moved (sends.map (TrySend.outbound tx · result)) = [] := by
  unfold moved
  rw [List.filterMap_map]
  exact List.filterMap_eq_nil_iff.mpr fun _ _ => rfl

/-- Flushing the sends hands over no fragment. -/
theorem flushSends_moved (io : Io) (tx : Sender) (sends : List PendingSend) (w : Edit) :
    moved (flushSends io tx sends w).1.tried = moved w.tried := by
  have h := flushed io tx sends w
  generalize flushSends io tx sends w = x at h ⊢
  cases h with
  | all => rw [moved_append, moved_outbound, List.append_nil]
  | @stopped taken rest send result hsends hresult hio =>
      have hrefused : moved [TrySend.outbound tx send result] = [] := moved_outbound tx [send] result
      rw [moved_append, moved_append, moved_outbound, hrefused, List.append_nil, List.append_nil]

/-- What is moved is what was held, up to the first fragment that is refused. -/
theorem flushBacklog_moved (io : Io) (tx : Sender) (backlog : List Bytes) (w : Edit) :
    ∃ l, l <+: backlog ∧ moved (flushBacklog io tx backlog w).tried = moved w.tried ++ l ∧
      ((∀ n, io.trySend n = .ok) → l = backlog) := by
  have hoks : ∀ taken : List Bytes, moved (taken.map (TrySend.inbound tx · .ok)) = taken := by
    intro taken
    unfold moved
    rw [List.filterMap_map]
    exact (List.filterMap_congr fun _ _ => rfl).trans List.filterMap_some
  have h := released io tx backlog w
  generalize flushBacklog io tx backlog w = w' at h ⊢
  cases h with
  | all =>
      refine ⟨backlog, List.prefix_refl _, ?_, fun _ => rfl⟩
      rw [moved_append, hoks]
  | @stopped taken rest bytes result hbacklog hresult hio =>
      refine ⟨taken, ?_, ?_, fun hall => absurd (hio.symm.trans (hall _)) hresult⟩
      · rw [hbacklog]
        exact List.prefix_append _ _
      · have hlost : moved [TrySend.inbound tx bytes result] = [] := by
          cases result with
          | ok => exact absurd rfl hresult
          | full => rfl
          | closed => rfl
        rw [moved_append, moved_append, hoks, hlost, List.append_nil]

/-- The pipe of the current generation gets what is held, up to the first refusal; another one
gets nothing. -/
theorem dataPipeReady_moved (io : Io) (txGen : ℕ) (handles : PipeHandles) (w : Edit)
    (hw : w.tried = []) :
    (moved (w.dataPipeReady io txGen handles).tried).Sublist
        (if w.entry.txGen = txGen then w.entry.rxBacklog else []) ∧
      ((∀ n, io.trySend n = .ok) → w.entry.txGen = txGen →
        moved (w.dataPipeReady io txGen handles).tried = w.entry.rxBacklog) := by
  unfold dataPipeReady
  by_cases hgen : w.entry.txGen = txGen
  · rcases flushBacklog_moved io handles.inboundTx w.entry.rxBacklog w with ⟨l, hpre, hl, hall⟩
    have hmoved : moved (w.dataPipeReady io txGen handles).tried = l := by
      unfold dataPipeReady
      rw [if_neg (by simp [hgen])]
      change moved (flushSends io _ _ _).1.tried = l
      rw [flushSends_moved, hl, hw]
      rfl
    unfold dataPipeReady at hmoved
    rw [hmoved, if_pos hgen]
    exact ⟨hpre.sublist, fun hio _ => hall hio⟩
  · rw [if_pos hgen, hw, if_neg hgen]
    exact ⟨List.nil_sublist _, fun _ heq => absurd heq hgen⟩

end Edit

namespace Registry

open Turn

/-- Nothing is moved into a pipe that no entry waits for. -/
theorem handle_dataPipeReady_tried (r : Registry) (io : Io) (d : DeviceId) (g : ℕ)
    (handles : PipeHandles) :
    (r.handle io (.dataPipeReady d g handles)).tried =
      (r.peer d).elim [] fun e => (((start r).focus e).dataPipeReady io g handles).tried := by
  change ((start r).edit d _).tried = _
  cases he : r.peer d with
  | none =>
      rw [edit_of_none (t := start r) he]
      rfl
  | some e =>
      rw [edit_of_some (t := start r) he]
      rfl

/-- What a pipe may get next is what its entry holds. -/
theorem backlogInSession_iff {h : List (Registry × Label)} {r : Registry} :
    BacklogInSession h r ↔ HeldInSession h r := by
  constructor
  · intro hall d e he
    have hsub := hall (ioAt 0) d e.txGen someHandles
    rw [handle_dataPipeReady_tried, he] at hsub
    have hmoved := (Edit.dataPipeReady_moved (ioAt 0) e.txGen someHandles ((start r).focus e)
      rfl).2 (fun _ => rfl) rfl
    change (moved (Edit.dataPipeReady (ioAt 0) e.txGen someHandles
      ((start r).focus e)).tried).Sublist _ at hsub
    rw [hmoved] at hsub
    exact hsub
  · intro hheld io d g handles
    rw [handle_dataPipeReady_tried]
    cases he : r.peer d with
    | none => exact List.nil_sublist _
    | some e =>
        refine (Edit.dataPipeReady_moved io g handles ((start r).focus e) rfl).1.trans ?_
        split
        · rename_i hgen
          exact hgen ▸ hheld d e he
        · exact List.nil_sublist _

/-- At every point of a run a pipe gets only the fragments of its own session, exactly if
every session starts with an empty backlog. -/
theorem backlog_in_session_iff {h : List (Registry × Label)} {r : Registry}
    (hrun : system.Run h r) : system.Always BacklogInSession h ↔ System.Meets StartsClean h := by
  refine hrun.always_iff ?_ ?_
  · rintro r ⟨policy, endpoint, rfl⟩
    rw [backlogInSession_iff]
    intro d e he
    cases he
  · intro h r l r' hr hheld hs
    rw [backlogInSession_iff] at hheld ⊢
    exact heldInSession_step_iff (settled_of_run hr) (keyed_of_run hr) hheld hs

/-- Two fragments arrive before the pipe of their session is ready. -/
def twoFragmentsRun : List Label :=
  [.command (ioAt 0) (.inboundGattFragment "peer" .peripheralReceivedC2p [1]),
    .command (ioAt 1) (.inboundGattFragment "peer" .peripheralReceivedC2p [2])]

/-- On a run: two fragments come before the pipe, which gets both. -/
theorem backlog_in_session_iff_twoFragmentsRun :
    ∃ h r, system.Run h r ∧ h.map Prod.snd = twoFragmentsRun ∧
      moved (r.handle (ioAt 2) (.dataPipeReady "peer" 1 someHandles)).tried = [[1], [2]] ∧
      system.Always BacklogInSession h := by
  obtain ⟨h, r, hrun, hl, hlen, hmoved, hfirst, hsecond⟩ := System.Run.of_trace
    (P := fun h (r : Registry) => h.length = 2 ∧
      moved (r.handle (ioAt 2) (.dataPipeReady "peer" 1 someHandles)).tried = [[1], [2]] ∧
      (h.head?.map fun x => (x.1.peer "peer").isNone) = some true ∧
      (h.getLast?.bind fun x => (x.1.peer "peer").map fun e =>
        PeerCommand.startsSession "peer" e (.inboundGattFragment "peer" .peripheralReceivedC2p [2]))
          = some false)
    twoFragmentsRun (init_new .disabled localEndpoint) (by decide +kernel)
  obtain ⟨x₀, x₁, rfl⟩ := List.length_eq_two.mp hlen
  simp only [twoFragmentsRun, List.map_cons, List.map_nil, List.cons.injEq, and_true] at hl
  refine ⟨_, r, hrun, by simp [twoFragmentsRun, hl], hmoved,
    (backlog_in_session_iff hrun).mpr ?_⟩
  obtain ⟨e₁, he₁, hno⟩ := Option.map_eq_some_iff.mp hsecond
  have hnone : x₀.1.peer "peer" = none := by simpa using hfirst
  -- a command starts a session of its own device only
  have hother : ∀ d e bytes, PeerCommand.startsSession d e
      (.inboundGattFragment "peer" .peripheralReceivedC2p bytes) = true → d = "peer" := by
    intro d e bytes hyes
    simp only [PeerCommand.startsSession, Bool.and_eq_true, decide_eq_true_eq] at hyes
    exact hyes.1.symm
  intro y hy
  rcases List.mem_pair.mp hy with rfl | rfl
  · rw [hl.1]
    intro d e he hyes
    rw [hother d e _ hyes, hnone] at he
    cases he
  · rw [hl.2]
    intro d e he hyes
    obtain rfl := hother d e _ hyes
    obtain rfl : e₁ = e := Option.some.inj (he₁.symm.trans he)
    rw [hno] at hyes
    cases hyes

/-- The link drops before the pipe is ready, and the peer comes back with a new session. -/
def crossedRun : List Label :=
  [.command (ioAt 0) (.inboundGattFragment "peer" .peripheralReceivedC2p [1]),
    .command (ioAt 1) (.centralDisconnected "peer" .linkLoss),
    .command (ioAt 2) (.inboundGattFragment "peer" .peripheralReceivedC2p [2])]

/-- The second session's pipe gets the fragment of the first. -/
theorem backlog_crosses_sessions :
    ∃ h r, system.Run h r ∧ h.map Prod.snd = crossedRun ∧
      moved (r.handle (ioAt 3) (.dataPipeReady "peer" 2 someHandles)).tried = [[1], [2]] ∧
      receivedSince "peer" 2 h = [[2]] ∧ ¬ system.Always BacklogInSession h := by
  obtain ⟨h, r, hrun, hl, hmoved, hsince⟩ := System.Run.of_trace
    (P := fun h (r : Registry) =>
      moved (r.handle (ioAt 3) (.dataPipeReady "peer" 2 someHandles)).tried = [[1], [2]] ∧
      receivedSince "peer" 2 h = [[2]])
    crossedRun (init_new .disabled localEndpoint) (by decide +kernel)
  refine ⟨h, r, hrun, hl, hmoved, hsince, ?_⟩
  intro hall
  have hsub := hall h r (List.prefix_refl _) hrun (ioAt 3) "peer" 2 someHandles
  rw [hmoved, hsince] at hsub
  exact absurd hsub.length_le (by decide)

end Registry

end IrohBle
