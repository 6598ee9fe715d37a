import IrohBle.Registry.Dormant
import IrohBle.Registry.Ledger

/-! # Registry.PipeHandles: whose handles an entry holds

The handles of a pipe arrive in a `DataPipeReady` some time after the `StartDataPipe` of
their generation. Every handler that ends a session drops them, except two: the loss of the
adapter's power changes the phase only, and `DataPipeReady` looks at the generation only,
which outlives its session.

* `PipesBelong`: handles are held by `Connected` entries, and come from the last
  `DataPipeReady` of the entry's generation.
* `pipes_belong_iff`: this holds at every point of a run exactly if no step is one of the two.
-/

namespace IrohBle

open Lib Reliable Registry

namespace Edit

@[simp] theorem setUpgrading_pipe (w : Edit) (upgrading : Bool) :
    (w.setUpgrading upgrading).entry.pipe = w.entry.pipe := by
  unfold setUpgrading
  split <;> rfl

@[simp] theorem setPath_pipe (w : Edit) (path : ConnectPath) :
    (w.setPath path).entry.pipe = w.entry.pipe := by
  unfold setPath
  split <;> rfl

@[simp] theorem setUpgrading_txGen (w : Edit) (upgrading : Bool) :
    (w.setUpgrading upgrading).entry.txGen = w.entry.txGen := by
  unfold setUpgrading
  split <;> rfl

@[simp] theorem setPath_txGen (w : Edit) (path : ConnectPath) :
    (w.setPath path).entry.txGen = w.entry.txGen := by
  unfold setPath
  split <;> rfl

@[simp] theorem setUpgrading_isConnected (w : Edit) (upgrading : Bool) :
    (w.setUpgrading upgrading).entry.phase.isConnected = w.entry.phase.isConnected := by
  unfold setUpgrading
  split
  · rename_i hp
    rw [hp]
    rfl
  · rfl

/-- The path of a session does not decide whether it is live. -/
@[simp] theorem setPath_isConnected (w : Edit) (path : ConnectPath) :
    (w.setPath path).entry.phase.isConnected = w.entry.phase.isConnected := by
  unfold setPath
  split
  · rename_i hp
    rw [hp]
    rfl
  · rfl

@[simp] theorem requestUpgrade_pipe (w : Edit) : w.requestUpgrade.entry.pipe = w.entry.pipe :=
  setUpgrading_pipe w true

@[simp] theorem armForDial_pipe (w : Edit) (now : ℕ) (deferPrefix : Option KeyPrefix) :
    (w.armForDial now deferPrefix).entry.pipe = w.entry.pipe := by
  rcases armForDial_entry w now deferPrefix with ⟨_, _, _, he, -⟩
  rw [he]

@[simp] theorem dialFailed_pipe (w : Edit) (now attempt : ℕ) (metric : String)
    (reason : DisconnectReason) :
    (w.dialFailed now attempt metric reason).entry.pipe = w.entry.pipe := by
  rw [dialFailed_entry]
  split <;> rfl

/-- A tick ends a session only for its silence. -/
theorem tickDecision_connected {io : Io} {tickNow : ℕ} {e : PeerEntry} {action : TickAction}
    (hc : e.phase.isConnected = true) (h : tickDecision io tickNow e = some action) :
    action = .connectedWedged := by
  unfold tickDecision at h
  cases hp : e.phase with
  | connected since channel txGen up =>
      simp only [hp] at h
      split at h
      · split at h
        · exact (Option.some.inj h).symm
        · cases h
      · cases h
  | _ =>
      rw [hp] at hc
      cases hc

end Edit

/-- Handles that are still held are those held before, in the same session. -/
def Carries (w w' : Edit) : Prop :=
  ∀ handles, w'.entry.pipe = some handles →
    w'.entry.phase.isConnected = true ∧ w.entry.pipe = some handles ∧
      w'.entry.txGen = w.entry.txGen

namespace Carries

variable {w w' : Edit}

/-- Without handles there is nothing to carry. -/
theorem drops (h : w'.entry.pipe = none) : Carries w w' := by
  intro handles heq
  rw [h] at heq
  cases heq

/-- Handles of a live session that goes on under its generation. -/
theorem keeps (hlive : ∀ handles, w.entry.pipe = some handles → w.entry.phase.isConnected = true)
    (hpipe : w'.entry.pipe = w.entry.pipe) (hgen : w'.entry.txGen = w.entry.txGen)
    (hphase : w.entry.phase.isConnected = true → w'.entry.phase.isConnected = true) :
    Carries w w' := by
  intro handles heq
  rw [hpipe] at heq
  exact ⟨hphase (hlive handles heq), heq, hgen⟩

/-- An entry outside a session holds no handles. -/
theorem idle (hlive : ∀ handles, w.entry.pipe = some handles → w.entry.phase.isConnected = true)
    (hidle : w.entry.phase.isConnected = false) (hpipe : w'.entry.pipe = w.entry.pipe) :
    Carries w w' := by
  intro handles heq
  rw [hpipe] at heq
  rw [hlive handles heq] at hidle
  cases hidle

section

variable (hlive : ∀ handles, w.entry.pipe = some handles → w.entry.phase.isConnected = true)
include hlive

/-- An advertisement drops the handles of an entry that it revives. -/
theorem advertised (now : ℕ) (p : KeyPrefix) (deferPrefix : Option KeyPrefix) :
    Carries w (w.advertised now p deferPrefix) := by
  unfold Edit.advertised
  dsimp only
  split
  · rename_i hp
    exact .idle hlive (congrArg PeerPhase.isConnected hp) (by simp)
  · rename_i hp
    split
    · exact .keeps hlive rfl rfl id
    · exact .idle hlive (congrArg PeerPhase.isConnected hp) (by simp)
  · exact .drops (by simp [Edit.clearConnectionState])
  · exact .drops (by simp [Edit.clearConnectionState])
  · rename_i hp
    split
    · exact .idle hlive (congrArg PeerPhase.isConnected hp) (by simp)
    · exact .keeps hlive rfl rfl id
  · exact .keeps hlive rfl rfl id

/-- A datagram may find the pipe closed, and drops it then. -/
theorem sendDatagram (io : Io) (target : Option EndpointId) (send : PendingSend) :
    Carries w (w.sendDatagram io target send) := by
  unfold Edit.sendDatagram
  split
  · rcases Edit.enqueue_entry w io send with ⟨pendingSends, pipe, he, hpipe⟩
    rcases hpipe with rfl | rfl
    · refine .keeps hlive ?_ ?_ ?_
      · rw [he]
      · rw [he]
      · rw [he]
        exact id
    · exact .drops (by rw [he])
  · exact .keeps hlive rfl rfl id
  · exact .keeps hlive rfl rfl id
  · rename_i hdecision
    refine .idle hlive ?_ (by simp [Edit.buffer])
    unfold Edit.sendDecision at hdecision
    cases hp : w.entry.phase with
    | connected since channel txGen up =>
        simp only [hp] at hdecision
        split at hdecision <;> cases hdecision
    | _ => rfl

/-- A fragment that starts a session drops the handles of the one before. -/
theorem fragment (io : Io) (source : FragmentSource) (bytes : Bytes) :
    Carries w (w.inboundGattFragment io source bytes) := by
  unfold Edit.inboundGattFragment
  dsimp only
  split
  · rename_i hp
    exact .idle hlive (congrArg PeerPhase.isConnected hp) (by simp)
  · split
    · exact .keeps hlive rfl rfl id
    · split
      · exact .drops (by simp [Edit.restartPeripheralGattPipe])
      · exact .keeps hlive rfl rfl id
  · exact .keeps hlive rfl rfl id
  · exact .drops (by simp [Edit.reviveByFragment])

/-- What falls due drops the handles of a session and has none otherwise. -/
theorem tick {io : Io} {tickNow : ℕ} {action : Edit.TickAction}
    (h : Edit.tickDecision io tickNow w.entry = some action) :
    Carries w (w.tickApply tickNow io.systemNow action) := by
  cases hc : w.entry.phase.isConnected with
  | true =>
      obtain rfl := Edit.tickDecision_connected hc h
      exact .drops (by simp [Edit.tickApply])
  | false =>
      unfold Edit.tickApply
      cases action with
      | startConnect attempt => exact .idle hlive hc (by simp)
      | pendingDialExpired => exact .idle hlive hc (by simp)
      | drainingToDead =>
          dsimp only
          split
          · exact .drops (by simp [Edit.resumeDrainedEntry, Edit.clearConnectionState])
          · exact .idle hlive hc (by simp)
      | restoringToDead => exact .idle hlive hc (by simp)
      | connectedWedged => exact .drops (by simp)

end

end Carries

/-- The two commands that may part handles from their session. -/
def PeerCommand.parts : PeerCommand → Bool
  | .adapterStateChanged powered => !powered
  | .dataPipeReady .. => true
  | _ => false

namespace Turn

/-- What one function of any other command does to the handles. -/
theorem Touch.carries {io : Io} {cmd : PeerCommand} {d : DeviceId} {w : Edit} {f : Edit → Edit}
    (hf : Touch io cmd d w.entry f) (hcmd : cmd.parts = false)
    (hlive : ∀ handles, w.entry.pipe = some handles → w.entry.phase.isConnected = true) :
    Carries w (f w) := by
  have hsame : (f w).entry.pipe = w.entry.pipe → (f w).entry.txGen = w.entry.txGen →
      (f w).entry.phase = w.entry.phase → Carries w (f w) := by
    intro hpipe hgen hphase
    refine .keeps hlive hpipe hgen ?_
    rw [hphase]
    exact id
  cases hf with
  | stampExact => exact hsame rfl rfl rfl
  | stampVerified _ => exact hsame rfl rfl rfl
  | cancelDial _ => exact .drops (by simp)
  | drainLoser _ => exact .drops (by simp)
  | requestUpgrade _ _ _ =>
      refine .keeps hlive (by simp) (by simp [Edit.requestUpgrade]) ?_
      intro hc
      simpa [Edit.requestUpgrade] using hc
  -- who the device is does not touch the handles, and a new session drops them
  | @subscribed _ c p _ verified =>
      rcases Edit.noteSubscriber_entry w io.now c p verified with ⟨_, _, _, _, he⟩
      unfold Edit.peripheralClientSubscribed at hsame ⊢
      dsimp only at hsame ⊢
      generalize w.noteSubscriber io.now c p verified = w₁ at he hsame ⊢
      have hw₁ : Carries w w₁ := by
        refine .keeps hlive ?_ ?_ ?_
        · rw [he]
        · rw [he]
        · rw [he]
          exact id
      have hrestart : ∀ c, Carries w (w₁.restartPeripheralGattPipe io.now none (some c)) :=
        fun c => .drops (by simp [Edit.restartPeripheralGattPipe])
      split
      · split
        · exact hw₁
        · exact hrestart c
      · exact hw₁
      · exact hw₁
      · exact hrestart c
  | unsubscribed =>
      unfold Edit.peripheralClientUnsubscribed at hsame ⊢
      dsimp only at hsame ⊢
      split
      · exact .keeps hlive rfl rfl id
      · exact .drops (by simp)
  | advertisedSuppressed => exact hsame rfl rfl rfl
  | advertised => exact .advertised hlive _ _ _
  | sendDatagram => exact .sendDatagram hlive _ _ _
  | connectSucceeded _ =>
      unfold Edit.connectSucceeded at hsame ⊢
      split
      · exact .keeps hlive rfl rfl id
      · rename_i hdial
        have hidle : w.entry.phase.isConnected = false := by
          cases hp : w.entry.phase with
          | connected since channel txGen up => simp [hp, PeerPhase.isConnecting] at hdial
          | _ => rfl
        refine .idle hlive hidle ?_
        dsimp only
        split <;> simp
  | connectFailed =>
      unfold Edit.connectFailed at hsame ⊢
      split
      · exact .keeps hlive rfl rfl id
      · split
        · rename_i hp
          exact .idle hlive (by rw [hp]; rfl) (by simp)
        · exact .keeps hlive rfl rfl id
  | fragment => exact .fragment hlive _ _ _
  | centralDisconnected =>
      unfold Edit.centralDisconnected
      dsimp only
      split
      · rename_i hp
        exact .idle hlive (by rw [hp]; rfl) (by simp)
      · split
        · exact .drops (by simp [Edit.resumeDrainedEntry, Edit.clearConnectionState])
        · exact .drops (by simp)
      · exact .drops (by simp)
  | adapterOff => cases hcmd
  | adapterOn =>
      unfold Edit.adapterOn
      split
      · rename_i hp
        exact .idle hlive (by rw [hp]; rfl) rfl
      · exact .keeps hlive rfl rfl id
  | tick h => exact .tick hlive h
  | forget => exact .drops (by simp [Edit.forget])
  | stalled =>
      unfold Edit.stalled
      split
      · exact .drops (by simp)
      · exact .keeps hlive rfl rfl id
  | shutdown => exact hsame rfl rfl rfl
  | dataPipeReady => cases hcmd
  | openL2capSucceeded =>
      unfold Edit.openL2capSucceeded
      split
      · exact .keeps hlive rfl rfl id
      · split
        · rename_i hp
          exact .idle hlive (by rw [hp]; rfl) (by simp)
        · split
          · exact .keeps hlive (by simp) (by simp) (by simp)
          · exact .keeps hlive (by simp) (by simp) (by simp)
        · exact .keeps hlive rfl rfl id
  | openL2capFailed =>
      unfold Edit.openL2capFailed
      split
      · exact .keeps hlive rfl rfl id
      · split
        · rename_i hp
          exact .idle hlive (by rw [hp]; rfl) (by simp)
        · exact .keeps hlive (by simp) (by simp) (by simp)
        · exact .keeps hlive rfl rfl id
  | inboundL2capChannel =>
      unfold Edit.inboundL2capChannel
      split
      · split
        · exact .keeps hlive rfl rfl id
        · exact .keeps hlive (by simp) (by simp) (by simp)
        · exact .keeps hlive rfl rfl id
      · rename_i hpipe
        exact .drops (by simpa using hpipe)
  | protocolVersionMismatch =>
      unfold Edit.protocolVersionMismatch
      split
      · exact .keeps hlive rfl rfl id
      · exact .drops (by simp)
  | handoverTimeout =>
      unfold Edit.l2capHandoverTimeout
      exact .keeps hlive (by simp) (by simp) (by simp)

end Turn

namespace Registry

open Turn

/-- The handles held in `r'` are those held in `r`, in the same sessions. -/
def PipesKept (r r' : Registry) : Prop :=
  ∀ d e' handles, r'.peer d = some e' → e'.pipe = some handles →
    e'.phase.isConnected = true ∧
      ∃ e, r.peer d = some e ∧ e.pipe = some handles ∧ e'.txGen = e.txGen

/-- One step carries the handles along; the loss of power does so where no entry has any. -/
theorem PipesKept.step {r : Registry} {io : Io} {cmd : PeerCommand} {t t' : Turn}
    (hcmd : cmd.parts = false ∨
      cmd = .adapterStateChanged false ∧ ∀ d e, r.peer d = some e → e.pipe = none)
    (ht : PipesKept r t.reg) (h : Step io cmd t t') : PipesKept r t'.reg := by
  suffices hall : ∀ d e', t'.reg.peer d = some e' → ∀ handles, e'.pipe = some handles →
      e'.phase.isConnected = true ∧
        ∃ e, r.peer d = some e ∧ e.pipe = some handles ∧ e'.txGen = e.txGen by
    intro d e' handles he' hpipe
    exact hall d e' he' handles hpipe
  intro d
  refine h.all ?_ ?_ ?_ fun e he handles hpipe => ht d e handles he hpipe
  · intro n handles hpipe
    cases hpipe
  · intro f w hf hw handles hpipe
    rcases hcmd with hcmd | ⟨rfl, hnone⟩
    · have hlive : ∀ handles, w.entry.pipe = some handles → w.entry.phase.isConnected = true :=
        fun handles hh => (hw handles hh).1
      rcases hf.carries hcmd hlive handles hpipe with ⟨hconn, hold, hgen⟩
      rcases hw handles hold with ⟨-, e, he, hp, hg⟩
      exact ⟨hconn, e, he, hp, hgen.trans hg⟩
    · -- the power goes off, and no entry holds handles
      cases hf with
      | adapterOff =>
          rcases hw handles hpipe with ⟨-, e, he, hp, -⟩
          rw [hnone d e he] at hp
          cases hp
  · intro f w n hf hw handles hpipe
    have hnopipe : w.entry.pipe = none := by
      rw [hw]
      rfl
    cases hf with
    | fragment => cases hnopipe.symm.trans hpipe
    | inboundL2capChannel => cases hnopipe.symm.trans hpipe

/-- The handles a step brings for the generation `g` of `d`. -/
def Label.ready? (d : DeviceId) (g : ℕ) : Label → Option PipeHandles
  | .command _ (.dataPipeReady d' g' handles) => if d' = d ∧ g' = g then some handles else none
  | _ => none

/-- The handles that arrived for a generation of the device. -/
def readies (d : DeviceId) (g : ℕ) (h : List (Registry × Label)) : List PipeHandles :=
  h.filterMap fun x => x.2.ready? d g

/-- The history is read command by command. -/
theorem readies_snoc (d : DeviceId) (g : ℕ) (h : List (Registry × Label)) (x : Registry × Label) :
    readies d g (h ++ [x]) = readies d g h ++ (x.2.ready? d g).toList := by
  unfold readies
  rw [List.filterMap_append]
  cases hx : x.2.ready? d g with
  | none => simp [hx]
  | some handles => simp [hx]

/-- The pipes started for the generation `g` of `d`. -/
def startsOf (d : DeviceId) (g : ℕ) (h : List (Registry × Label)) : List PeerAction :=
  (emittedBy h).filter fun
    | .startDataPipe d' _ g' _ _ _ _ => decide (d' = d ∧ g' = g)
    | _ => false

/-- Every `StartDataPipe` is answered at most once, and afterwards. -/
def Answered (h : List (Registry × Label)) : Prop :=
  ∀ k, k <+: h → ∀ d g, (readies d g k).length ≤ (startsOf d g k).length

/-- Handles are held in `Connected` entries, and are those of the last `DataPipeReady` of
their generation since the entry exists; of the only one, if the generation has been started
once. -/
def PipesBelong (h : List (Registry × Label)) (r : Registry) : Prop :=
  ∀ d e handles, r.peer d = some e → e.pipe = some handles →
    e.phase.isConnected = true ∧
      (readies d e.txGen (incarnation d h)).getLast? = some handles ∧
      ((startsOf d e.txGen h).length ≤ 1 → readies d e.txGen h = [handles])

/-- The step parts no handles from their session: the power does not go off while an entry
holds some, and none arrive for an entry that has left the session of their generation. -/
def KeepsHandles (r : Registry) : Label → Prop
  | .command _ (.adapterStateChanged false) => ∀ d e, r.peer d = some e → e.pipe = none
  | .command _ (.dataPipeReady d g _) =>
      ∀ e, r.peer d = some e → e.txGen = g → e.phase.isConnected = true
  | _ => True

/-- What is known of the handles without counting the answers. -/
def LatestReady (h : List (Registry × Label)) (r : Registry) : Prop :=
  ∀ d e handles, r.peer d = some e → e.pipe = some handles →
    e.phase.isConnected = true ∧ (readies d e.txGen (incarnation d h)).getLast? = some handles

section Step

variable {h : List (Registry × Label)} {r : Registry} {io : Io}

/-- A step that brings no handles keeps what is known of those held. -/
theorem LatestReady.kept {l : Label} {r' : Registry} (hr : LatestReady h r) (hkept : PipesKept r r')
    (hready : ∀ d e handles, r.peer d = some e → e.pipe = some handles →
      l.ready? d e.txGen = none) : LatestReady (h ++ [(r, l)]) r' := by
  intro d e' handles he' hpipe
  rcases hkept d e' handles he' hpipe with ⟨hconn, e, he, hp, hg⟩
  refine ⟨hconn, ?_⟩
  have hsome : (r.peer d).isNone = false := by
    rw [he]
    rfl
  rw [incarnation_snoc, hsome, if_neg Bool.false_ne_true, hg, readies_snoc,
    hready d e handles he hp, Option.toList_none, List.append_nil]
  exact (hr d e handles he hp).2

theorem pipesKept_of_connected
    (hr : ∀ d e handles, r.peer d = some e → e.pipe = some handles → e.phase.isConnected = true) :
    PipesKept r r :=
  fun d e handles he hp => ⟨hr d e handles he hp, e, he, hp, rfl⟩

/-- A whole command. -/
theorem pipesKept_handle {cmd : PeerCommand}
    (hr : ∀ d e handles, r.peer d = some e → e.pipe = some handles → e.phase.isConnected = true)
    (hcmd : cmd.parts = false ∨
      cmd = .adapterStateChanged false ∧ ∀ d e, r.peer d = some e → e.pipe = none) :
    PipesKept r (r.handle io cmd).reg := by
  have hsteps := handle_steps io cmd r
  generalize r.handle io cmd = t at hsteps ⊢
  induction hsteps with
  | refl => exact pipesKept_of_connected hr
  | tail _ hs ih => exact ih.step hcmd hs

/-- The entry after a `DataPipeReady`. -/
theorem peer_handle_dataPipeReady (r : Registry) (io : Io) (d : DeviceId) (g : ℕ)
    (handles : PipeHandles) (d' : DeviceId) :
    (r.handle io (.dataPipeReady d g handles)).reg.peer d' =
      if d' = d then (r.peer d).map fun e => (((start r).focus e).dataPipeReady io g handles).entry
      else r.peer d' := by
  change ((start r).edit d (Edit.dataPipeReady io g handles)).reg.peer d' = _
  cases he : r.peer d with
  | none =>
      rw [edit_of_none (t := start r) he]
      split
      · rename_i hd
        rw [hd]
        exact he
      · rfl
  | some e =>
      rw [edit_of_some (t := start r) he, peer_store (t := start r) he]
      rfl

/-- `DataPipeReady` stores its handles in the entry of its generation, whatever its phase. -/
theorem latestReady_ready_iff {d : DeviceId} {g : ℕ} {handles : PipeHandles}
    (hr : LatestReady h r) :
    LatestReady (h ++ [(r, .command io (.dataPipeReady d g handles))])
        (r.handle io (.dataPipeReady d g handles)).reg ↔
      ∀ e, r.peer d = some e → e.txGen = g → e.phase.isConnected = true := by
  constructor
  · intro hafter e he hg
    rcases Edit.dataPipeReady_entry ((start r).focus e) io g handles hg with ⟨_, _, hentry⟩
    have he' := peer_handle_dataPipeReady r io d g handles d
    rw [if_pos rfl, he, Option.map_some, hentry] at he'
    exact (hafter d _ handles he' rfl).1
  · intro hcond d' e' handles' he' hpipe
    rw [peer_handle_dataPipeReady] at he'
    -- an entry that the handles are not for stays as it is
    have hother : ∀ e, r.peer d' = some e → e = e' →
        Label.ready? d' e.txGen (.command io (.dataPipeReady d g handles)) = none →
        e'.phase.isConnected = true ∧ (readies d' e'.txGen (incarnation d'
          (h ++ [(r, .command io (.dataPipeReady d g handles))]))).getLast? = some handles' := by
      rintro e he rfl hready
      rw [incarnation_snoc, he, Option.isNone_some, if_neg Bool.false_ne_true, readies_snoc, hready,
        Option.toList_none, List.append_nil]
      exact hr d' e handles' he hpipe
    split at he'
    · rename_i hd
      subst hd
      rcases Option.map_eq_some_iff.mp he' with ⟨e, he, rfl⟩
      by_cases hg : e.txGen = g
      · rcases Edit.dataPipeReady_entry ((start r).focus e) io g handles hg with ⟨_, _, hentry⟩
        rw [hentry] at hpipe ⊢
        obtain rfl : handles = handles' := Option.some.inj hpipe
        refine ⟨hcond e he hg, ?_⟩
        have hready : Label.ready? d' e.txGen (.command io (.dataPipeReady d' g handles)) =
            some handles := by
          simp [Label.ready?, hg]
        rw [incarnation_snoc, he, Option.isNone_some, if_neg Bool.false_ne_true, readies_snoc,
          show ((start r).focus e).entry.txGen = e.txGen from rfl, hready]
        simp
      · have hsame : ((start r).focus e).dataPipeReady io g handles = (start r).focus e := by
          unfold Edit.dataPipeReady
          exact if_pos hg
        rw [hsame] at hpipe hother ⊢
        refine hother e he rfl ?_
        simp [Label.ready?, Ne.symm hg]
    · rename_i hd
      refine hother e' he' rfl ?_
      simp [Label.ready?, Ne.symm hd]

/-- A step keeps what is known of the handles exactly if it parts none from their session. -/
theorem latestReady_step_iff {l : Label} {r' : Registry} (hr : LatestReady h r)
    (hs : step l r = some r') : LatestReady (h ++ [(r, l)]) r' ↔ KeepsHandles r l := by
  -- only live entries hold handles
  have hlive : ∀ d e handles, r.peer d = some e → e.pipe = some handles →
      e.phase.isConnected = true := fun d e handles he hp => (hr d e handles he hp).1
  cases l with
  -- another order of the peers changes no entry
  | reorder ks =>
      refine iff_of_true (hr.kept ?_ fun _ _ _ _ _ => rfl) trivial
      intro d e handles he hp
      rw [peer_reorder hs] at he
      exact ⟨hlive d e handles he hp, e, he, hp, rfl⟩
  | command io cmd =>
      obtain rfl := Option.some.inj hs
      -- a command that leaves handles and session together
      cases hcmd : cmd.parts with
      | false =>
          refine iff_of_true (hr.kept (pipesKept_handle hlive (Or.inl hcmd)) ?_) ?_
          · intro d e handles _ _
            cases cmd with
            | dataPipeReady d' g' handles' => cases hcmd
            | _ => rfl
          · cases cmd with
            | dataPipeReady d' g' handles' => cases hcmd
            | adapterStateChanged powered =>
                cases powered with
                | true => trivial
                | false => cases hcmd
            | _ => trivial
      | true =>
          cases cmd with
          | adapterStateChanged powered =>
              obtain rfl : powered = false := by simpa [PeerCommand.parts] using hcmd
              constructor
              · intro hafter d e he
                by_contra hsome
                rcases Option.ne_none_iff_exists'.mp hsome with ⟨handles, hp⟩
                rcases handle_adapterOff io he with ⟨e', he', hphase, hpipe⟩
                have hconn := (hafter d e' handles he' (hpipe.trans hp)).1
                rw [hphase] at hconn
                cases hconn
              · intro hnone
                exact hr.kept (pipesKept_handle hlive (Or.inr ⟨rfl, hnone⟩)) fun _ _ _ _ _ => rfl
          | dataPipeReady d g handles => exact latestReady_ready_iff hr
          | _ => cases hcmd

end Step

/-- With `DataPipeReady` arriving at most once for each `StartDataPipe`, handles belong to
the live session at every point of a run exactly if every step keeps them with it. -/
theorem pipes_belong_iff {h : List (Registry × Label)} {r : Registry} (hrun : system.Run h r)
    (hanswered : Answered h) : system.Always PipesBelong h ↔ System.Meets KeepsHandles h := by
  have hlatest : system.Always LatestReady h ↔ System.Meets KeepsHandles h := by
    refine hrun.always_iff ?_ ?_
    · rintro r ⟨policy, endpoint, rfl⟩ d e handles he
      cases he
    · intro h r l r' _ hr hs
      exact latestReady_step_iff hr hs
  rw [← hlatest]
  constructor
  · intro hall k s hk hr d e handles he hp
    exact ⟨(hall k s hk hr d e handles he hp).1, (hall k s hk hr d e handles he hp).2.1⟩
  · intro hall k s hk hr d e handles he hp
    rcases hall k s hk hr d e handles he hp with ⟨hconn, hlast⟩
    refine ⟨hconn, hlast, ?_⟩
    intro hone
    -- the last one is among all of them, of which there is at most one
    have hmem : handles ∈ readies d e.txGen k :=
      ((incarnation_sublist d k).filterMap _).subset (List.mem_of_getLast? hlast)
    have hlen : (readies d e.txGen k).length ≤ 1 := (hanswered k hk d e.txGen).trans hone
    match hk' : readies d e.txGen k, hlen with
    | [], _ =>
        rw [hk'] at hmem
        cases hmem
    | [handles'], _ =>
        rw [hk'] at hmem
        rw [List.mem_singleton.mp hmem]

/-- The first step starts a pipe, and the rest answers it at most once. -/
theorem Answered.of_once {x : Registry × Label} {h : List (Registry × Label)} {d : DeviceId} {g : ℕ}
    (hstart : 1 ≤ (startsOf d g [x]).length) (hfirst : ∀ d g, x.2.ready? d g = none)
    (hrest : ∀ d' g', (readies d' g' h).length ≤ if d' = d ∧ g' = g then 1 else 0) :
    Answered (x :: h) := by
  intro k hk d' g'
  cases k with
  | nil => exact Nat.zero_le _
  | cons y k =>
      obtain ⟨rfl, hk'⟩ := List.cons_prefix_cons.mp hk
      have hready : readies d' g' (y :: k) = readies d' g' k := by
        simp [readies, hfirst d' g']
      have hle : (readies d' g' k).length ≤ (readies d' g' h).length :=
        (hk'.sublist.filterMap _).length_le
      rw [hready]
      refine hle.trans ((hrest d' g').trans ?_)
      split
      · rename_i heq
        obtain ⟨rfl, rfl⟩ := heq
        have hmore : (startsOf d' g' [y]).length ≤ (startsOf d' g' (y :: k)).length := by
          simp [startsOf, emittedBy]
        exact hstart.trans hmore
      · exact Nat.zero_le _

/-- Handles of a pipe. -/
def someHandles : PipeHandles := ⟨1, 2, 3, 4⟩

/-- A peer writes its first fragment and the pipe becomes ready. -/
def pipeRun : List Label :=
  [.command (ioAt 0) (.inboundGattFragment "peer" .peripheralReceivedC2p [1]),
    .command (ioAt 1) (.dataPipeReady "peer" 1 someHandles)]

/-- On a run: a session whose pipe is ready. -/
theorem pipes_belong_iff_pipeRun :
    ∃ h r e, system.Run h r ∧ h.map Prod.snd = pipeRun ∧ r.peer "peer" = some e ∧
      e.pipe = some someHandles ∧ system.Always PipesBelong h := by
  obtain ⟨h, r, hrun, hl, hlen, hstart, hconn, hpipe⟩ := System.Run.of_trace
    (P := fun h (r : Registry) => h.length = 2 ∧ 1 ≤ (startsOf "peer" 1 (h.take 1)).length ∧
      (h.getLast?.bind fun x => (x.1.peer "peer").map fun e => e.phase.isConnected) = some true ∧
      (r.peer "peer").map PeerEntry.pipe = some (some someHandles))
    pipeRun (init_new .disabled localEndpoint) (by decide +kernel)
  obtain ⟨x₀, x₁, rfl⟩ := List.length_eq_two.mp hlen
  simp only [pipeRun, List.map_cons, List.map_nil, List.cons.injEq, and_true] at hl
  obtain ⟨e, he, hp⟩ := Option.map_eq_some_iff.mp hpipe
  obtain ⟨e₁, he₁, hc₁⟩ := Option.map_eq_some_iff.mp hconn
  have hanswered : Answered [x₀, x₁] := by
    refine Answered.of_once hstart ?_ ?_
    · intro d g
      rw [hl.1]
      rfl
    · intro d g
      simp only [readies, List.filterMap_cons, hl.2, Label.ready?, List.filterMap_nil]
      split <;> simp_all
  refine ⟨_, r, e, hrun, by simp [pipeRun, hl], he, hp, (pipes_belong_iff hrun hanswered).mpr ?_⟩
  intro y hy
  rcases List.mem_pair.mp hy with rfl | rfl
  · rw [hl.1]
    trivial
  · rw [hl.2]
    intro e' he' _
    obtain rfl : e₁ = e' := Option.some.inj (he₁.symm.trans he')
    exact hc₁

/-- The adapter goes off: the entry is `Restoring`, with the handles of its old session. -/
theorem adapter_off_keeps_handles :
    ∃ h r e, system.Run h r ∧
      h.map Prod.snd = pipeRun ++ [.command (ioAt 2) (.adapterStateChanged false)] ∧ Answered h ∧
      r.peer "peer" = some e ∧ e.pipe = some someHandles ∧ e.phase = .restoring 2 ∧
      ¬ system.Always PipesBelong h := by
  obtain ⟨h, r, hrun, hl, hlen, hstart, hafter⟩ := System.Run.of_trace
    (P := fun h (r : Registry) => h.length = 3 ∧ 1 ≤ (startsOf "peer" 1 (h.take 1)).length ∧
      (r.peer "peer").map (fun e => (e.pipe, e.phase)) = some (some someHandles, .restoring 2))
    (pipeRun ++ [.command (ioAt 2) (.adapterStateChanged false)])
    (init_new .disabled localEndpoint) (by decide +kernel)
  obtain ⟨x₀, x₁, x₂, rfl⟩ := List.length_eq_three.mp hlen
  obtain ⟨e, he, hf⟩ := Option.map_eq_some_iff.mp hafter
  simp only [Prod.mk.injEq] at hf
  simp only [pipeRun, List.map_cons, List.map_nil, List.cons_append, List.nil_append,
    List.cons.injEq, and_true] at hl
  have hanswered : Answered [x₀, x₁, x₂] := by
    refine Answered.of_once hstart ?_ ?_
    · intro d g
      rw [hl.1]
      rfl
    · intro d g
      simp only [readies, List.filterMap_cons, hl.2.1, hl.2.2, Label.ready?, List.filterMap_nil]
      split <;> simp_all
  refine ⟨_, r, e, hrun, by simp [pipeRun, hl], hanswered, he, hf.1, hf.2, ?_⟩
  intro hall
  have hconn := (hall _ r (List.prefix_refl _) hrun "peer" e _ he hf.1).1
  rw [hf.2] at hconn
  cases hconn

end Registry

end IrohBle
