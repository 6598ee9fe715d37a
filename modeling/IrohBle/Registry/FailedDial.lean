import IrohBle.Registry.Lifecycle

/-! # Registry.FailedDial: the two reports of a failed dial

A dial that fails is reported by the connect job (`ConnectFailed`) and by the native
event pump (`CentralDisconnected`), in either order.

* `disconnected_then_failed`: the disconnect first counts one failure and retires the
  lifecycle, so the second report is dropped.
* `failed_then_disconnected`: the other order ends in `Draining`, because
  `ConnectFailed` leaves `Connecting` and the disconnect then takes the arm for a live
  link.
-/

namespace IrohBle.Registry

open Lib Reliable Turn

/-- `d` waits for its next attempt, or has used up its last one, after one more
failure. -/
def FailedOnce (attempt failures : ℕ) (e : PeerEntry) : Prop :=
  e.consecutiveFailures = failures + 1 ∧
    match e.phase with
    | .reconnecting next _ _ => attempt + 1 < maxConnectAttempts ∧ next = attempt + 1
    | .dead .maxRetries _ => attempt + 1 ≥ maxConnectAttempts
    | _ => False

/-- A failed dial and how it is reported: the dialling device, its lifecycle, and what
the two reports carry. -/
structure Failure where
  device : DeviceId
  lifecycle : ℕ
  error : String
  cause : DisconnectCause

/-- The job's report. -/
def Failure.failed (x : Failure) : PeerCommand := .connectFailed x.device x.lifecycle x.error

/-- The event pump's report. -/
def Failure.disconnected (x : Failure) : PeerCommand := .centralDisconnected x.device x.cause

/-- The entry after two commands. -/
def peerAfter (r : Registry) (io₁ io₂ : Io) (cmd₁ cmd₂ : PeerCommand) (d : DeviceId) :
    Option PeerEntry :=
  ((r.handle io₁ cmd₁).reg.handle io₂ cmd₂).reg.peer d

/-- Either order of the reports counts the failure once and leaves the entry to retry,
or dead. -/
def OneOutcome (r : Registry) (x : Failure) (attempt failures : ℕ) (io₁ io₂ : Io) : Prop :=
  (∃ e, r.peerAfter io₁ io₂ x.failed x.disconnected x.device = some e ∧
      FailedOnce attempt failures e) ∧
    (∃ e, r.peerAfter io₁ io₂ x.disconnected x.failed x.device = some e ∧
      FailedOnce attempt failures e)

@[simp] theorem peer_pruneIfGivenUp (t : Turn) (d d' : DeviceId) (before : Option PeerEntry) :
    (t.pruneIfGivenUp d before).reg.peer d' = t.reg.peer d' := by
  unfold pruneIfGivenUp
  split <;> rfl

theorem peer_handle_connectFailed {r : Registry} {d : DeviceId} {e : PeerEntry}
    (he : r.peer d = some e) (io : Io) (l : ℕ) (error : String) :
    (r.handle io (.connectFailed d l error)).reg.peer d =
      some (Edit.connectFailed io.now l error ((start r).focus e)).entry := by
  change ((start r).handleConnectFailed io d l error).reg.peer d = _
  rw [handleConnectFailed, peer_pruneIfGivenUp, edit_of_some he, peer_store he, if_pos rfl]

theorem peer_handle_centralDisconnected {r : Registry} {d : DeviceId} {e : PeerEntry}
    (he : r.peer d = some e) (io : Io) (cause : DisconnectCause) :
    (r.handle io (.centralDisconnected d cause)).reg.peer d =
      some (Edit.centralDisconnected io.now io.systemNow cause ((start r).focus e)).entry := by
  change ((start r).handleCentralDisconnected io d cause).reg.peer d = _
  rw [handleCentralDisconnected, peer_pruneIfGivenUp, edit_of_some he, peer_store he, if_pos rfl]

section

variable {r : Registry} {x : Failure} {e : PeerEntry} {attempt started : ℕ} {path : ConnectPath}

/-- `ConnectFailed` of the current lifecycle leaves `Connecting`. -/
theorem connectFailed_phase (he : r.peer x.device = some e) (hl : e.lifecycleId = x.lifecycle)
    (hp : e.phase = .connecting attempt started path) (io : Io) :
    ∃ e', (r.handle io x.failed).reg.peer x.device = some e' ∧
      e'.phase.isConnecting = false ∧ (∀ since reason, e'.phase ≠ .draining since reason) := by
  refine ⟨_, peer_handle_connectFailed he io x.lifecycle x.error, ?_⟩
  have hw : ((start r).focus e).entry = e := rfl
  simp only [Edit.connectFailed, hw, hl, ne_eq, not_true_eq_false, if_false, hp,
    Edit.dialFailed_entry]
  split
  · exact ⟨rfl, fun since reason h => by cases h⟩
  · exact ⟨rfl, fun since reason h => by cases h⟩

/-- The arm of `CentralDisconnected` for an entry that neither dials nor drains. -/
theorem centralDisconnected_drains (w : Edit) (now systemNow : ℕ) (cause : DisconnectCause)
    (hc : w.entry.phase.isConnecting = false)
    (hd : ∀ since reason, w.entry.phase ≠ .draining since reason) :
    (w.centralDisconnected now systemNow cause).entry.phase =
      .draining now (DisconnectReason.ofCause cause) := by
  unfold Edit.centralDisconnected
  cases hp : w.entry.phase with
  | connecting attempt started path => simp [hp, PeerPhase.isConnecting] at hc
  | draining since reason => exact absurd hp (hd since reason)
  | _ => simp

/-- `ConnectFailed` first: the disconnect drains the entry. -/
theorem failed_then_disconnected (he : r.peer x.device = some e) (hl : e.lifecycleId = x.lifecycle)
    (hp : e.phase = .connecting attempt started path) (io₁ io₂ : Io) :
    ∃ e', r.peerAfter io₁ io₂ x.failed x.disconnected x.device = some e' ∧
      e'.phase = .draining io₂.now (DisconnectReason.ofCause x.cause) := by
  rcases connectFailed_phase he hl hp io₁ with ⟨e₁, he₁, hc, hd⟩
  exact ⟨_, peer_handle_centralDisconnected he₁ io₂ x.cause,
    centralDisconnected_drains _ _ _ _ hc hd⟩

/-- `CentralDisconnected` first counts the failure under a new lifecycle. -/
theorem disconnected_failedOnce (hl : e.lifecycleId < r.nextLifecycle)
    (he : r.peer x.device = some e) (hp : e.phase = .connecting attempt started path) (io : Io) :
    ∃ e', (r.handle io x.disconnected).reg.peer x.device = some e' ∧
      FailedOnce attempt e.consecutiveFailures e' ∧ e'.lifecycleId ≠ e.lifecycleId := by
  refine ⟨_, peer_handle_centralDisconnected he io x.cause, ?_⟩
  have hw : ((start r).focus e).entry = e := rfl
  have hn : ((start r).focus e).nextLifecycle = r.nextLifecycle := rfl
  simp only [Edit.centralDisconnected, hw, hp, Edit.refreshOn133_entry, Edit.dialFailed_entry]
  split
  · rename_i hmax
    refine ⟨⟨rfl, hmax⟩, ?_⟩
    simp only [Edit.modify_entry, Edit.abandonOutstanding_entry, hn]
    omega
  · rename_i hmax
    refine ⟨⟨rfl, by omega, rfl⟩, ?_⟩
    simp only [Edit.modify_entry, Edit.abandonOutstanding_entry, hn]
    omega

/-- `CentralDisconnected` first: the late `ConnectFailed` is dropped. -/
theorem disconnected_then_failed (he : r.peer x.device = some e) (hl : e.lifecycleId = x.lifecycle)
    (hfresh : e.lifecycleId < r.nextLifecycle) (hp : e.phase = .connecting attempt started path)
    (io₁ io₂ : Io) :
    ∃ e', r.peerAfter io₁ io₂ x.disconnected x.failed x.device = some e' ∧
      FailedOnce attempt e.consecutiveFailures e' := by
  rcases disconnected_failedOnce hfresh he hp io₁ with ⟨e₁, he₁, hone, hne⟩
  refine ⟨_, peer_handle_connectFailed he₁ io₂ x.lifecycle x.error, ?_⟩
  have hw : ((start (r.handle io₁ x.disconnected).reg).focus e₁).entry = e₁ := rfl
  rw [hl] at hne
  simp only [Edit.connectFailed, hw, ne_eq, hne, not_false_eq_true, if_true]
  exact hone

end

/-- In every reachable state with a dial under way, the disconnect followed by the
`ConnectFailed` has the outcome of one failure, and the other order ends in `Draining`:
the two reports never have one outcome. -/
theorem failed_dial_two_outcomes {h : List (Registry × Label)} {r : Registry}
    (hrun : system.Run h r) {x : Failure} {e : PeerEntry} {attempt started : ℕ}
    {path : ConnectPath} (he : r.peer x.device = some e) (hl : e.lifecycleId = x.lifecycle)
    (hp : e.phase = .connecting attempt started path) (io₁ io₂ : Io) :
    (∃ e', r.peerAfter io₁ io₂ x.disconnected x.failed x.device = some e' ∧
        FailedOnce attempt e.consecutiveFailures e') ∧
      (∃ e', r.peerAfter io₁ io₂ x.failed x.disconnected x.device = some e' ∧
        e'.phase = .draining io₂.now (DisconnectReason.ofCause x.cause)) ∧
      ¬ OneOutcome r x attempt e.consecutiveFailures io₁ io₂ := by
  have hfresh := idsIssued_of_run hrun x.device e he
  refine ⟨disconnected_then_failed he hl hfresh hp io₁ io₂,
    failed_then_disconnected he hl hp io₁ io₂, ?_⟩
  rintro ⟨⟨e', he', -, hphase⟩, -⟩
  rcases failed_then_disconnected he hl hp io₁ io₂ with ⟨e'', he'', hdrain⟩
  obtain rfl : e'' = e' := Option.some.inj (he''.symm.trans he')
  rw [hdrain] at hphase
  exact hphase

theorem init_new (policy : L2capPolicy) (endpoint : EndpointId) :
    system.Init (new policy endpoint) := ⟨policy, endpoint, rfl⟩

/-- The prefix of a peer that advertises, and a clock. -/
def peerPrefix : KeyPrefix := ⟨List.replicate 12 3, by simp [keyPrefixLen]⟩
def ioAt (now : ℕ) : Io := ⟨now, now, fun _ => 0, fun _ => .ok⟩

/-- The peer advertises and a datagram for it starts a dial. -/
def dialRun : List Label :=
  [.command (ioAt 0) (.advertised peerPrefix "peer" none),
    .command (ioAt 1) (.sendDatagram "peer" none 0 [1] 0)]

/-- The dial of the run below fails with a GATT 133. -/
def dialFailure : Failure := ⟨"peer", 2, "timeout", .gatt133⟩

/-- On a run: the same failure leaves the entry in two different phases. -/
theorem failed_dial_two_outcomes_dialRun :
    ∃ h r, system.Run h r ∧ h.map Prod.snd = dialRun ∧
      ¬ OneOutcome r dialFailure 0 0 (ioAt 2) (ioAt 3) := by
  obtain ⟨h, r, hrun, hl, hP⟩ := System.Run.of_exec
    (P := fun r : Registry => (r.peer "peer").map (fun e => (e.lifecycleId, e.consecutiveFailures,
      e.phase)) = some (2, 0, .connecting 0 1 .gatt))
    dialRun (init_new .disabled localEndpoint) (by decide +kernel)
  obtain ⟨e, he, hf⟩ := Option.map_eq_some_iff.mp hP
  simp only [Prod.mk.injEq] at hf
  refine ⟨h, r, hrun, hl, ?_⟩
  have hno := (failed_dial_two_outcomes hrun (x := dialFailure) he hf.1 hf.2.2 (ioAt 2) (ioAt 3)).2.2
  rw [hf.2.1] at hno
  exact hno

/-- The connect job reports first: the peer is left draining. -/
theorem failed_dial_drains :
    ∃ h r, system.Run h r ∧ h.map Prod.snd = dialRun ∧
      (r.peer "peer").map (fun e => (e.lifecycleId, e.consecutiveFailures, e.phase)) =
        some (2, 0, .connecting 0 1 .gatt) ∧
      (r.peerAfter (ioAt 2) (ioAt 3) dialFailure.failed dialFailure.disconnected "peer").map
        PeerEntry.phase = some (.draining 3 .gatt133) ∧
      ¬ OneOutcome r dialFailure 0 0 (ioAt 2) (ioAt 3) := by
  obtain ⟨h, r, hrun, hl, hphase, hdrain⟩ := System.Run.of_exec
    (P := fun r : Registry =>
      (r.peer "peer").map (fun e => (e.lifecycleId, e.consecutiveFailures, e.phase)) =
        some (2, 0, .connecting 0 1 .gatt) ∧
      (r.peerAfter (ioAt 2) (ioAt 3) dialFailure.failed dialFailure.disconnected "peer").map
        PeerEntry.phase = some (.draining 3 .gatt133))
    dialRun (init_new .disabled localEndpoint) (by decide +kernel)
  refine ⟨h, r, hrun, hl, hphase, hdrain, ?_⟩
  rintro ⟨⟨e', he', -, hfail⟩, -⟩
  have hp : e'.phase = .draining 3 .gatt133 := by
    change r.peerAfter (ioAt 2) (ioAt 3) dialFailure.failed dialFailure.disconnected "peer" =
      some e' at he'
    rw [he'] at hdrain
    exact Option.some.inj hdrain
  rw [hp] at hfail
  exact hfail

end IrohBle.Registry
