import IrohBle.Registry.Winner
import IrohBle.Transport.Stalled

/-! # Transport.Survivor: one survivor, two rules

When a handshake completes, `promote` decides over the pipes bound to the endpoint which of
them carries it from now on. The registry then hears of the evicted devices and of the
verified endpoint, and decides once more, over every `Connected` entry with the endpoint's
prefix and without regard to the pipe that was promoted.

* `survivor_iff`: the registry keeps the promoted device exactly if every other live entry
  of the prefix gives way to it (`Yields`).
* `promoted_device_drained`: a run in which one does not.
-/

namespace IrohBle

open Lib Reliable Registry

namespace Transport

/-- The registry handles the `Stalled` of each evicted device. -/
def stallEvicted (xs : List (Io × DeviceId)) (r : Registry) : Registry :=
  xs.foldl (fun r x => (r.handle x.1 (.stalled x.2 .linkDead)).reg) r

/-- `Registry::run` handles the `VerifiedEndpoint` of a pipe. -/
def runVerified (io : Io) (endpoint : EndpointId) (id : StableConnId) (routing : Routing)
    (r : Registry) : Turn :=
  match resolve (.verifiedEndpoint endpoint (some id.raw)) routing with
  | (_, exact, replaced) => r.runCommand io exact replaced (.verifiedEndpoint endpoint (some id.raw))

/-- The device that `run` forgets before: the one the prefix pointed to. -/
def forgotten (endpoint : EndpointId) (id : StableConnId) (routing : Routing) : Option DeviceId :=
  (resolve (.verifiedEndpoint endpoint (some id.raw)) routing).2.2

/-- In `s` the table accepts pipe `id` of device `d` for `endpoint`, and `r` is the registry
after the `Stalled`s of the evicted devices. In `routing`, the table when `VerifiedEndpoint`
is handled, `id` is still the endpoint's routable pipe. -/
structure Promoted (s : Transport) (endpoint : EndpointId) (id : StableConnId) (d : DeviceId)
    (routing : Routing) (r : Registry) : Prop where
  accepted : ∃ now routing' evicted xs,
    s.hook.routing.promote now id s.hook.self endpoint = (routing', .accepted evicted) ∧
      xs.map Prod.snd = evicted.filterMap (fun i => routing'.deviceForPipe i) ∧
      r = stallEvicted xs s.node.actor.reg
  routable : routing.routablePipeFor endpoint = some id
  device : routing.deviceForPipe id = some d

section Verified

variable {io : Io} {endpoint : EndpointId} {id : StableConnId} {d : DeviceId} {routing : Routing}
  {r : Registry}

/-- What `run` looks up. -/
theorem resolve_verified (endpoint : EndpointId) (hdev : routing.deviceForPipe id = some d) :
    ∃ routing' replaced, resolve (.verifiedEndpoint endpoint (some id.raw)) routing =
      (routing', some d, replaced) ∧ replaced ≠ some d := by
  unfold resolve
  dsimp only
  rw [show routing.deviceForPipe ⟨id.raw⟩ = some d from hdev]
  dsimp only
  split
  · rename_i routing' previous hnote
    refine ⟨routing', some previous, rfl, ?_⟩
    rintro heq
    obtain rfl := Option.some.inj heq
    -- a hint is replaced by another device only
    unfold Routing.noteScanHint at hnote
    dsimp only at hnote
    split at hnote
    · split at hnote
      · cases hnote
      · split at hnote
        · cases hnote
        · split at hnote
          · cases hnote
          · rename_i hne
            simp only [Prod.mk.injEq, ScanHintUpdate.replaced.injEq] at hnote
            exact hne hnote.2
    · split at hnote
      · cases hnote
      · split at hnote
        · cases hnote
        · rename_i hne
          simp only [Prod.mk.injEq, ScanHintUpdate.replaced.injEq] at hnote
          exact hne hnote.2
  · rename_i routing' update _ _
    exact ⟨routing', none, rfl, by simp⟩

/-- The registry after the device that the prefix pointed to has been forgotten. -/
def afterForget (io : Io) (replaced : Option DeviceId) (r : Registry) : Turn :=
  match replaced with
  | some previous => r.handle io (.forget previous)
  | none => Turn.start r

/-- Forgetting a device touches no other entry. -/
theorem peer_afterForget {replaced : Option DeviceId} {d' : DeviceId} (hne : replaced ≠ some d') :
    (afterForget io replaced r).reg.peer d' = r.peer d' := by
  cases replaced with
  | none => rfl
  | some previous =>
      have hd : d' ≠ previous := fun heq => hne (by rw [heq])
      change (Turn.handleForget io previous (Turn.start r)).reg.peer d' = _
      unfold Turn.handleForget
      split
      · rfl
      · exact Turn.peer_edit_ne (t := Turn.start r) hd

/-- The forgotten device is not live any more. -/
theorem not_live_afterForget {p : KeyPrefix} {previous : DeviceId} {e' : PeerEntry}
    (he' : (afterForget io (some previous) r).reg.peer previous = some e') :
    liveFor p e' = false := by
  change (Turn.handleForget io previous (Turn.start r)).reg.peer previous = some e' at he'
  unfold Turn.handleForget at he'
  split at he'
  · rename_i hnone
    rw [hnone] at he'
    cases he'
  · rename_i e he
    have hpeer : ((Turn.start r).edit previous (Edit.forget io.now)).reg.peer previous = some e' :=
      he'
    rw [Turn.edit_of_some he, Turn.peer_store he, if_pos rfl] at hpeer
    obtain rfl := Option.some.inj hpeer
    simp [liveFor, Edit.forget, PeerPhase.isConnected]

theorem keys_afterForget (io : Io) (replaced : Option DeviceId) (r : Registry) :
    (afterForget io replaced r).reg.peers.keys = r.peers.keys := by
  cases replaced with
  | none => rfl
  | some previous =>
      change (Turn.handleForget io previous (Turn.start r)).reg.peers.keys = _
      unfold Turn.handleForget
      split
      · rfl
      · exact Turn.keys_edit (Turn.start r) previous _

/-- Forgetting a device leaves the own endpoint alone. -/
theorem myEndpoint_afterForget (io : Io) (replaced : Option DeviceId) (r : Registry) :
    (afterForget io replaced r).reg.myEndpoint = r.myEndpoint := by
  cases replaced with
  | none => rfl
  | some previous =>
      change (Turn.handleForget io previous (Turn.start r)).reg.myEndpoint = _
      unfold Turn.handleForget
      split
      · rfl
      · change ((Turn.start r).edit previous _).reg.myEndpoint = _
        unfold Turn.edit
        split <;> rfl

/-- The two commands of a completed handshake, one after the other. -/
theorem runVerified_eq {routing' : Routing} {replaced : Option DeviceId}
    (hresolve : resolve (.verifiedEndpoint endpoint (some id.raw)) routing =
      (routing', some d, replaced)) :
    runVerified io endpoint id routing r =
      (afterForget io replaced r).handleVerifiedEndpoint io endpoint (some d) := by
  unfold runVerified
  rw [hresolve]
  cases replaced with
  | none => rfl
  | some previous => rfl

end Verified

open Turn in
/-- In every state of table and registry, the reachable ones among them: when a pipe has been
promoted and its `VerifiedEndpoint` is handled while its device is `Connected`, the device is
still `Connected` afterwards exactly if every other live entry of the endpoint's prefix, apart
from the one that is forgotten, gives way to it. -/
theorem survivor_iff {s : Transport} {endpoint : EndpointId} {id : StableConnId} {d : DeviceId}
    {routing : Routing} {r : Registry} {e : PeerEntry} (hp : Promoted s endpoint id d routing r)
    (he : r.peer d = some e) (hc : e.phase.isConnected = true) (io : Io) :
    (∃ e', (runVerified io endpoint id routing r).reg.peer d = some e' ∧
        e'.phase.isConnected = true) ↔
      ∀ d' e', r.peer d' = some e' → d' ≠ d → forgotten endpoint id routing ≠ some d' →
        liveFor (prefixFromEndpoint endpoint) e' = true → r.Yields endpoint d d' e e' := by
  rcases resolve_verified endpoint hp.device with ⟨routing', replaced, hresolve, hother⟩
  have hforgotten : forgotten endpoint id routing = replaced := by
    rw [forgotten, hresolve]
  rw [runVerified_eq hresolve, hforgotten]
  have hpeer : ∀ d', replaced ≠ some d' → (afterForget io replaced r).reg.peer d' = r.peer d' :=
    fun d' hne => peer_afterForget hne
  have hgone : ∀ d' e', replaced = some d' → (afterForget io replaced r).reg.peer d' = some e' →
      liveFor (prefixFromEndpoint endpoint) e' = false := by
    rintro d' e' rfl he'
    exact not_live_afterForget he'
  have hkeys := keys_afterForget io replaced r
  have hme := myEndpoint_afterForget io replaced r
  generalize afterForget io replaced r = t at hpeer hgone hkeys hme ⊢
  -- the entry of the pipe is stamped first, and is live for the prefix from then on
  have het : (t.verify (prefixFromEndpoint endpoint) endpoint).reg.peer d = some e :=
    (hpeer d hother).trans he
  obtain ⟨t₁, ht₁⟩ : ∃ t₁, (t.verify (prefixFromEndpoint endpoint) endpoint).edit d
      (Edit.stampExact io.now endpoint) = t₁ := ⟨_, rfl⟩
  obtain ⟨e₁, he₁, hrole, hphase, hlive₁⟩ : ∃ e₁, t₁.reg.peer d = some e₁ ∧ e₁.role = e.role ∧
      e₁.phase = e.phase ∧ liveFor (prefixFromEndpoint endpoint) e₁ = true := by
    rw [← ht₁, edit_of_some het]
    refine ⟨_, (peer_store het _ d).trans (if_pos rfl), rfl, rfl, ?_⟩
    simp [liveFor, Edit.stampExact, Edit.stampVerified, focus, hc]
  have hrest : ∀ d', d' ≠ d → t₁.reg.peer d' = t.reg.peer d' := by
    intro d' hne
    rw [← ht₁, peer_edit_ne hne]
    rfl
  have hkeys₁ : t₁.reg.peers.keys = r.peers.keys := by
    rw [← ht₁, keys_edit]
    exact hkeys
  have hme₁ : t₁.reg.myEndpoint = r.myEndpoint := by
    rw [← ht₁, edit_of_some het]
    exact hme
  have hstamp : (t.verify (prefixFromEndpoint endpoint) endpoint).stampVerified io endpoint
      (some d) = t₁.editAll (t₁.devicesWhere fun e =>
        decide (e.keyPrefix = some (prefixFromEndpoint endpoint)))
        (Edit.stampVerified io.now endpoint) := by
    rw [← ht₁]
    rfl
  have hview : SameView (prefixFromEndpoint endpoint) t₁
      ((t.verify (prefixFromEndpoint endpoint) endpoint).stampVerified io endpoint (some d)) := by
    rw [hstamp]
    exact sameView_stampAll endpoint _
  rcases hview.entry d e₁ he₁ hlive₁ with ⟨e₀, he₀, hlive₀, -, -⟩
  rcases handleVerifiedEndpoint_entry (t := t) he₀ hlive₀ with ⟨e', he', hdrained, hkept⟩
  rw [hview.loses] at hdrained hkept
  have hfate : (∃ e', (t.handleVerifiedEndpoint io endpoint (some d)).reg.peer d = some e' ∧
      e'.phase.isConnected = true) ↔ ¬ t₁.Loses io.now endpoint d := by
    constructor
    · rintro ⟨e'', he'', hconn⟩ hloses
      obtain rfl : e' = e'' := Option.some.inj (he'.symm.trans he'')
      rw [hdrained hloses] at hconn
      cases hconn
    · intro hno
      exact ⟨e', he', hkept hno⟩
  rw [hfate, not_loses_iff he₁ hlive₁]
  -- the stamp changes neither role nor phase
  have hyields : ∀ d' e', r.Yields endpoint d d' e₁ e' ↔ r.Yields endpoint d d' e e' := by
    intro d' e'
    unfold Registry.Yields
    rw [hrole, hphase]
  constructor
  · intro hall d' e' he' hne hkeep hlive'
    have he'₁ : t₁.reg.peer d' = some e' := (hrest d' hne).trans ((hpeer d' hkeep).trans he')
    exact (hyields d' e').mp
      ((givesWay_iff he₁ hlive₁ he'₁ hlive' hkeys₁ hme₁).mp (hall d' e' he'₁ hne hlive'))
  · intro hall d' e' he' hne hlive'
    have het' : t.reg.peer d' = some e' := (hrest d' hne).symm.trans he'
    have hkeep : replaced ≠ some d' := by
      intro heq
      rw [hgone d' e' heq het'] at hlive'
      cases hlive'
    have her : r.peer d' = some e' := (hpeer d' hkeep).symm.trans het'
    exact (givesWay_iff he₁ hlive₁ he' hlive' hkeys₁ hme₁).mpr
      ((hyields d' e').mpr (hall d' e' her hne hkeep hlive'))

/-- A peer is seen as `dialling` and subscribes under that id; the pump reads its prefix and
waits for the inbox. Meanwhile the peer is seen under a new id: the hint moves on, `dialling` is
forgotten, and `dialled` is dialled. Then the subscription is handled. -/
def twoSidesRun (peer : EndpointId) : List TransportLabel :=
  [.hook (.noteScanHint (prefixFromEndpoint peer) "dialling"),
    .external (.advertised (prefixFromEndpoint peer) "dialling" none), .pop (ioAt 0), .execute 0,
    .hook (.noteScanHint (prefixFromEndpoint peer) "dialled"),
    .external (.forget "dialling"), .pop (ioAt 0), .execute 0, .execute 0,
    .external (.advertised (prefixFromEndpoint peer) "dialled" none), .pop (ioAt 0), .execute 0,
    .external (.sendDatagram "dialled" none 0 [1] 0), .pop (ioAt 1), .execute 1, .execute 1,
    .execute 1, .external (.connectSucceeded "dialled" 4 ⟨5, .gatt⟩), .pop (ioAt 2), .execute 2,
    .execute 2, .sent, .execute 2, .pop (ioAt 2), .execute 2,
    .external (.peripheralClientSubscribed "dialling" 0 (some (prefixFromEndpoint peer))),
    .pop (ioAt 3), .execute 3, .execute 3, .sent, .execute 3, .pop (ioAt 3), .execute 3]

/-- The table after the handshake over the dialled link. -/
def promotedTable (s : Transport) (peer : EndpointId) : Routing :=
  (s.hook.routing.promote 4 ⟨1⟩ s.hook.self peer).1

/-- An accepted promotion of the pipe of `dialled`. -/
theorem promoted_of_accepted {s : Transport} {peer : EndpointId}
    (haccept : (s.hook.routing.promote 4 ⟨1⟩ s.hook.self peer).2 = .accepted [])
    (hroutable : (s.promotedTable peer).routablePipeFor peer = some ⟨1⟩)
    (hdev : (s.promotedTable peer).deviceForPipe ⟨1⟩ = some "dialled") :
    Promoted s peer ⟨1⟩ "dialled" (s.promotedTable peer) s.node.actor.reg := by
  refine ⟨⟨4, s.promotedTable peer, [], [], ?_, rfl, rfl⟩, hroutable, hdev⟩
  rw [← haccept]
  rfl

/-- This side is the higher one, so the link that it dialled is kept. -/
theorem survivor_iff_twoSidesRun :
    ∃ h s e', system.Run h s ∧ h.map Prod.snd = twoSidesRun localEndpoint ∧
      Promoted s localEndpoint ⟨1⟩ "dialled" (s.promotedTable localEndpoint)
        s.node.actor.reg ∧
      (runVerified (ioAt 4) localEndpoint ⟨1⟩ (s.promotedTable localEndpoint)
        s.node.actor.reg).reg.peer "dialled" = some e' ∧ e'.phase.isConnected = true := by
  obtain ⟨h, s, hrun, hl, haccept, hroutable, hdev, hconn, hothers⟩ := System.Run.of_exec
    (P := fun s : Transport =>
      (s.hook.routing.promote 4 ⟨1⟩ s.hook.self localEndpoint).2 = .accepted [] ∧
      (s.promotedTable localEndpoint).routablePipeFor localEndpoint = some ⟨1⟩ ∧
      (s.promotedTable localEndpoint).deviceForPipe ⟨1⟩ = some "dialled" ∧
      (s.node.actor.reg.peer "dialled").map (fun e => (e.phase.isConnected,
        shouldWin e.role s.node.actor.reg.myEndpoint localEndpoint)) = some (true, true) ∧
      ∀ x ∈ s.node.actor.reg.peers.entries, x.1 ≠ "dialled" →
        shouldWin x.2.role s.node.actor.reg.myEndpoint localEndpoint = false)
    (twoSidesRun localEndpoint) (init_start .disabled peerEndpoint) (by decide +kernel)
  have hp := promoted_of_accepted haccept hroutable hdev
  obtain ⟨e, he, hf⟩ := Option.map_eq_some_iff.mp hconn
  simp only [Prod.mk.injEq] at hf
  -- the side that keeps what it has dialled: every other entry of the prefix was accepted, and
  -- loses
  have hyields : ∀ d' e', s.node.actor.reg.peer d' = some e' → d' ≠ "dialled" →
      s.node.actor.reg.Yields localEndpoint "dialled" d' e e' := by
    intro d' e' he' hne
    unfold Registry.Yields
    rw [if_pos hf.2]
    intro hwin
    rw [hothers ⟨d', e'⟩ ((Map.mem_entries_iff _ _ _).mpr he') hne] at hwin
    cases hwin
  obtain ⟨e', he', hc'⟩ := (survivor_iff hp he hf.1 (ioAt 4)).mpr
    (fun d' e' he' hne _ _ => hyields d' e' he' hne)
  exact ⟨h, s, e', hrun, hl, hp, he', hc'⟩

/-- This side is the lower one: the table accepts the dialled link, whose peer has only just
authenticated over it, and the registry drains it for the entry that merely shares the
prefix. -/
theorem promoted_device_drained :
    ∃ h s e, system.Run h s ∧ h.map Prod.snd = twoSidesRun peerEndpoint ∧
      Promoted s peerEndpoint ⟨1⟩ "dialled" (s.promotedTable peerEndpoint)
        s.node.actor.reg ∧
      s.node.actor.reg.peer "dialled" = some e ∧ e.phase.isConnected = true ∧
      ¬ ∃ e', (runVerified (ioAt 4) peerEndpoint ⟨1⟩ (s.promotedTable peerEndpoint)
        s.node.actor.reg).reg.peer "dialled" = some e' ∧ e'.phase.isConnected = true := by
  obtain ⟨h, s, hrun, hl, haccept, hroutable, hdev, hconn, hafter⟩ := System.Run.of_exec
    (P := fun s : Transport =>
      (s.hook.routing.promote 4 ⟨1⟩ s.hook.self peerEndpoint).2 = .accepted [] ∧
      (s.promotedTable peerEndpoint).routablePipeFor peerEndpoint = some ⟨1⟩ ∧
      (s.promotedTable peerEndpoint).deviceForPipe ⟨1⟩ = some "dialled" ∧
      (s.node.actor.reg.peer "dialled").map (fun e => e.phase.isConnected) = some true ∧
      ((runVerified (ioAt 4) peerEndpoint ⟨1⟩ (s.promotedTable peerEndpoint)
        s.node.actor.reg).reg.peer "dialled").map PeerEntry.phase =
          some (.draining 4 .dedupLoser))
    (twoSidesRun peerEndpoint) (init_start .disabled localEndpoint) (by decide +kernel)
  obtain ⟨e, he, hc⟩ := Option.map_eq_some_iff.mp hconn
  refine ⟨h, s, e, hrun, hl, promoted_of_accepted haccept hroutable hdev, he, hc, ?_⟩
  rintro ⟨e', he', hc'⟩
  rw [he', Option.map_some] at hafter
  rw [Option.some.inj hafter] at hc'
  cases hc'

end Transport

end IrohBle
