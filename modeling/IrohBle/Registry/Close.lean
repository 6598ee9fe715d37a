import IrohBle.Registry.Dedup
import IrohBle.Registry.FailedDial

/-! # Registry.Close: native links that are taken down

When a `Connected` entry on a link this side dialled leaves for `Draining` or `Dead`, the
link has to be closed: every handler that drains one pushes a `CloseChannel` for it, except
the dedup pass of `VerifiedEndpoint`.

* `closes_link_iff`: a command closes what it takes down exactly if it is no
  `VerifiedEndpoint` under which a dialled link loses.
* `dedup_leaks_link`: a run in which one does.
-/

namespace IrohBle

open Lib Reliable Registry

/-- `Draining` or `Dead`. -/
def PeerPhase.isDown : PeerPhase → Bool
  | .draining .. => true
  | .dead .. => true
  | _ => false

namespace Registry

open Turn

/-- `cmd` closes the channel of every dialled link it takes down. -/
def ClosesLinks (r : Registry) (io : Io) (cmd : PeerCommand) : Prop :=
  ∀ d e since channel txGen up e', r.peer d = some e → e.role = .central →
    e.phase = .connected since channel txGen up → (r.handle io cmd).reg.peer d = some e' →
    e'.phase.isDown = true →
    ∃ reason, .closeChannel d e.lifecycleId channel reason ∈ (r.handle io cmd).actions

/-- No dialled link loses against another one of the same endpoint. -/
def SparesDialled (r : Registry) (now : ℕ) (cmd : PeerCommand) : Prop :=
  ∀ endpoint token, cmd = .verifiedEndpoint endpoint token → ∀ d e, r.peer d = some e →
    liveFor (prefixFromEndpoint endpoint) e = true → e.role = .central →
    ¬ (start r).Loses now endpoint d

end Registry

/-- What one function takes down it closes, or it is one of the known exceptions. -/
theorem Moved.closes {cmd : PeerCommand} {w w' : Edit} (h : Moved cmd w w')
    (hcmd : ∀ endpoint token, cmd ≠ .verifiedEndpoint endpoint token) {since txGen : ℕ}
    {channel : ChannelHandle} {up : Bool}
    (hphase : w.entry.phase = .connected since channel txGen up) (hrole : w.entry.role = .central)
    (hdown : w'.entry.phase.isDown = true) :
    ∃ reason, .closeChannel w.entry.deviceId w.entry.lifecycleId channel reason ∈ w'.orders := by
  -- an entry that is down is in no session, and it was in one before
  have hup : ∀ {since channel txGen up},
      w'.entry.phase = .connected since channel txGen up → False := by
    intro since channel txGen up heq
    rw [heq] at hdown
    cases hdown
  have hlive : w.entry.phase.isLive = true := by
    rw [hphase]
    rfl
  have hidle : w.entry.phase.isLive = false → False := by
    intro hno
    rw [hlive] at hno
    cases hno
  cases h with
  | same _ _ phase _ => exact (hup (phase.trans hphase)).elim
  | idle _ _ before _ _ => exact (hidle before).elim
  | settle _ _ _ after _ _ => exact (hup after).elim
  | upgrade _ _ _ after _ _ => exact (hup after).elim
  | dial _ before _ _ => exact (hidle before).elim
  | redial _ before _ _ => exact (hidle before).elim
  | accept _ _ _ after _ => exact (hup after).elim
  | acceptUpgrade _ _ _ after _ => exact (hup after).elim
  | overtake _ _ _ after _ => exact (hup after).elim
  | restart _ after _ => exact (hup after).elim
  | ends native refresh close _ _ _ hclose leaks orders =>
      cases close with
      | some x =>
          rcases hclose x rfl with ⟨since', txGen', up', hx⟩
          rw [hphase] at hx
          obtain ⟨-, rfl, -, -⟩ := PeerPhase.connected.inj hx
          refine ⟨x.2, ?_⟩
          rw [orders]
          simp [cleanup]
      | none =>
          have hconnected : w.entry.phase.isConnected = true := by
            rw [hphase]
            rfl
          rcases leaks hconnected rfl with ⟨endpoint, token, hv⟩ | hperipheral | ⟨since', hoff⟩
          · exact absurd hv (hcmd endpoint token)
          · rw [hrole] at hperipheral
            cases hperipheral
          · rw [hoff] at hdown
            cases hdown
  | shutdown _ _ phase _ => exact (hup (phase.trans hphase)).elim

namespace Turn

variable {io : Io} {t t' : Turn} {endpoint : EndpointId} {token : Option ℕ}

/-- An order is among the actions exactly if it is among the orders. -/
theorem mem_orders_iff {a : PeerAction} (ha : a.isOrder = true) : a ∈ t.orders ↔ a ∈ t.actions := by
  unfold orders
  rw [List.mem_filter]
  exact and_iff_left ha

/-- `VerifiedEndpoint` closes no channel. -/
theorem noClose_step (h : Step io (.verifiedEndpoint endpoint token) t t')
    (hno : ∀ d l channel reason, .closeChannel d l channel reason ∉ t.orders) :
    ∀ d l channel reason, .closeChannel d l channel reason ∉ t'.orders := by
  intro d l channel reason
  -- an order that is appended closes nothing unless it is a close
  have hadd : ∀ {a w}, Edit.orders w = t.orders ++ [a] → a ≠ .closeChannel d l channel reason →
      .closeChannel d l channel reason ∉ w.orders := by
    intro a w hw ha hmem
    rw [hw] at hmem
    rcases List.mem_append.mp hmem with hold | hnew
    · exact hno d l channel reason hold
    · exact ha (List.mem_singleton.mp hnew).symm
  cases h with
  | @edit d' e f he hf =>
      change _ ∉ (f (t.focus e)).orders
      cases hf with
      | stampExact => exact hno d l channel reason
      | stampVerified _ => exact hno d l channel reason
      | cancelDial _ => exact hadd (Edit.drainToDraining_orders _ _ _ _) (by simp)
      | drainLoser _ => exact hadd (Edit.drainToDraining_orders _ _ _ _) (by simp)
      | requestUpgrade _ _ _ => exact hadd (Edit.requestUpgrade_orders _) (by simp)
  | insert _ _ => exact hno d l channel reason
  | fresh _ hf => cases hf
  | verify p endpoint => exact hno d l channel reason
  | prune => exact hno d l channel reason
  | gcDead h => cases h
  | adapter state => exact hno d l channel reason
  | restore b =>
      rw [mem_orders_iff rfl]
      intro hmem
      refine hno d l channel reason ((mem_orders_iff rfl).mpr ?_)
      simpa [push] using hmem

/-- `VerifiedEndpoint` closes no channel in any of its steps. -/
theorem noClose_steps (h : Steps io (.verifiedEndpoint endpoint token) t t')
    (hno : ∀ d l channel reason, .closeChannel d l channel reason ∉ t.orders) :
    ∀ d l channel reason, .closeChannel d l channel reason ∉ t'.orders := by
  induction h with
  | refl => exact hno
  | tail _ hs ih => exact noClose_step hs ih

section Other

variable {d : DeviceId} {e : PeerEntry}

/-- An edit of the entries that satisfy `q` leaves another one alone. -/
theorem peer_editWhere_other {q : PeerEntry → Bool} {f : Edit → Edit} (he : t.reg.peer d = some e)
    (hq : q e = false) : (t.editAll (t.devicesWhere q) f).reg.peer d = some e := by
  rw [peer_editAll_ne]
  · exact he
  · rw [mem_devicesWhere_iff he, hq]
    exact Bool.false_ne_true

/-- What comes after the stamps leaves a `Connected` entry of another prefix alone. -/
theorem stamped_other (io : Io) (he : t.reg.peer d = some e)
    (hkey : e.keyPrefix ≠ some (prefixFromEndpoint endpoint))
    (hconnected : e.phase.isConnected = true) :
    (((t.cancelPendingDials io (prefixFromEndpoint endpoint)).drainLosers io
      endpoint).requestUpgrades endpoint).reg.peer d = some e := by
  -- none of the later passes asks for an entry of another prefix
  have hother : decide (e.keyPrefix = some (prefixFromEndpoint endpoint)) = false :=
    decide_eq_false hkey
  have hlive : liveFor (prefixFromEndpoint endpoint) e = false := by
    simp [liveFor, hkey]
  have hcancelled : (t.cancelPendingDials io (prefixFromEndpoint endpoint)).reg.peer d =
      some e := by
    refine peer_editWhere_other he ?_
    unfold isPendingDialFor
    cases hp : e.phase with
    | pendingDial since deadline q =>
        rw [hp] at hconnected
        cases hconnected
    | _ => rfl
  generalize t.cancelPendingDials io (prefixFromEndpoint endpoint) = t₁ at hcancelled ⊢
  have hdrained : (t₁.drainLosers io endpoint).reg.peer d = some e := by
    unfold Turn.drainLosers
    dsimp only
    split
    · rw [peer_editAll_ne]
      · exact hcancelled
      · intro hmem
        have hcand := (mem_devicesWhere_iff hcancelled).mp (List.mem_filter.mp hmem).1
        rw [hlive] at hcand
        cases hcand
    · exact hcancelled
  generalize t₁.drainLosers io endpoint = t₂ at hdrained ⊢
  unfold Turn.requestUpgrades
  dsimp only
  split
  · refine peer_editWhere_other hdrained ?_
    rw [hother]
    rfl
  · exact hdrained

/-- `VerifiedEndpoint` leaves a `Connected` entry of another prefix alone. -/
theorem handleVerifiedEndpoint_other (he : t.reg.peer d = some e)
    (hkey : e.keyPrefix ≠ some (prefixFromEndpoint endpoint))
    (hconnected : e.phase.isConnected = true) :
    (t.handleVerifiedEndpoint io endpoint none).reg.peer d = some e := by
  have hstamped : ((t.verify (prefixFromEndpoint endpoint) endpoint).stampVerified io endpoint
      none).reg.peer d = some e :=
    peer_editWhere_other (t := t.verify (prefixFromEndpoint endpoint) endpoint) he
      (decide_eq_false hkey)
  exact stamped_other io hstamped hkey hconnected

end Other

end Turn

namespace Registry

open Turn

/-- In every reachable registry, a command closes every dialled link it takes down exactly
if no dialled link loses under it. -/
theorem closes_link_iff {h : List (Registry × Label)} {r : Registry} (hrun : system.Run h r)
    (io : Io) (cmd : PeerCommand) : r.ClosesLinks io cmd ↔ r.SparesDialled io.now cmd := by
  have hset := settled_of_run hrun
  by_cases hv : ∃ endpoint token, cmd = .verifiedEndpoint endpoint token
  · rcases hv with ⟨endpoint, token, rfl⟩
    have hhandle : r.handle io (.verifiedEndpoint endpoint token) =
        (start r).handleVerifiedEndpoint io endpoint none := rfl
    -- neither writing the route nor stamping the entries touches what the choice reads
    have hroute : SameView (prefixFromEndpoint endpoint) (start r)
        ((start r).verify (prefixFromEndpoint endpoint) endpoint) :=
      ⟨rfl, fun _ e he hlive => ⟨e, he, hlive, rfl, rfl⟩, rfl⟩
    have hview : SameView (prefixFromEndpoint endpoint) (start r)
        (((start r).verify (prefixFromEndpoint endpoint) endpoint).stampVerified io endpoint none) :=
      hroute.trans (sameView_stampAll endpoint _)
    -- the fate of a live entry, read off the registry before the command
    have hfate : ∀ d e, r.peer d = some e → liveFor (prefixFromEndpoint endpoint) e = true →
        ∃ e', (r.handle io (.verifiedEndpoint endpoint token)).reg.peer d = some e' ∧
          ((start r).Loses io.now endpoint d → e'.phase = .draining io.now .dedupLoser) ∧
          (¬ (start r).Loses io.now endpoint d → e'.phase.isConnected = true) := by
      intro d e he hlive
      rcases hview.entry d e he hlive with ⟨e₀, he₀, hlive₀, -, -⟩
      have hentry := handleVerifiedEndpoint_entry (t := start r) he₀ hlive₀
      rw [hview.loses] at hentry
      exact hentry
    constructor
    · rintro hcloses endpoint' token' heq d e he hlive hrole hloses
      obtain ⟨rfl, rfl⟩ := PeerCommand.verifiedEndpoint.inj heq
      rcases hfate d e he hlive with ⟨e', he', hdrained, -⟩
      have hphase := hdrained hloses
      cases hp : e.phase with
      | connected since channel txGen up =>
          rcases hcloses d e since channel txGen up e' he hrole hp he' (by rw [hphase]; rfl) with
            ⟨reason, hmem⟩
          have hno := noClose_steps (handle_steps io (.verifiedEndpoint endpoint token) r)
            (fun d l channel reason hmem => nomatch hmem) d e.lifecycleId channel reason
          exact hno ((mem_orders_iff rfl).mpr hmem)
      | _ =>
          simp only [liveFor, Bool.and_eq_true] at hlive
          rw [hp] at hlive
          cases hlive.2
    · intro hspares d e since channel txGen up e' he hrole hp he' hdown
      exfalso
      have hconnected : e.phase.isConnected = true := by
        rw [hp]
        rfl
      by_cases hkey : e.keyPrefix = some (prefixFromEndpoint endpoint)
      · have hlive : liveFor (prefixFromEndpoint endpoint) e = true := by
          simp [liveFor, hkey, hconnected]
        rcases hfate d e he hlive with ⟨e₁, he₁, -, hkept⟩
        obtain rfl : e₁ = e' := Option.some.inj (he₁.symm.trans he')
        have hstill := hkept (hspares endpoint token rfl d e he hlive hrole)
        cases hp₁ : e₁.phase with
        | connected since' channel' txGen' up' =>
            rw [hp₁] at hdown
            cases hdown
        | _ =>
            rw [hp₁] at hstill
            cases hstill
      · rw [hhandle, handleVerifiedEndpoint_other (t := start r) he hkey hconnected] at he'
        obtain rfl := Option.some.inj he'
        rw [hp] at hdown
        cases hdown
  · -- any other command runs one function on the entry, and its move closes the link
    have hne : ∀ endpoint token, cmd ≠ .verifiedEndpoint endpoint token :=
      fun endpoint token heq => hv ⟨endpoint, token, heq⟩
    constructor
    · intro _ endpoint token heq
      exact absurd heq (hne endpoint token)
    · intro _ d e since channel txGen up e' he hrole hp he' hdown
      have honce : Once io cmd d e (r.handle io cmd) := handle_entry hset hne he
      rcases honce e' he' with rfl | ⟨f, w, rfl, hf, rfl, hsub⟩
      · rw [hp] at hdown
        cases hdown
      · have hmoved : Moved cmd w (f w) := hf.moved (by rw [hp]; rfl)
        rcases hmoved.closes hne hp hrole hdown with ⟨reason, hmem⟩
        refine ⟨reason, (mem_orders_iff rfl).mp (hsub ?_)⟩
        rw [keyed_of_run hrun d w.entry he] at hmem
        exact hmem

/-- A device is dialled, and the same peer subscribes under another device id. -/
def twoLinksRun : List Label :=
  [.command (ioAt 0) (.advertised (prefixFromEndpoint peerEndpoint) "dialled" none),
    .command (ioAt 1) (.sendDatagram "dialled" none 0 [1] 0),
    .command (ioAt 2) (.connectSucceeded "dialled" 2 ⟨5, .gatt⟩),
    .command (ioAt 3) (.peripheralClientSubscribed "dialling" 0
      (some (prefixFromEndpoint peerEndpoint)))]

/-- Two links to a device, and the dialled one's pipe ends: that closes it. -/
theorem closes_link_iff_twoLinksRun :
    ∃ h r, system.Run h r ∧ h.map Prod.snd = twoLinksRun ∧
      r.ClosesLinks (ioAt 4) (.stalled "dialled" .linkDead) := by
  obtain ⟨h, r, hrun, hl, -⟩ := System.Run.of_exec (P := fun _ : Registry => True)
    twoLinksRun (init_new .disabled localEndpoint) (by decide +kernel)
  refine ⟨h, r, hrun, hl, (closes_link_iff hrun (ioAt 4) _).mpr ?_⟩
  intro endpoint token heq
  cases heq

/-- The dialled link loses against the other one, and nothing closes it. -/
theorem dedup_leaks_link :
    ∃ h r, system.Run h r ∧ h.map Prod.snd = twoLinksRun ∧
      ¬ r.ClosesLinks (ioAt 4) (.verifiedEndpoint peerEndpoint none) := by
  obtain ⟨h, r, hrun, hl, hbefore, hafter, hno⟩ := System.Run.of_exec
    (P := fun r : Registry =>
      (r.peer "dialled").map (fun e => (e.role, e.phase)) =
        some (.central, .connected 2 ⟨5, .gatt⟩ 1 false) ∧
      ((r.handle (ioAt 4) (.verifiedEndpoint peerEndpoint none)).reg.peer "dialled").map
        PeerEntry.phase = some (.draining 4 .dedupLoser) ∧
      (r.handle (ioAt 4) (.verifiedEndpoint peerEndpoint none)).actions =
        [.retireLifecycle "dialled" 2, .ackSend 0 0 (.err .brokenPipe),
          .putPeerStore (prefixFromEndpoint peerEndpoint) ⟨"dialled", 4⟩])
    twoLinksRun (init_new .disabled localEndpoint) (by decide +kernel)
  refine ⟨h, r, hrun, hl, ?_⟩
  intro hcloses
  obtain ⟨e, he, hf⟩ := Option.map_eq_some_iff.mp hbefore
  obtain ⟨e', he', hphase⟩ := Option.map_eq_some_iff.mp hafter
  simp only [Prod.mk.injEq] at hf
  rcases hcloses "dialled" e _ _ _ _ e' he hf.1 hf.2 he' (by rw [hphase]; rfl) with ⟨reason, hmem⟩
  rw [hno] at hmem
  simp at hmem

end Registry

end IrohBle
