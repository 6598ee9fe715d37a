import IrohBle.Registry.FailedDial
import IrohBle.Registry.Phases
import Mathlib.Data.List.Chain

/-! # Registry.Retry: how often and how soon a peer is dialled again

A dial that fails is tried again after a backoff that doubles, and given up after
`MAX_CONNECT_ATTEMPTS`. The number of the attempt and the time of the next one are in the phase,
and every way out of the phase forgets them.

* `Dialled`: what a command does to them.
* `dials`: the attempts that a run starts for a device, in order.
* `Waiting`: the attempt before failed, and the entry has waited since.
* `retry_discipline`: the attempts of every run.
-/

namespace IrohBle

open Lib Reliable Registry

/-- The attempts that are started for `d`. -/
def dialsOf (d : DeviceId) (actions : List PeerAction) : List ℕ :=
  actions.filterMap fun
    | .startConnect d' attempt _ => if d' = d then some attempt else none
    | _ => none

theorem dialsOf_append (d : DeviceId) (as bs : List PeerAction) :
    dialsOf d (as ++ bs) = dialsOf d as ++ dialsOf d bs := List.filterMap_append

/-- Only orders start dials. -/
theorem dialsOf_orders (d : DeviceId) (as : List PeerAction) :
    dialsOf d (as.filter PeerAction.isOrder) = dialsOf d as := by
  induction as with
  | nil => rfl
  | cons a as ih =>
      unfold dialsOf at ih ⊢
      cases a with
      | startConnect d' attempt l =>
          rw [List.filter_cons_of_pos rfl, List.filterMap_cons, List.filterMap_cons, ih]
      | _ => simp [PeerAction.isOrder, List.filter_cons, ih]

/-! ## What a command does -/

/-- A function either starts no dial, or is seen to start one. -/
theorem Moved.dials_devices {cmd : PeerCommand} {w w' : Edit} (h : Moved cmd w w') (d : DeviceId) :
    (dialsOf d w'.actions = dialsOf d w.actions ∧ ∀ attempt started path,
      w'.entry.phase = .connecting attempt started path →
        w.entry.deviceId = d → w.entry.phase = .connecting attempt started path) ∨
    w.entry.deviceId = d ∧ ∃ attempt started, w'.entry.phase = .connecting attempt started .gatt ∧
      w.entry.phase.isLive = false ∧ dialsOf d w'.actions = dialsOf d w.actions ++ [attempt] := by
  rw [← dialsOf_orders d w'.actions, ← dialsOf_orders d w.actions]
  change (dialsOf d w'.orders = dialsOf d w.orders ∧ _) ∨ _ ∧ ∃ attempt started, _ ∧ _ ∧
    dialsOf d w'.orders = dialsOf d w.orders ++ [attempt]
  have hquiet : ∀ {l}, w'.orders = w.orders ++ l → dialsOf d l = [] →
      dialsOf d w'.orders = dialsOf d w.orders := by
    intro l horders hnil
    rw [horders, dialsOf_append, hnil, List.append_nil]
  have hlive : ∀ {attempt started path}, w'.entry.phase.isLive = false →
      w'.entry.phase ≠ .connecting attempt started path := by
    intro attempt started path hlive hphase
    rw [hphase] at hlive
    cases hlive
  -- a move that makes the entry dial is seen among the orders, and no other move is
  cases h with
  | same _ _ hphase horders =>
      refine .inl ⟨by rw [horders], ?_⟩
      intro attempt started path hp _
      rw [← hphase]
      exact hp
  | idle _ _ _ hafter horders =>
      exact .inl ⟨by rw [horders], fun _ _ _ hp _ => absurd hp (hlive hafter)⟩
  | settle _ _ _ hafter _ horders =>
      refine .inl ⟨by rw [horders], ?_⟩
      intro attempt started path hp
      rw [hafter] at hp
      cases hp
  | upgrade _ _ _ hafter _ horders =>
      refine .inl ⟨hquiet horders rfl, ?_⟩
      intro attempt started path hp
      rw [hafter] at hp
      cases hp
  | @dial attempt now _ hbefore hafter horders =>
      by_cases hd : w.entry.deviceId = d
      · refine .inr ⟨hd, attempt, now, hafter, hbefore, ?_⟩
        rw [horders, dialsOf_append]
        simp [dialsOf, hd]
      · refine .inl ⟨hquiet horders ?_, fun _ _ _ _ hd' => absurd hd' hd⟩
        simp [dialsOf, hd]
  | @redial attempt now _ hbefore hafter horders =>
      by_cases hd : w.entry.deviceId = d
      · refine .inr ⟨hd, attempt, now, hafter, hbefore, ?_⟩
        rw [horders, dialsOf_append]
        simp [dialsOf, hd]
      · refine .inl ⟨hquiet horders ?_, fun _ _ _ _ hd' => absurd hd' hd⟩
        simp [dialsOf, hd]
  | accept _ _ _ hafter horders =>
      refine .inl ⟨hquiet horders rfl, ?_⟩
      intro attempt started path hp
      rw [hafter] at hp
      cases hp
  | acceptUpgrade _ _ _ hafter horders =>
      refine .inl ⟨hquiet horders rfl, ?_⟩
      intro attempt started path hp
      rw [hafter] at hp
      cases hp
  | overtake _ _ _ hafter horders =>
      refine .inl ⟨hquiet horders rfl, ?_⟩
      intro attempt started path hp
      rw [hafter] at hp
      cases hp
  | restart _ hafter horders =>
      refine .inl ⟨hquiet horders rfl, ?_⟩
      intro attempt started path hp
      rw [hafter] at hp
      cases hp
  | ends native refresh close _ hafter _ _ _ horders =>
      refine .inl ⟨hquiet horders ?_, fun _ _ _ hp _ => absurd hp (hlive hafter)⟩
      cases native <;> cases refresh <;> cases close <;> rfl
  | shutdown _ _ hphase horders =>
      refine .inl ⟨hquiet horders rfl, ?_⟩
      intro attempt started path hp _
      rw [← hphase]
      exact hp

namespace Turn

/-- The phase of a device, if it has an entry. -/
def phaseOf (d : DeviceId) (r : Registry) : Option PeerPhase := (r.peer d).map PeerEntry.phase

/-- What a command that was begun at `r` has done to the attempts of `d`. -/
inductive Dialled (io : Io) (cmd : PeerCommand) (d : DeviceId) (r : Registry) (t : Turn) : Prop
  where
  | quiet (none : dialsOf d t.actions = [])
      (connecting : ∀ attempt started path,
        phaseOf d t.reg = some (.connecting attempt started path) →
          phaseOf d r = some (.connecting attempt started path))
      (reconnecting : ∀ attempt nextAt reason,
        phaseOf d t.reg = some (.reconnecting attempt nextAt reason) →
          phaseOf d r = some (.reconnecting attempt nextAt reason) ∨ attempt = 0 ∨
          cmd.failsDial d = true ∧ attempt < maxConnectAttempts ∧
            nextAt = io.now + reconnectBackoff attempt ∧ ∃ before started path,
              attempt = before + 1 ∧ phaseOf d r = some (.connecting before started path))
  | dials {attempt started : ℕ} (one : dialsOf d t.actions = [attempt])
      (phase : phaseOf d t.reg = some (.connecting attempt started .gatt))
      (due : attempt = 0 ∨ ∃ nextAt reason,
        phaseOf d r = some (.reconnecting attempt nextAt reason) ∧ nextAt ≤ cmd.clock io)
      (starts : cmd.startsDial = true ∨ ∃ cause, cmd = .centralDisconnected d cause)

section Dialled

variable {io : Io} {cmd : PeerCommand} {d : DeviceId} {r : Registry} {t t' : Turn}

theorem dialled_start : Dialled io cmd d r (start r) :=
  .quiet rfl (fun _ _ _ h => h) (fun _ _ _ h => .inl h)

/-- Steps that are not about the device. -/
theorem Dialled.of_eq (h : Dialled io cmd d r t) (hpeer : t'.reg.peer d = t.reg.peer d)
    (hactions : dialsOf d t'.actions = dialsOf d t.actions) : Dialled io cmd d r t' := by
  have hphase : phaseOf d t'.reg = phaseOf d t.reg :=
    congrArg (Option.map PeerEntry.phase) hpeer
  cases h with
  | quiet hnone hconnecting hreconnecting =>
      refine .quiet (hactions.trans hnone) ?_ ?_
      · rw [hphase]
        exact hconnecting
      · rw [hphase]
        exact hreconnecting
  | dials hone hafter hdue hstarts =>
      exact .dials (hactions.trans hone) (hphase.trans hafter) hdue hstarts

/-- A function on the entry of another device. -/
theorem Dialled.other (h : Dialled io cmd d r t) (hk : t.reg.Keyed) (hset : t.reg.Settled)
    {d' : DeviceId} {e : PeerEntry} {f : Edit → Edit} (he : t.reg.peer d' = some e)
    (hf : Touch io cmd d' e f) (hd : d' ≠ d) :
    Dialled io cmd d r (t.store d' (f (t.focus e))) := by
  refine h.of_eq ?_ ?_
  · rw [peer_store he, if_neg hd.symm]
  · have hmoved : Moved cmd (t.focus e) (f (t.focus e)) :=
      hf.moved (w := t.focus e) (hset d' e he).shaking
    rcases hmoved.dials_devices d with ⟨hsame, -⟩ | ⟨hdev, -⟩
    · exact hsame
    · exact absurd ((hk d' e he).symm.trans hdev) hd

/-- A function on the entry of the device itself, where no dial has been started. `hdue` says what
is known of an attempt that is waited for. -/
theorem Dialled.touch (hnone : dialsOf d t.actions = []) (hset : t.reg.Settled) (hk : t.reg.Keyed)
    {e : PeerEntry} {f : Edit → Edit} (he : t.reg.peer d = some e) (hf : Touch io cmd d e f)
    (hconnecting : ∀ attempt started path, e.phase = .connecting attempt started path →
      phaseOf d r = some (.connecting attempt started path))
    (hreconnecting : ∀ attempt nextAt reason, e.phase = .reconnecting attempt nextAt reason →
      phaseOf d r = some (.reconnecting attempt nextAt reason) ∨ attempt = 0 ∨
        cmd.failsDial d = true ∧ attempt < maxConnectAttempts ∧
          nextAt = io.now + reconnectBackoff attempt ∧ ∃ before started path,
            attempt = before + 1 ∧ phaseOf d r = some (.connecting before started path))
    (hdue : ∀ attempt nextAt reason, e.phase = .reconnecting attempt nextAt reason →
      (cmd.startsDial = true ∨ ∃ cause, cmd = .centralDisconnected d cause) →
        attempt = 0 ∨ phaseOf d r = some (.reconnecting attempt nextAt reason)) :
    Dialled io cmd d r (t.store d (f (t.focus e))) := by
  have hphases : Phases io cmd d e.phase (f (t.focus e)).entry.phase :=
    Touch.phases (w := t.focus e) hf
  have hmoved : Moved cmd (t.focus e) (f (t.focus e)) :=
    hf.moved (w := t.focus e) (hset d e he).shaking
  have hafter : phaseOf d (t.store d (f (t.focus e))).reg = some (f (t.focus e)).entry.phase := by
    unfold phaseOf
    rw [peer_store he, if_pos rfl]
    rfl
  have hdials := hmoved.dials_devices d
  change (dialsOf d (f (t.focus e)).actions = dialsOf d t.actions ∧ _) ∨ _ at hdials
  -- where the phase is not that of a new attempt, no dial is started
  have hstill : (∀ attempt started,
      (f (t.focus e)).entry.phase = .connecting attempt started .gatt → e.phase.isLive = true) →
      dialsOf d (t.store d (f (t.focus e))).actions = [] := by
    intro hlive
    rcases hdials with ⟨hsame, -⟩ | ⟨-, attempt, started, hp, hdead, -⟩
    · exact hsame.trans hnone
    · rw [show (t.focus e).entry.phase.isLive = e.phase.isLive from rfl, hlive attempt started hp]
        at hdead
      cases hdead
  generalize hp' : (f (t.focus e)).entry.phase = p' at hphases hafter hstill
  cases hphases with
  | same =>
      refine .quiet (hstill ?_) ?_ ?_
      · intro attempt started hp
        rw [hp]
        rfl
      · intro attempt started path hp
        rw [hafter] at hp
        exact hconnecting _ _ _ (Option.some.inj hp)
      · intro attempt nextAt reason hp
        rw [hafter] at hp
        exact hreconnecting _ _ _ (Option.some.inj hp)
  | leaves hleaves _ _ =>
      refine .quiet (hstill ?_) ?_ ?_
      · intro attempt started hp
        rw [hp] at hleaves
        cases hleaves
      · intro attempt started path hp
        rw [Option.some.inj (hafter.symm.trans hp)] at hleaves
        cases hleaves
      · intro attempt nextAt reason hp
        rw [Option.some.inj (hafter.symm.trans hp)] at hleaves
        cases hleaves
  | @dials attempt started hwaited hbefore hstarts =>
      rcases hdials with ⟨-, hsame⟩ | ⟨-, attempt', started', hp, -, hone⟩
      · have hold : e.phase = .connecting attempt started .gatt :=
          hsame attempt started .gatt hp' (hk d e he)
        rw [hold] at hbefore
        cases hbefore
      · rw [hp', PeerPhase.connecting.injEq] at hp
        obtain ⟨rfl, rfl, -⟩ := hp
        rw [show dialsOf d (t.focus e).actions = [] from hnone, List.nil_append] at hone
        refine .dials hone hafter ?_ hstarts
        rcases hwaited with hzero | ⟨nextAt, reason, hphase, hle⟩
        · exact .inl hzero
        · rcases hdue _ _ _ hphase hstarts with hzero | hsame
          · exact .inl hzero
          · exact .inr ⟨nextAt, reason, hsame, hle⟩
  | @fails attempt started path reason hbefore hbound hreports =>
      refine .quiet (hstill fun _ _ hp => nomatch hp) ?_ ?_
      · intro attempt' started' path' hp
        cases hafter.symm.trans hp
      · intro attempt' nextAt reason' hp
        have heq := Option.some.inj (hafter.symm.trans hp)
        rw [PeerPhase.reconnecting.injEq] at heq
        obtain ⟨rfl, rfl, rfl⟩ := heq
        exact .inr (.inr ⟨hreports, hbound, rfl, attempt, started, path, rfl,
          hconnecting _ _ _ hbefore⟩)
  | returns hbefore hpowered =>
      refine .quiet (hstill fun _ _ hp => nomatch hp) ?_ ?_
      · intro attempt' started' path' hp
        cases hafter.symm.trans hp
      · intro attempt' nextAt reason' hp
        have heq := Option.some.inj (hafter.symm.trans hp)
        rw [PeerPhase.reconnecting.injEq] at heq
        exact .inr (.inl heq.1.symm)

/-- In the form the proofs below need it. -/
theorem phaseOf_some {r : Registry} {e : PeerEntry} {p : PeerPhase} (he : r.peer d = some e)
    (hp : e.phase = p) : phaseOf d r = some p := by
  unfold phaseOf
  rw [he, ← hp]
  rfl

/-- One small step of a command that does not report and restart at once. -/
theorem Dialled.step (hcmd : ∀ cause, cmd ≠ .centralDisconnected d cause)
    (h : Dialled io cmd d r t) (hk : t.reg.Keyed) (hset : t.reg.Settled)
    (hs : Step io cmd t t') : Dialled io cmd d r t' := by
  cases hs with
  -- an edit of the device itself, or of another one
  | @edit d' e f he hf =>
      by_cases hd : d' = d
      · subst hd
        cases h with
        | quiet hnone hconnecting hreconnecting =>
            refine .touch hnone hset hk he hf ?_ ?_ ?_
            · intro attempt started path hp
              exact hconnecting _ _ _ (phaseOf_some he hp)
            · intro attempt nextAt reason hp
              exact hreconnecting _ _ _ (phaseOf_some he hp)
            · intro attempt nextAt reason hp hstarts
              rcases hreconnecting _ _ _ (phaseOf_some he hp) with hsame | hzero | ⟨hreports, -⟩
              · exact .inr hsame
              · exact .inl hzero
              · -- no command reports a failed dial and starts one
                rcases hstarts with hstarts | ⟨cause, rfl⟩
                · cases cmd <;> first | cases hreports | cases hstarts
                · exact absurd rfl (hcmd cause)
        -- the dial was ordered earlier in the command, which does nothing more to the phase
        | @dials attempt started hone hafter hdue hstarted =>
            have hstarts : cmd.startsDial = true :=
              hstarted.resolve_right fun ⟨cause, hcause⟩ => hcmd cause hcause
            have hphase : e.phase = .connecting attempt started .gatt := by
              unfold phaseOf at hafter
              rw [he] at hafter
              exact Option.some.inj hafter
            have hsame : (f (t.focus e)).entry.phase = e.phase := by
              refine phase_of_startsDial (w := t.focus e) hf hstarts ?_
              change e.phase.isConnecting = true
              rw [hphase]
              rfl
            have hmoved : Moved cmd (t.focus e) (f (t.focus e)) :=
              hf.moved (w := t.focus e) (hset d' e he).shaking
            have hafter' : phaseOf d' (t.store d' (f (t.focus e))).reg =
                some (.connecting attempt started .gatt) := by
              unfold phaseOf
              rw [peer_store he, if_pos rfl]
              exact congrArg some (hsame.trans hphase)
            refine .dials ?_ hafter' hdue hstarted
            rcases hmoved.dials_devices d' with ⟨hquiet, -⟩ | ⟨-, attempt', started', -, hlive, -⟩
            · exact hquiet.trans hone
            · change e.phase.isLive = false at hlive
              rw [hphase] at hlive
              cases hlive
      · exact h.other hk hset he hf hd
  | @insert d' _ hd' =>
      by_cases hd : d' = d
      · subst hd
        have hafter : phaseOf d' (t.insertNew d').reg = some .unknown := by
          unfold phaseOf
          rw [peer_insertNew_self]
          rfl
        have hbefore : phaseOf d' t.reg = none := by
          unfold phaseOf
          rw [hd']
          rfl
        cases h with
        | quiet hnone hconnecting hreconnecting =>
            refine .quiet hnone ?_ ?_
            · intro attempt started path hp
              cases hafter.symm.trans hp
            · intro attempt nextAt reason hp
              cases hafter.symm.trans hp
        | dials hone hphase _ _ =>
            rw [hbefore] at hphase
            cases hphase
      · refine h.of_eq ?_ rfl
        rw [peer_insertNew, if_neg (Ne.symm hd)]
  | @fresh d' f hd' hf =>
      have he := peer_insertNew_self t d'
      have hactions : dialsOf d ((t.insertNew d').edit d' f).actions = dialsOf d t.actions := by
        rw [edit_of_some he]
        cases hf with
        | fragment =>
            change dialsOf d (t.actions ++ _) = _
            rw [dialsOf_append]
            exact List.append_nil _
        | inboundL2capChannel =>
            change dialsOf d (t.actions ++ _) = _
            rw [dialsOf_append]
            exact List.append_nil _
      by_cases hd : d' = d
      · subst hd
        have hafter : ∃ p, phaseOf d' ((t.insertNew d').edit d' f).reg = some p ∧
            p.isDialling = false := by
          unfold phaseOf
          rw [edit_of_some he, peer_store he, if_pos rfl]
          cases hf with
          | fragment => exact ⟨_, rfl, rfl⟩
          | inboundL2capChannel => exact ⟨_, rfl, rfl⟩
        obtain ⟨p, hp, hleaves⟩ := hafter
        cases h with
        | quiet hnone hconnecting hreconnecting =>
            refine .quiet (hactions.trans hnone) ?_ ?_
            · intro attempt started path hp'
              rw [Option.some.inj (hp.symm.trans hp')] at hleaves
              cases hleaves
            · intro attempt nextAt reason hp'
              rw [Option.some.inj (hp.symm.trans hp')] at hleaves
              cases hleaves
        | dials hone hphase _ _ =>
            unfold phaseOf at hphase
            rw [hd'] at hphase
            cases hphase
      · refine h.of_eq ?_ hactions
        rw [peer_edit_ne (Ne.symm hd), peer_insertNew, if_neg (Ne.symm hd)]
  | verify p endpoint => exact h.of_eq rfl rfl
  | prune => exact h.of_eq rfl rfl
  | @gcDead tickNow htick =>
      cases hgc : (t.gcDead tickNow).reg.peer d with
      | some e => exact h.of_eq (hgc.trans (peer_gcDead hgc).symm) rfl
      | none =>
          have hgone : phaseOf d (t.gcDead tickNow).reg = none := by
            unfold phaseOf
            rw [hgc]
            rfl
          cases h with
          | quiet hnone hconnecting hreconnecting =>
              refine .quiet hnone ?_ ?_
              · intro attempt started path hp
                cases hgone.symm.trans hp
              · intro attempt nextAt reason hp
                cases hgone.symm.trans hp
          | dials hone hphase _ _ =>
              -- an entry that is being dialled is not collected
              obtain ⟨e, he, hep⟩ := Option.map_eq_some_iff.mp hphase
              have hkept : (t.gcDead tickNow).reg.peer d = some e := by
                refine (Map.lookup_retain _ _ _ _).mpr ⟨he, ?_⟩
                rw [hep]
              rw [hgc] at hkept
              cases hkept
  | adapter state => exact h.of_eq rfl rfl
  | restore b =>
      refine h.of_eq rfl ?_
      change dialsOf d ((t.actions ++ _) ++ _) = _
      rw [dialsOf_append, dialsOf_append]
      simp [dialsOf]

end Dialled

end Turn

namespace Registry

open Turn

/-- Every command, for every device. -/
theorem handle_dialled {r : Registry} (hk : r.Keyed) (hset : r.Settled) (io : Io)
    (cmd : PeerCommand) (d : DeviceId) : Dialled io cmd d r (r.handle io cmd) := by
  by_cases hcmd : ∃ cause, cmd = .centralDisconnected d cause
  · -- one function on one entry
    obtain ⟨cause, rfl⟩ := hcmd
    change Dialled _ _ _ _ (Turn.handleCentralDisconnected io d cause (start r))
    have hedit : Dialled io (.centralDisconnected d cause) d r
        ((start r).edit d (Edit.centralDisconnected io.now io.systemNow cause)) := by
      cases he : r.peer d with
      | none =>
          rw [edit_of_none (t := start r) he]
          exact dialled_start
      | some e =>
          rw [edit_of_some (t := start r) he]
          refine .touch (t := start r) rfl hset hk he .centralDisconnected ?_ ?_ ?_
          · intro attempt started path hp
            exact phaseOf_some he hp
          · intro attempt nextAt reason hp
            exact .inl (phaseOf_some he hp)
          · intro attempt nextAt reason hp _
            exact .inr (phaseOf_some he hp)
    unfold Turn.handleCentralDisconnected pruneIfGivenUp
    split
    · exact hedit.of_eq rfl rfl
    · exact hedit
  · have hcmd' : ∀ cause, cmd ≠ .centralDisconnected d cause := fun cause heq => hcmd ⟨cause, heq⟩
    have hall : ∀ t, Steps io cmd (start r) t →
        t.reg.Keyed ∧ t.reg.Settled ∧ Dialled io cmd d r t := by
      intro t hsteps
      induction hsteps with
      | refl => exact ⟨hk, hset, dialled_start⟩
      | tail _ hs ih =>
          obtain ⟨hk, hset, hdialled⟩ := ih
          exact ⟨keyed_step hk hs, hset.step hs, hdialled.step hcmd' hk hset hs⟩
    exact (hall _ (handle_steps io cmd r)).2.2

/-! ## Along a run -/

/-- The attempts that a run starts for `d`, in order. -/
def dials (d : DeviceId) (h : List (Registry × Label)) : List ℕ :=
  h.flatMap fun x => dialsOf d (emitted x)

theorem dials_snoc (d : DeviceId) (h : List (Registry × Label)) (x : Registry × Label) :
    dials d (h ++ [x]) = dials d h ++ dialsOf d (emitted x) := by
  simp [dials]

/-- The attempt before this one failed, its backoff runs until `nextAt`, and the entry has waited
since. -/
inductive Waiting (d : DeviceId) (attempt nextAt : ℕ) (h : List (Registry × Label)) : Prop
  where
  | since {h₁ h₂ : List (Registry × Label)} {r : Registry} {io : Io} {cmd : PeerCommand}
      {before started : ℕ} {path : ConnectPath}
      (history : h = h₁ ++ (r, .command io cmd) :: h₂)
      (failed : phaseOf d r = some (.connecting before started path))
      (reports : cmd.failsDial d = true)
      (next : attempt = before + 1) (backoff : nextAt = io.now + reconnectBackoff attempt)
      (rest : ∀ x ∈ h₂, ∃ reason, phaseOf d x.1 = some (.reconnecting attempt nextAt reason))

/-- An entry that is still waiting has waited one step longer. -/
theorem Waiting.snoc {d : DeviceId} {attempt nextAt : ℕ} {h : List (Registry × Label)}
    (hw : Waiting d attempt nextAt h) {r : Registry} {reason : DisconnectReason}
    (hr : phaseOf d r = some (.reconnecting attempt nextAt reason)) (l : Label) :
    Waiting d attempt nextAt (h ++ [(r, l)]) := by
  cases hw with
  | since history hfailed hreports hnext hbackoff hrest =>
      rw [history, List.append_assoc, List.cons_append]
      refine .since rfl hfailed hreports hnext hbackoff ?_
      intro x hx
      rcases List.mem_append.mp hx with hx | hx
      · exact hrest x hx
      · obtain rfl := List.mem_singleton.mp hx
        exact ⟨reason, hr⟩

/-- A step starts one dial at the most, and a later attempt only when the backoff after the one
before is over. -/
def OnTime (d : DeviceId) (k : List (Registry × Label)) (r : Registry) (l : Label) : Prop :=
  dialsOf d (emitted (r, l)) = [] ∨ ∃ attempt, dialsOf d (emitted (r, l)) = [attempt] ∧
    (attempt = 0 ∨ ∃ nextAt io cmd, l = .command io cmd ∧ nextAt ≤ cmd.clock io ∧
      Waiting d attempt nextAt k)

/-- What the phase says of the attempts so far. -/
structure Counted (d : DeviceId) (h : List (Registry × Label)) (r : Registry) : Prop where
  below : ∀ attempt ∈ dials d h, attempt < maxConnectAttempts
  first : ∀ attempt ∈ (dials d h).head?, attempt = 0
  chain : (dials d h).IsChain fun before attempt => attempt = 0 ∨ attempt = before + 1
  onTime : System.Along (OnTime d) h
  connecting : ∀ attempt started path, phaseOf d r = some (.connecting attempt started path) →
    (dials d h).getLast? = some attempt
  reconnecting : ∀ attempt nextAt reason,
    phaseOf d r = some (.reconnecting attempt nextAt reason) →
      attempt = 0 ∨ Waiting d attempt nextAt h ∧ attempt < maxConnectAttempts ∧
        ∃ before, attempt = before + 1 ∧ (dials d h).getLast? = some before

/-- The order of the map has no attempts. -/
theorem Counted.reorder {d : DeviceId} {h : List (Registry × Label)} {r r' : Registry}
    {ks : List DeviceId} (hc : Counted d h r) (hs : step (.reorder ks) r = some r') :
    Counted d (h ++ [(r, .reorder ks)]) r' := by
  have hphase : phaseOf d r' = phaseOf d r :=
    congrArg (Option.map PeerEntry.phase) (peer_reorder hs d)
  have hdials : dials d (h ++ [(r, .reorder ks)]) = dials d h := by
    rw [dials_snoc]
    exact List.append_nil _
  constructor
  · rw [hdials]
    exact hc.below
  · rw [hdials]
    exact hc.first
  · rw [hdials]
    exact hc.chain
  · rw [System.along_append]
    exact ⟨hc.onTime, .inl rfl⟩
  · rw [hdials, hphase]
    exact hc.connecting
  · intro attempt nextAt reason hp
    rw [hphase] at hp
    rw [hdials]
    rcases hc.reconnecting attempt nextAt reason hp with hzero | ⟨hwait, hrest⟩
    · exact .inl hzero
    · exact .inr ⟨hwait.snoc hp _, hrest⟩

/-- The invariant over one command, from what it does to the attempts. -/
theorem Counted.command {d : DeviceId} {h : List (Registry × Label)} {r : Registry}
    (hc : Counted d h r) {io : Io} {cmd : PeerCommand}
    (hd : Dialled io cmd d r (r.handle io cmd)) :
    Counted d (h ++ [(r, .command io cmd)]) (r.handle io cmd).reg := by
  have hsnoc : dials d (h ++ [(r, .command io cmd)]) =
      dials d h ++ dialsOf d (r.handle io cmd).actions := dials_snoc d h _
  cases hd with
  | quiet hnone hconnecting hreconnecting =>
      rw [hnone, List.append_nil] at hsnoc
      constructor
      · rw [hsnoc]
        exact hc.below
      · rw [hsnoc]
        exact hc.first
      · rw [hsnoc]
        exact hc.chain
      · rw [System.along_append]
        exact ⟨hc.onTime, .inl hnone⟩
      · intro attempt started path hp
        rw [hsnoc]
        exact hc.connecting _ _ _ (hconnecting _ _ _ hp)
      · intro attempt nextAt reason hp
        rw [hsnoc]
        rcases hreconnecting _ _ _ hp with
          hsame | hzero | ⟨hreports, hbound, hbackoff, before, started, path, hnext, hfailed⟩
        · -- the entry goes on waiting
          rcases hc.reconnecting _ _ _ hsame with hzero | ⟨hwait, hrest⟩
          · exact .inl hzero
          · exact .inr ⟨hwait.snoc hsame _, hrest⟩
        · exact .inl hzero
        · -- the wait begins
          refine .inr ⟨?_, hbound, before, hnext, hc.connecting _ _ _ hfailed⟩
          have history : h ++ [(r, .command io cmd)] = h ++ (r, .command io cmd) :: [] := rfl
          exact .since history hfailed hreports hnext hbackoff (fun _ hx => nomatch hx)
  | @dials attempt started hone hphase hdue _ =>
      rw [hone] at hsnoc
      have hlast : attempt = 0 ∨ ∃ nextAt before, nextAt ≤ cmd.clock io ∧
          Waiting d attempt nextAt h ∧ attempt < maxConnectAttempts ∧ attempt = before + 1 ∧
          (dials d h).getLast? = some before := by
        rcases hdue with hzero | ⟨nextAt, reason, hwaited, hle⟩
        · exact .inl hzero
        · rcases hc.reconnecting _ _ _ hwaited with hzero | ⟨hwait, hbound, before, hnext, hbefore⟩
          · exact .inl hzero
          · exact .inr ⟨nextAt, before, hle, hwait, hbound, hnext, hbefore⟩
      constructor
      · intro a ha
        rw [hsnoc] at ha
        rcases List.mem_append.mp ha with ha | ha
        · exact hc.below a ha
        · obtain rfl := List.mem_singleton.mp ha
          rcases hlast with rfl | ⟨-, -, -, -, hbound, -⟩
          · decide
          · exact hbound
      · intro a ha
        rw [hsnoc, List.head?_append] at ha
        cases hfirst : (dials d h).head? with
        | some b =>
            rw [hfirst] at ha
            exact hc.first a (hfirst ▸ ha)
        | none =>
            -- nothing was started before, so nothing has failed
            rw [hfirst] at ha
            obtain rfl : attempt = a := by simpa using ha
            rcases hlast with hzero | ⟨-, before, -, -, -, -, hbefore⟩
            · exact hzero
            · rw [List.head?_eq_none_iff.mp hfirst] at hbefore
              cases hbefore
      · rw [hsnoc, List.isChain_append]
        refine ⟨hc.chain, List.isChain_singleton _, ?_⟩
        intro before hbefore a ha
        obtain rfl : attempt = a := by simpa using ha
        rcases hlast with hzero | ⟨-, before', -, -, -, hnext, hbefore'⟩
        · exact .inl hzero
        · rw [hbefore', Option.mem_some_iff] at hbefore
          exact .inr (hbefore ▸ hnext)
      · rw [System.along_append]
        refine ⟨hc.onTime, .inr ⟨attempt, hone, ?_⟩⟩
        rcases hlast with hzero | ⟨nextAt, -, hle, hwait, -⟩
        · exact .inl hzero
        · exact .inr ⟨nextAt, io, cmd, rfl, hle, hwait⟩
      · intro attempt' started' path hp
        rw [hphase, Option.some.injEq, PeerPhase.connecting.injEq] at hp
        rw [hsnoc, List.getLast?_concat, hp.1]
      · intro attempt' nextAt reason hp
        rw [hphase] at hp
        cases hp

/-- The attempts of every run are counted. -/
theorem counted_of_run {h : List (Registry × Label)} {r : Registry} (hrun : system.Run h r)
    (d : DeviceId) : Counted d h r := by
  induction hrun with
  | init hs =>
      obtain ⟨policy, endpoint, rfl⟩ := hs
      constructor
      · simp [dials]
      · simp [dials]
      · exact List.IsChain.nil
      · exact System.along_nil _
      · intro attempt started path hp
        cases hp
      · intro attempt nextAt reason hp
        cases hp
  | @step h r r' l hr hs ih =>
      cases l with
      | reorder ks => exact ih.reorder hs
      | command io cmd =>
          obtain rfl := Option.some.inj hs
          exact ih.command (handle_dialled (keyed_of_run hr) (settled_of_run hr) io cmd d)

/-- The attempts that any run starts for a device: below `MAX_CONNECT_ATTEMPTS`, each the first or
the one after the attempt before, and a later one only after the attempt before was reported
failed and `reconnect_backoff` of it has passed on the clock, the entry waiting all the while. -/
theorem retry_discipline {h : List (Registry × Label)} {r : Registry} (hrun : system.Run h r)
    (d : DeviceId) :
    (∀ attempt ∈ dials d h, attempt < maxConnectAttempts) ∧
    (∀ attempt ∈ (dials d h).head?, attempt = 0) ∧
    ((dials d h).IsChain fun before attempt => attempt = 0 ∨ attempt = before + 1) ∧
    System.Along (OnTime d) h := by
  have hc := counted_of_run hrun d
  exact ⟨hc.below, hc.first, hc.chain, hc.onTime⟩

/-- The dial fails, one tick comes too early and the next one starts the second attempt. -/
def retryRun : List Label :=
  dialRun ++ [.command (ioAt 2) (.connectFailed "peer" 2 "timeout"),
    .command (ioAt 3) (.tick 3),
    .command (ioAt (2 + secs 1)) (.tick (2 + secs 1))]

/-- On a run: an attempt fails, and the next one follows after the backoff. -/
theorem retry_discipline_retryRun :
    ∃ h r, system.Run h r ∧ h.map Prod.snd = retryRun ∧ dials "peer" h = [0, 1] ∧
      System.Along (OnTime "peer") h := by
  obtain ⟨h, r, hrun, hl, hdials⟩ := System.Run.of_trace
    (P := fun h _ => dials "peer" h = [0, 1]) retryRun (init_new .disabled localEndpoint)
    (by decide +kernel)
  exact ⟨h, r, hrun, hl, hdials, (retry_discipline hrun "peer").2.2.2⟩

end Registry

end IrohBle
