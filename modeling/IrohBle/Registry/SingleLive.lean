import IrohBle.Registry.Close

/-! # Registry.SingleLive: one live connection for each verified prefix

`VerifiedEndpoint` drains all but one of the `Connected` entries of its prefix, and no other
command looks at their number. Afterwards an entry enters `Connected` in `ConnectSucceeded`, and
takes the prefix of a later advertisement in `Advertised`, whatever else is live.

* `dialling`: the runs of the eight commands by which this node dials and is verified.
* `Single`: neither of the two happens while another entry of the prefix is live.
* `single_live_iff`: exactly then every prefix that was ever verified has at most one live entry,
  after each command.
* `redial_after_verification`: two devices dialled after the endpoint was verified both stay.
-/

namespace IrohBle

open Lib Reliable

/-- The commands that make up a dial, the send that asks for it and the verification of the
peer. -/
def PeerCommand.dials : PeerCommand → Bool
  | .advertised .. | .sendDatagram .. | .connectSucceeded .. | .connectFailed ..
  | .centralDisconnected .. | .verifiedEndpoint .. | .dataPipeReady .. | .forget _ => true
  | _ => false

namespace Registry

open Turn

/-- The steps of this node's own dialling. -/
def Label.dials : Label → Bool
  | .reorder _ => true
  | .command _ cmd => cmd.dials

/-- Any sequence of these commands, from `Registry::new`. -/
def dialling : System Registry Label where
  Init := system.Init
  step l r := if l.dials then step l r else none

/-- The endpoint that a step verifies. -/
def verifies (l : Label) : Option EndpointId :=
  match l with
  | .command _ (.verifiedEndpoint endpoint _) => some endpoint
  | _ => none

/-- The endpoints verified so far. -/
def verifiedEndpoints (h : List (Registry × Label)) : List EndpointId :=
  h.filterMap fun x => verifies x.2

/-- The history is read command by command. -/
theorem verifiedEndpoints_snoc (h : List (Registry × Label)) (x : Registry × Label) :
    verifiedEndpoints (h ++ [x]) = verifiedEndpoints h ++ (verifies x.2).toList := by
  unfold verifiedEndpoints
  rw [List.filterMap_append]
  cases hx : verifies x.2 <;> simp [hx]

/-- The prefix was verified. -/
def Verified (h : List (Registry × Label)) (p : KeyPrefix) : Prop :=
  ∃ endpoint ∈ verifiedEndpoints h, prefixFromEndpoint endpoint = p

instance (h : List (Registry × Label)) (p : KeyPrefix) : Decidable (Verified h p) :=
  inferInstanceAs (Decidable (∃ endpoint ∈ verifiedEndpoints h, prefixFromEndpoint endpoint = p))

/-- No entry enters `Connected`, and no `Connected` one changes its prefix, for a verified prefix
that has a live entry already. -/
def Single (h : List (Registry × Label)) (r : Registry) (l : Label) : Prop :=
  match l with
  | .command _ (.connectSucceeded d lifecycleId _) => ∀ e ∈ r.peer d, e.lifecycleId = lifecycleId →
      e.phase.isConnecting = true → ∀ p ∈ e.keyPrefix, Verified h p → r.connectedForPrefix p = 0
  | .command _ (.advertised p d _) => Verified h p → ∀ e ∈ r.peer d, e.phase.isConnected = true →
      e.keyPrefix ≠ some p → r.connectedForPrefix p = 0
  | _ => True

/-! ## Counting the live entries -/

/-- The count is that of the devices that are live for the prefix. -/
theorem connectedForPrefix_eq (r : Registry) (p : KeyPrefix) :
    r.connectedForPrefix p = ((start r).devicesWhere (liveFor p)).length := by
  unfold connectedForPrefix devicesWhere Map.values
  rw [List.length_map, List.countP_map, List.countP_eq_length_filter]
  rfl

/-- Nothing is counted where nothing is live. -/
theorem connectedForPrefix_eq_zero {r : Registry} {p : KeyPrefix} :
    r.connectedForPrefix p = 0 ↔ ∀ d e, r.peer d = some e → liveFor p e = false := by
  rw [connectedForPrefix_eq, List.length_eq_zero_iff]
  constructor
  · intro hnil d e he
    by_contra hlive
    have hmem : d ∈ (start r).devicesWhere (liveFor p) :=
      (mem_devicesWhere_iff he).mpr (by simpa using hlive)
    rw [hnil] at hmem
    cases hmem
  · intro hall
    refine List.eq_nil_iff_forall_not_mem.mpr ?_
    intro d hd
    rcases mem_devicesWhere hd with ⟨e, he, hlive⟩
    rw [hall d e he] at hlive
    cases hlive

/-- Two live entries are one. -/
def OneLive (r : Registry) (p : KeyPrefix) : Prop :=
  ∀ d d' e e', r.peer d = some e → r.peer d' = some e' → liveFor p e = true →
    liveFor p e' = true → d = d'

/-- Two different members. -/
theorem two_le_length {α : Type} {l : List α} {x y : α} (hx : x ∈ l) (hy : y ∈ l) (hne : x ≠ y) :
    2 ≤ l.length := by
  cases l with
  | nil => cases hx
  | cons a l =>
      cases l with
      | nil =>
          rw [List.mem_singleton] at hx hy
          exact absurd (hx.trans hy.symm) hne
      | cons b l => simp

/-- At most one is counted exactly if any two live entries are the same. -/
theorem connectedForPrefix_le_one {r : Registry} {p : KeyPrefix} :
    r.connectedForPrefix p ≤ 1 ↔ r.OneLive p := by
  rw [connectedForPrefix_eq]
  -- the devices that are counted are those with a live entry
  have hmem : ∀ {d e}, r.peer d = some e →
      (d ∈ (start r).devicesWhere (liveFor p) ↔ liveFor p e = true) := by
    intro d e he
    exact mem_devicesWhere_iff he
  have hnodup := nodup_devicesWhere (start r) (liveFor p)
  constructor
  · -- two live entries are two devices
    intro hle d d' e e' he he' hlive hlive'
    by_contra hne
    have htwo := two_le_length ((hmem he).mpr hlive) ((hmem he').mpr hlive') hne
    omega
  · intro hone
    have hsame : ∀ d ∈ (start r).devicesWhere (liveFor p),
        ∀ d' ∈ (start r).devicesWhere (liveFor p), d = d' := by
      intro d hd d' hd'
      rcases mem_devicesWhere hd with ⟨e, he, hlive⟩
      rcases mem_devicesWhere hd' with ⟨e', he', hlive'⟩
      exact hone d d' e e' he he' hlive hlive'
    generalize (start r).devicesWhere (liveFor p) = ds at hnodup hsame
    cases ds with
    | nil => simp
    | cons x ds =>
        cases ds with
        | nil => simp
        | cons y ds =>
            have heq := hsame x (by simp) y (by simp)
            rw [heq] at hnodup
            simp at hnodup

/-! ## Commands that make nothing live -/

/-- A live entry of `r'` is a live entry of `r`. -/
def NoneNew (p : KeyPrefix) (r r' : Registry) : Prop :=
  ∀ d e', r'.peer d = some e' → liveFor p e' = true → ∃ e, r.peer d = some e ∧ liveFor p e = true

/-- Where nothing new is live, one live entry stays the only one. -/
theorem NoneNew.oneLive {p : KeyPrefix} {r r' : Registry} (h : NoneNew p r r')
    (hone : r.OneLive p) : r'.OneLive p := by
  intro d₁ d₂ e₁ e₂ h₁ h₂ hlive₁ hlive₂
  rcases h d₁ e₁ h₁ hlive₁ with ⟨e₁', he₁, hl₁⟩
  rcases h d₂ e₂ h₂ hlive₂ with ⟨e₂', he₂, hl₂⟩
  exact hone d₁ d₂ e₁' e₂' he₁ he₂ hl₁ hl₂

theorem NoneNew.refl (p : KeyPrefix) (r : Registry) : NoneNew p r r :=
  fun _ e' he' hlive => ⟨e', he', hlive⟩

/-- One change after another. -/
theorem NoneNew.trans {p : KeyPrefix} {r r₁ r' : Registry} (h₁ : NoneNew p r r₁)
    (h₂ : NoneNew p r₁ r') : NoneNew p r r' := by
  intro d e' he' hlive
  rcases h₂ d e' he' hlive with ⟨e₁, he₁, hlive₁⟩
  exact h₁ d e₁ he₁ hlive₁

/-- The entries are as they were. -/
theorem noneNew_of_peer {p : KeyPrefix} {r r' : Registry} (h : ∀ d, r'.peer d = r.peer d) :
    NoneNew p r r' := by
  intro d e' he' hlive
  rw [h] at he'
  exact ⟨e', he', hlive⟩

/-- A fresh entry is not live. -/
theorem noneNew_insertNew (p : KeyPrefix) (t : Turn) (d : DeviceId) :
    NoneNew p t.reg (t.insertNew d).reg := by
  intro d' e' he' hlive
  rw [peer_insertNew] at he'
  split at he'
  · obtain rfl := Option.some.inj he'
    cases hlive
  · exact ⟨e', he', hlive⟩

/-- Whether it had to be made or not. -/
theorem noneNew_ensure (p : KeyPrefix) (t : Turn) (d : DeviceId) :
    NoneNew p t.reg (t.ensure d).reg := by
  unfold ensure
  split
  · exact .refl p t.reg
  · exact noneNew_insertNew p t d

/-- An edit that makes no entry live that was not. -/
theorem noneNew_edit {p : KeyPrefix} {t : Turn} {d : DeviceId} {f : Edit → Edit}
    (hf : ∀ w : Edit, liveFor p (f w).entry = true → liveFor p w.entry = true) :
    NoneNew p t.reg (t.edit d f).reg := by
  cases he : t.reg.peer d with
  | none =>
      rw [edit_of_none he]
      exact .refl p t.reg
  | some e =>
      rw [edit_of_some he]
      intro d' e' he' hlive
      rw [peer_store he] at he'
      split at he'
      · rename_i hd
        obtain rfl := Option.some.inj he'
        subst hd
        exact ⟨e, he, hf (t.focus e) hlive⟩
      · exact ⟨e', he', hlive⟩

theorem liveFor_iff {p : KeyPrefix} {e : PeerEntry} :
    liveFor p e = true ↔ e.keyPrefix = some p ∧ e.phase.isConnected = true := by
  simp [liveFor]

theorem liveFor_of_phase {p : KeyPrefix} {e : PeerEntry} (h : liveFor p e = true) {phase : PeerPhase}
    (he : e.phase = phase) : phase.isConnected = true := by
  rw [← he]
  exact (liveFor_iff.mp h).2

/-- A failed dial is waited out or given up. -/
theorem isConnected_dialFailed (w : Edit) (now attempt : ℕ) (metric : String)
    (reason : DisconnectReason) :
    (w.dialFailed now attempt metric reason).entry.phase.isConnected = false := by
  rw [Edit.dialFailed_entry]
  split <;> rfl

/-- An entry that is armed for a dial is not `Connected`. -/
theorem isConnected_armForDial (w : Edit) (now : ℕ) (deferPrefix : Option KeyPrefix) :
    (w.armForDial now deferPrefix).entry.phase.isConnected = false := by
  rcases Edit.armForDial_entry w now deferPrefix with ⟨phase, l, u, hentry, hphase⟩
  rw [hentry]
  rcases hphase with rfl | ⟨q, rfl⟩ | rfl <;> rfl

section Edits

variable {p : KeyPrefix} (w : Edit)

/-- A send makes nothing live. -/
theorem liveFor_of_sendDatagram {io : Io} {target : Option EndpointId} {send : PendingSend}
    (h : liveFor p (w.sendDatagram io target send).entry = true) : liveFor p w.entry = true := by
  unfold Edit.sendDatagram at h
  split at h
  · rcases Edit.enqueue_entry w io send with ⟨sends, pipe, hentry, -⟩
    rw [hentry] at h
    exact h
  · exact h
  · exact h
  · cases liveFor_of_phase h rfl

theorem liveFor_of_connectFailed {now lifecycleId : ℕ} {error : String}
    (h : liveFor p (w.connectFailed now lifecycleId error).entry = true) :
    liveFor p w.entry = true := by
  unfold Edit.connectFailed at h
  split at h
  · exact h
  · split at h
    · have hlive := (liveFor_iff.mp h).2
      rw [isConnected_dialFailed] at hlive
      cases hlive
    · exact h

theorem liveFor_of_dataPipeReady {io : Io} {txGen : ℕ} {handles : PipeHandles}
    (h : liveFor p (w.dataPipeReady io txGen handles).entry = true) : liveFor p w.entry = true := by
  by_cases hgen : w.entry.txGen = txGen
  · rcases Edit.dataPipeReady_entry w io txGen handles hgen with ⟨backlog, sends, hentry⟩
    rw [hentry] at h
    exact h
  · unfold Edit.dataPipeReady at h
    rw [if_pos hgen] at h
    exact h

/-- A broken link makes nothing live. -/
theorem liveFor_of_centralDisconnected {now systemNow : ℕ} {cause : DisconnectCause}
    (h : liveFor p (w.centralDisconnected now systemNow cause).entry = true) :
    liveFor p w.entry = true := by
  have hlive := (liveFor_iff.mp h).2
  unfold Edit.centralDisconnected at hlive
  dsimp only at hlive
  split at hlive
  · rw [Edit.refreshOn133_entry, isConnected_dialFailed] at hlive
    cases hlive
  · split at hlive
    · unfold Edit.resumeDrainedEntry at hlive
      rw [isConnected_armForDial] at hlive
      cases hlive
    · rw [Edit.refreshOn133_entry, Edit.drainToDraining_entry] at hlive
      cases hlive
  · rw [Edit.refreshOn133_entry, Edit.closeChannel_entry, Edit.drainToDraining_entry] at hlive
    cases hlive

theorem liveFor_of_forget {now : ℕ} (h : liveFor p (w.forget now).entry = true) :
    liveFor p w.entry = true := by
  unfold Edit.forget at h
  dsimp only at h
  rw [Edit.closeChannel_entry] at h
  cases liveFor_of_phase h rfl

/-- An advertisement moves a live entry to its prefix, and makes no other one live. -/
theorem liveFor_advertised {now : ℕ} {q : KeyPrefix} {deferPrefix : Option KeyPrefix} :
    liveFor p (w.advertised now q deferPrefix).entry = true ↔
      q = p ∧ w.entry.phase.isConnected = true := by
  -- live is connected
  have hdead : ∀ e : PeerEntry, e.phase.isConnected = false → ¬ liveFor p e = true := by
    intro e he hlive
    rw [(liveFor_iff.mp hlive).2] at he
    cases he
  unfold Edit.advertised
  dsimp only
  cases hphase : w.entry.phase with
  | connected since channel txGen upgrading =>
      simp only [Edit.modify_entry, hphase]
      rw [liveFor_iff]
      simp [PeerPhase.isConnected]
  | unknown =>
      simp only [Edit.modify_entry, hphase]
      refine iff_of_false (hdead _ (isConnected_armForDial _ _ _)) ?_
      simp [PeerPhase.isConnected]
  | discovered since =>
      simp only [Edit.modify_entry, hphase]
      refine iff_of_false (hdead _ ?_) (by simp [PeerPhase.isConnected])
      split
      · simp [hphase, PeerPhase.isConnected]
      · exact isConnected_armForDial _ _ _
  | reconnecting attempt nextAt reason =>
      simp only [Edit.modify_entry, hphase]
      refine iff_of_false (hdead _ ?_) (by simp [PeerPhase.isConnected])
      split
      · rfl
      · simp [hphase, PeerPhase.isConnected]
  | dead reason diedAt =>
      simp only [Edit.modify_entry, hphase]
      refine iff_of_false (hdead _ ?_) (by simp [PeerPhase.isConnected])
      cases reason with
      | maxRetries => exact isConnected_armForDial _ _ _
      | drained => exact isConnected_armForDial _ _ _
      | protocolMismatch got want => simp [hphase, PeerPhase.isConnected]
      | forgotten => simp [hphase, PeerPhase.isConnected]
  | _ =>
      simp only [Edit.modify_entry, hphase]
      refine iff_of_false (hdead _ ?_) (by simp [PeerPhase.isConnected])
      simp [PeerPhase.isConnected]

theorem liveFor_advertisedSuppressed {now : ℕ} {q : KeyPrefix} :
    liveFor p (w.advertisedSuppressed now q).entry = true ↔
      q = p ∧ w.entry.phase.isConnected = true := by
  rw [liveFor_iff]
  simp [Edit.advertisedSuppressed]

/-- An upgrade is of an entry that is live before and after. -/
theorem liveFor_requestUpgrade : liveFor p w.requestUpgrade.entry = liveFor p w.entry := by
  unfold Edit.requestUpgrade Edit.setUpgrading
  split
  · rename_i hphase
    rw [Bool.eq_iff_iff, liveFor_iff, liveFor_iff]
    simp [hphase, PeerPhase.isConnected]
  · rfl

/-- A dial that succeeds makes its entry live for the prefix that it carries. -/
theorem liveFor_connectSucceeded {now lifecycleId : ℕ} {channel : ChannelHandle}
    {upgrade : PeerEntry → Bool} :
    liveFor p (w.connectSucceeded now lifecycleId channel upgrade).entry = true ↔
      liveFor p w.entry = true ∨ w.entry.keyPrefix = some p ∧
        w.entry.lifecycleId = lifecycleId ∧ w.entry.phase.isConnecting = true := by
  unfold Edit.connectSucceeded
  split
  · -- the answer to an earlier dial changes nothing
    rename_i hguard
    constructor
    · intro hlive
      exact Or.inl hlive
    · rintro (hlive | ⟨-, hlife, hconnecting⟩)
      · exact hlive
      · rcases hguard with hne | hnot
        · exact absurd hlife hne
        · exact absurd hconnecting hnot
  · -- the dial's own answer: the entry connects under the prefix it has
    rename_i hguard
    rw [not_or, not_not, not_not] at hguard
    rcases hguard with ⟨hlife, hconnecting⟩
    have hbefore : ¬ liveFor p w.entry = true := by
      intro hlive
      have hconnected := (liveFor_iff.mp hlive).2
      cases hphase : w.entry.phase <;> simp [hphase, PeerPhase.isConnecting,
        PeerPhase.isConnected] at hconnecting hconnected
    have hafter : ∀ w' : Edit, w'.entry.keyPrefix = w.entry.keyPrefix →
        w'.entry.phase.isConnected = true →
        (liveFor p w'.entry = true ↔ liveFor p w.entry = true ∨ w.entry.keyPrefix = some p ∧
          w.entry.lifecycleId = lifecycleId ∧ w.entry.phase.isConnecting = true) := by
      intro w' hkey hconnected
      rw [liveFor_iff, hkey]
      constructor
      · rintro ⟨hp, -⟩
        exact Or.inr ⟨hp, hlife, hconnecting⟩
      · rintro (hlive | ⟨hp, -⟩)
        · exact absurd hlive hbefore
        · exact ⟨hp, hconnected⟩
    dsimp only
    split
    · rw [liveFor_requestUpgrade]
      exact hafter _ (by simp) (by simp [PeerPhase.isConnected])
    · exact hafter _ (by simp) (by simp [PeerPhase.isConnected])

end Edits

/-! ## A verified endpoint -/

/-- A walk with a function that makes nothing live. -/
theorem noneNew_editAll {q : KeyPrefix} {t : Turn} {ds : List DeviceId} {f : Edit → Edit}
    (hf : ∀ w : Edit, liveFor q (f w).entry = true → liveFor q w.entry = true) :
    NoneNew q t.reg (t.editAll ds f).reg := by
  unfold Turn.editAll
  induction ds generalizing t with
  | nil => exact .refl q t.reg
  | cons d ds ih =>
      rw [List.foldl_cons]
      exact (noneNew_edit hf).trans ih

theorem liveFor_of_drain {q : KeyPrefix} {now systemNow : ℕ} {reason : DisconnectReason} (w : Edit)
    (h : liveFor q (w.drainToDraining now systemNow reason).entry = true) :
    liveFor q w.entry = true := by
  rw [Edit.drainToDraining_entry] at h
  cases liveFor_of_phase h rfl

section VerifiedEndpoint

variable {t : Turn} {io : Io} {endpoint : EndpointId}

theorem noneNew_cancelPendingDials (q p : KeyPrefix) :
    NoneNew q t.reg (t.cancelPendingDials io p).reg :=
  noneNew_editAll liveFor_of_drain

theorem noneNew_drainLosers (q : KeyPrefix) : NoneNew q t.reg (t.drainLosers io endpoint).reg := by
  unfold Turn.drainLosers
  dsimp only
  split
  · exact noneNew_editAll liveFor_of_drain
  · exact .refl q t.reg

theorem noneNew_requestUpgrades (q : KeyPrefix) :
    NoneNew q t.reg (t.requestUpgrades endpoint).reg := by
  unfold Turn.requestUpgrades
  dsimp only
  split
  · refine noneNew_editAll ?_
    intro w hlive
    rw [liveFor_requestUpgrade] at hlive
    exact hlive
  · exact .refl q t.reg

/-- Without a pipe to name the device, the stamps change no prefix. -/
theorem noneNew_stampVerified (q : KeyPrefix) :
    NoneNew q t.reg (t.stampVerified io endpoint none).reg :=
  noneNew_editAll fun _ hlive => hlive

theorem noneNew_verifiedEndpoint (q : KeyPrefix) :
    NoneNew q t.reg (t.handleVerifiedEndpoint io endpoint none).reg := by
  have hverify : NoneNew q t.reg (t.verify (prefixFromEndpoint endpoint) endpoint).reg :=
    noneNew_of_peer fun _ => rfl
  unfold Turn.handleVerifiedEndpoint
  exact (((hverify.trans (noneNew_stampVerified q)).trans (noneNew_cancelPendingDials q _)).trans
    (noneNew_drainLosers q)).trans (noneNew_requestUpgrades q)

/-- An entry that is live afterwards was live when the identities were stamped, and did not
lose. -/
theorem kept_of_live {exact : Option DeviceId} {d : DeviceId} {e' : PeerEntry}
    (he' : (t.handleVerifiedEndpoint io endpoint exact).reg.peer d = some e')
    (hlive' : liveFor (prefixFromEndpoint endpoint) e' = true) :
    (∃ e, ((t.verify (prefixFromEndpoint endpoint) endpoint).stampVerified io endpoint
        exact).reg.peer d = some e ∧ liveFor (prefixFromEndpoint endpoint) e = true) ∧
      ¬ ((t.verify (prefixFromEndpoint endpoint) endpoint).stampVerified io endpoint exact).Loses
        io.now endpoint d := by
  have hnone : NoneNew (prefixFromEndpoint endpoint)
      ((t.verify (prefixFromEndpoint endpoint) endpoint).stampVerified io endpoint exact).reg
      (t.handleVerifiedEndpoint io endpoint exact).reg := by
    unfold Turn.handleVerifiedEndpoint
    exact ((noneNew_cancelPendingDials _ _).trans (noneNew_drainLosers _)).trans
      (noneNew_requestUpgrades _)
  rcases hnone d e' he' hlive' with ⟨e, he, hlive⟩
  refine ⟨⟨e, he, hlive⟩, ?_⟩
  intro hloses
  rcases handleVerifiedEndpoint_entry he hlive with ⟨e₁, he₁, hdrained, -⟩
  obtain rfl : e₁ = e' := Option.some.inj (he₁.symm.trans he')
  cases liveFor_of_phase hlive' (hdrained hloses)

/-- Of the live entries of the endpoint's prefix one is left at most: two that stay would both be
the winner. -/
theorem oneLive_verifiedEndpoint (exact : Option DeviceId) :
    (t.handleVerifiedEndpoint io endpoint exact).reg.OneLive (prefixFromEndpoint endpoint) := by
  intro d d' e e' he he' hlive hlive'
  rcases kept_of_live he hlive with ⟨⟨e₀, he₀, hlive₀⟩, hstays⟩
  rcases kept_of_live he' hlive' with ⟨⟨e₀', he₀', hlive₀'⟩, hstays'⟩
  by_contra hne
  have htwo := two_le_length ((mem_devicesWhere_iff he₀).mpr hlive₀)
    ((mem_devicesWhere_iff he₀').mpr hlive₀') hne
  have hwinner := not_not.mp fun h => hstays ⟨htwo, h⟩
  have hwinner' := not_not.mp fun h => hstays' ⟨htwo, h⟩
  exact hne (Option.some.inj (hwinner.symm.trans hwinner'))

end VerifiedEndpoint

/-! ## Runs -/

/-- Every prefix that was verified has one live entry at most. -/
def VerifiedOnce (h : List (Registry × Label)) (r : Registry) : Prop :=
  ∀ endpoint ∈ verifiedEndpoints h, r.connectedForPrefix (prefixFromEndpoint endpoint) ≤ 1

/-- The property, with the count read as a relation between entries. -/
theorem verifiedOnce_iff {h : List (Registry × Label)} {r : Registry} :
    VerifiedOnce h r ↔ ∀ p, Verified h p → r.OneLive p := by
  constructor
  · rintro honce p ⟨endpoint, hmem, rfl⟩
    exact connectedForPrefix_le_one.mp (honce endpoint hmem)
  · intro hone endpoint hmem
    exact connectedForPrefix_le_one.mpr (hone _ ⟨endpoint, hmem, rfl⟩)

theorem verified_snoc {h : List (Registry × Label)} {r : Registry} {l : Label} {p : KeyPrefix}
    (hl : verifies l = none) : Verified (h ++ [(r, l)]) p ↔ Verified h p := by
  unfold Verified
  rw [verifiedEndpoints_snoc, hl, Option.toList_none, List.append_nil]

/-- A step that verifies nothing and makes nothing live. -/
theorem verifiedOnce_of_noneNew {h : List (Registry × Label)} {r r' : Registry} {l : Label}
    (hl : verifies l = none) (honce : VerifiedOnce h r) (hnone : ∀ p, NoneNew p r r') :
    VerifiedOnce (h ++ [(r, l)]) r' := by
  rw [verifiedOnce_iff] at honce ⊢
  intro p hp
  exact (hnone p).oneLive (honce p ((verified_snoc hl).mp hp))

/-- The entry of `d` becomes live for the prefixes `G`, and the other entries are as they were. -/
structure Gains (d : DeviceId) (G : KeyPrefix → Prop) (r r' : Registry) : Prop where
  other : ∀ d', d' ≠ d → r'.peer d' = r.peer d'
  after : ∀ p e', r'.peer d = some e' → liveFor p e' = true →
    G p ∨ ∃ e, r.peer d = some e ∧ liveFor p e = true
  gained : ∀ p, G p → ∃ e', r'.peer d = some e' ∧ liveFor p e' = true
  fresh : ∀ p, G p → ∀ e, r.peer d = some e → liveFor p e = false

namespace Gains

variable {d : DeviceId} {G : KeyPrefix → Prop} {r r' : Registry} {p : KeyPrefix}

/-- That is as good as before exactly if nothing else was live. -/
theorem oneLive_iff (h : Gains d G r r') (hone : r.OneLive p) :
    r'.OneLive p ↔ (G p → r.connectedForPrefix p = 0) := by
  constructor
  · intro hone' hG
    refine connectedForPrefix_eq_zero.mpr ?_
    intro d' e' he'
    rcases h.gained p hG with ⟨e, he, hlive⟩
    by_contra hlive'
    have hne : d' ≠ d := by
      rintro rfl
      exact hlive' (h.fresh p hG e' he')
    refine hne (hone' d' d e' e ?_ he (by simpa using hlive') hlive)
    rw [h.other d' hne]
    exact he'
  · intro hzero
    -- an entry that was live before keeps the others out, and so does the new one
    have hmixed : ∀ d' e' e, d' ≠ d → r.peer d' = some e' → liveFor p e' = true →
        r'.peer d = some e → ¬ liveFor p e = true := by
      intro d' e' e hne he' hlive' he hlive
      rcases h.after p e he hlive with hG | ⟨e₀, he₀, hlive₀⟩
      · rw [connectedForPrefix_eq_zero.mp (hzero hG) d' e' he'] at hlive'
        cases hlive'
      · exact hne (hone d' d e' e₀ he' he₀ hlive' hlive₀)
    intro d₁ d₂ e₁ e₂ h₁ h₂ hlive₁ hlive₂
    by_cases hd₁ : d₁ = d
    · by_cases hd₂ : d₂ = d
      · rw [hd₁, hd₂]
      · rw [h.other d₂ hd₂] at h₂
        subst hd₁
        exact absurd hlive₁ (hmixed d₂ e₂ e₁ hd₂ h₂ hlive₂ h₁)
    · rw [h.other d₁ hd₁] at h₁
      by_cases hd₂ : d₂ = d
      · subst hd₂
        exact absurd hlive₂ (hmixed d₁ e₁ e₂ hd₁ h₁ hlive₁ h₂)
      · rw [h.other d₂ hd₂] at h₂
        exact hone d₁ d₂ e₁ e₂ h₁ h₂ hlive₁ hlive₂

/-- Where one device gains liveness for some prefixes, the property survives exactly if nothing
else was live for those. -/
theorem verifiedOnce_iff {h : List (Registry × Label)} {l : Label} (hg : Gains d G r r')
    (hl : verifies l = none) (honce : VerifiedOnce h r) :
    VerifiedOnce (h ++ [(r, l)]) r' ↔ ∀ p, Verified h p → G p → r.connectedForPrefix p = 0 := by
  rw [Registry.verifiedOnce_iff] at honce ⊢
  constructor
  · intro hone p hp
    exact (hg.oneLive_iff (honce p hp)).mp (hone p ((verified_snoc hl).mpr hp))
  · intro hzero p hp
    have hp := (verified_snoc hl).mp hp
    exact (hg.oneLive_iff (honce p hp)).mpr (hzero p hp)

/-- The gain of an edit, read off the entry before and after. -/
theorem of_edit {t : Turn} {e : PeerEntry} {f : Edit → Edit} (he : t.reg.peer d = some e)
    (hafter : ∀ p, liveFor p (f (t.focus e)).entry = true → G p ∨ liveFor p e = true)
    (hgained : ∀ p, G p → liveFor p (f (t.focus e)).entry = true)
    (hfresh : ∀ p, G p → liveFor p e = false) : Gains d G t.reg (t.edit d f).reg := by
  have hpeer : (t.edit d f).reg.peer d = some (f (t.focus e)).entry := by
    rw [edit_of_some he, peer_store he, if_pos rfl]
  refine ⟨fun d' hd' => peer_edit_ne hd', ?_, ?_, ?_⟩
  · intro p e' he' hlive
    obtain rfl := Option.some.inj (hpeer.symm.trans he')
    rcases hafter p hlive with hG | hbefore
    · exact Or.inl hG
    · exact Or.inr ⟨e, he, hbefore⟩
  · intro p hG
    exact ⟨_, hpeer, hgained p hG⟩
  · intro p hG e' he'
    obtain rfl := Option.some.inj (he.symm.trans he')
    exact hfresh p hG

/-- What happens besides the entries does not matter. -/
theorem of_peer {r'' : Registry} (h : Gains d G r r') (hpeer : ∀ d, r''.peer d = r'.peer d) :
    Gains d G r r'' := by
  refine ⟨?_, ?_, ?_, h.fresh⟩
  · intro d' hd'
    rw [hpeer]
    exact h.other d' hd'
  · rw [hpeer]
    exact h.after
  · rw [hpeer]
    exact h.gained

end Gains

/-- Giving an identity back leaves the entries as they are. -/
theorem peer_restoreVerified (p : KeyPrefix) (resurrected : Option EndpointId) (t : Turn)
    (d : DeviceId) : (t.restoreVerified p resurrected).reg.peer d = t.reg.peer d := by
  unfold restoreVerified
  split
  · split <;> rfl
  · rfl

/-- A dial that succeeds makes the entry live for its prefix. -/
theorem gains_connectSucceeded (io : Io) {r : Registry} {d : DeviceId} {e : PeerEntry}
    (lifecycleId : ℕ) (channel : ChannelHandle) (he : r.peer d = some e) :
    Gains d (fun p => e.keyPrefix = some p ∧ e.lifecycleId = lifecycleId ∧
      e.phase.isConnecting = true) r
      (r.handle io (.connectSucceeded d lifecycleId channel)).reg := by
  refine Gains.of_edit (t := start r) he ?_ ?_ ?_
  · intro p hlive
    rcases (liveFor_connectSucceeded _).mp hlive with hbefore | hG
    · exact Or.inr hbefore
    · exact Or.inl hG
  · intro p hG
    exact (liveFor_connectSucceeded _).mpr (Or.inr hG)
  · rintro p ⟨-, -, hconnecting⟩
    by_contra hlive
    have hconnected := (liveFor_iff.mp (by simpa using hlive)).2
    cases hphase : e.phase <;> simp [hphase, PeerPhase.isConnecting,
      PeerPhase.isConnected] at hconnecting hconnected

/-- An advertisement makes a `Connected` entry live for the prefix that it names. -/
theorem gains_advertised (io : Io) {r : Registry} {d : DeviceId} {e : PeerEntry} (q : KeyPrefix)
    (rssi : Option Int) (he : r.peer d = some e) :
    Gains d (fun p => q = p ∧ e.phase.isConnected = true ∧ e.keyPrefix ≠ some q) r
      (r.handle io (.advertised q d rssi)).reg := by
  have hedit : ∀ f : Edit → Edit, (∀ p (w : Edit), liveFor p (f w).entry = true ↔
      q = p ∧ w.entry.phase.isConnected = true) →
      Gains d (fun p => q = p ∧ e.phase.isConnected = true ∧ e.keyPrefix ≠ some q) r
        ((start r).edit d f).reg := by
    intro f hf
    refine Gains.of_edit (t := start r) he ?_ ?_ ?_
    · intro p hlive
      rcases (hf p _).mp hlive with ⟨rfl, hconnected⟩
      by_cases hkey : e.keyPrefix = some q
      · exact Or.inr (liveFor_iff.mpr ⟨hkey, hconnected⟩)
      · exact Or.inl ⟨rfl, hconnected, hkey⟩
    · rintro p ⟨rfl, hconnected, -⟩
      exact (hf q _).mpr ⟨rfl, hconnected⟩
    · rintro p ⟨rfl, -, hkey⟩
      by_contra hlive
      exact hkey (liveFor_iff.mp (by simpa using hlive)).1
  change Gains d _ r ((start r).handleAdvertised io q d).reg
  unfold handleAdvertised
  dsimp only
  split
  · exact hedit _ fun p w => liveFor_advertisedSuppressed w
  · rw [ensure_of_some (t := start r) he]
    exact (hedit _ fun p w => liveFor_advertised w).of_peer fun d' => peer_restoreVerified _ _ _ d'

/-- A device without an entry gets one that is not live. -/
theorem noneNew_advertised (io : Io) {r : Registry} {d : DeviceId} (q : KeyPrefix)
    (rssi : Option Int) (hd : r.peer d = none) (p : KeyPrefix) :
    NoneNew p r (r.handle io (.advertised q d rssi)).reg := by
  change NoneNew p r ((start r).handleAdvertised io q d).reg
  unfold handleAdvertised
  dsimp only
  split
  · rw [edit_of_none (t := start r) hd]
    exact .refl p r
  · rw [ensure_of_none (t := start r) hd]
    intro d' e' he' hlive
    rw [peer_restoreVerified] at he'
    have hnew : ((start r).insertNew d).reg.peer d = some (newEntry r.nextLifecycle d) :=
      peer_insertNew_self (start r) d
    rw [edit_of_some hnew, peer_store hnew, peer_insertNew] at he'
    split at he'
    · obtain rfl := Option.some.inj he'
      have hconnected := ((liveFor_advertised _).mp hlive).2
      cases hconnected
    · exact ⟨e', he', hlive⟩

/-- Pruning is about prefixes, not entries. -/
theorem noneNew_pruneIfGivenUp {p : KeyPrefix} {r : Registry} {t : Turn} {d : DeviceId}
    {before : Option PeerEntry} (h : NoneNew p r t.reg) :
    NoneNew p r (t.pruneIfGivenUp d before).reg := by
  unfold pruneIfGivenUp
  split
  · exact h
  · exact h

/-- The commands that neither verify nor bring an entry to `Connected`. -/
theorem noneNew_command (io : Io) {cmd : PeerCommand} (r : Registry) (hdials : cmd.dials = true)
    (hconnect : ∀ d l channel, cmd ≠ .connectSucceeded d l channel)
    (hadvert : ∀ q d rssi, cmd ≠ .advertised q d rssi) (p : KeyPrefix) :
    NoneNew p r (r.handle io cmd).reg := by
  cases cmd with
  | advertised q d rssi => exact absurd rfl (hadvert q d rssi)
  | connectSucceeded d l channel => exact absurd rfl (hconnect d l channel)
  | sendDatagram d target txGen datagram waker =>
      exact (noneNew_ensure p (start r) d).trans (noneNew_edit fun w => liveFor_of_sendDatagram w)
  | connectFailed d l error =>
      exact noneNew_pruneIfGivenUp (noneNew_edit (t := start r) fun w => liveFor_of_connectFailed w)
  | centralDisconnected d cause =>
      exact noneNew_pruneIfGivenUp
        (noneNew_edit (t := start r) fun w => liveFor_of_centralDisconnected w)
  | verifiedEndpoint endpoint token =>
      have hnone : NoneNew p r ((start r).handleVerifiedEndpoint io endpoint none).reg :=
        noneNew_verifiedEndpoint p
      exact hnone
  | dataPipeReady d txGen handles =>
      exact noneNew_edit (t := start r) fun w => liveFor_of_dataPipeReady w
  | forget d =>
      change NoneNew p r ((start r).handleForget io d).reg
      unfold handleForget
      split
      · exact .refl p r
      · exact noneNew_edit (t := start r) fun w => liveFor_of_forget w
  | _ => cases hdials

theorem verifiedOnce_step {h : List (Registry × Label)} {r r' : Registry} {l : Label}
    (honce : VerifiedOnce h r) (hs : dialling.step l r = some r') :
    VerifiedOnce (h ++ [(r, l)]) r' ↔ Single h r l := by
  simp only [dialling, Option.ite_none_right_eq_some] at hs
  rcases hs with ⟨hdials, hs⟩
  cases l with
  -- the same entries in another order
  | reorder ks =>
      refine iff_of_true ?_ trivial
      exact verifiedOnce_of_noneNew rfl honce fun p => noneNew_of_peer (peer_reorder hs)
  | command io cmd =>
      obtain rfl := Option.some.inj hs
      -- a command that makes nothing live and verifies nothing
      have hquiet : cmd.dials = true → verifies (.command io cmd) = none →
          (∀ d l channel, cmd ≠ .connectSucceeded d l channel) →
          (∀ q d rssi, cmd ≠ .advertised q d rssi) →
          VerifiedOnce (h ++ [(r, .command io cmd)]) (r.handle io cmd).reg := by
        intro hdials hl hconnect hadvert
        exact verifiedOnce_of_noneNew hl honce (noneNew_command io r hdials hconnect hadvert)
      cases cmd with
      | connectSucceeded d lifecycleId channel =>
          -- a success for an unknown device changes nothing
          cases he : r.peer d with
          | none =>
              have hsame : r.handle io (.connectSucceeded d lifecycleId channel) = start r :=
                edit_of_none (t := start r) he
              rw [hsame]
              refine iff_of_true (verifiedOnce_of_noneNew rfl honce fun p => .refl p r) ?_
              intro e he'
              rw [he] at he'
              cases he'
          | some e =>
              rw [(gains_connectSucceeded io lifecycleId channel he).verifiedOnce_iff rfl honce]
              constructor
              · intro hzero e' he' hlife hconnecting p hkey hp
                obtain rfl := Option.some.inj (he.symm.trans he')
                exact hzero p hp ⟨hkey, hlife, hconnecting⟩
              · rintro hsingle p hp ⟨hkey, hlife, hconnecting⟩
                exact hsingle e he hlife hconnecting p hkey hp
      | advertised q d rssi =>
          -- an advertisement of an unknown device makes an entry that is not live
          cases he : r.peer d with
          | none =>
              refine iff_of_true
                (verifiedOnce_of_noneNew rfl honce (noneNew_advertised io q rssi he)) ?_
              intro _ e he'
              rw [he] at he'
              cases he'
          | some e =>
              rw [(gains_advertised io q rssi he).verifiedOnce_iff rfl honce]
              constructor
              · intro hzero hq e' he' hconnected hkey
                obtain rfl := Option.some.inj (he.symm.trans he')
                exact hzero q hq ⟨rfl, hconnected, hkey⟩
              · rintro hsingle p hp ⟨rfl, hconnected, hkey⟩
                exact hsingle hp e he hconnected hkey
      | verifiedEndpoint endpoint token =>
          refine iff_of_true ?_ trivial
          rw [verifiedOnce_iff] at honce ⊢
          rintro p ⟨endpoint', hmem, rfl⟩
          rw [verifiedEndpoints_snoc] at hmem
          rcases List.mem_append.mp hmem with hold | hnew
          · have hnone : NoneNew (prefixFromEndpoint endpoint') r
                ((start r).handleVerifiedEndpoint io endpoint none).reg :=
              noneNew_verifiedEndpoint _
            exact hnone.oneLive (honce _ ⟨endpoint', hold, rfl⟩)
          · -- the prefix that is verified now
            obtain rfl : endpoint' = endpoint := by simpa [verifies] using hnew
            have hone : ((start r).handleVerifiedEndpoint io endpoint' none).reg.OneLive
                (prefixFromEndpoint endpoint') := oneLive_verifiedEndpoint none
            exact hone
      | sendDatagram d target txGen datagram waker =>
          exact iff_of_true (hquiet rfl rfl nofun nofun) trivial
      | connectFailed d l error => exact iff_of_true (hquiet rfl rfl nofun nofun) trivial
      | centralDisconnected d cause => exact iff_of_true (hquiet rfl rfl nofun nofun) trivial
      | dataPipeReady d txGen handles => exact iff_of_true (hquiet rfl rfl nofun nofun) trivial
      | forget d => exact iff_of_true (hquiet rfl rfl nofun nofun) trivial
      | _ => cases hdials

/-- After each command of a run, every endpoint verified so far has at most one `Connected` entry
of its prefix, exactly if no step of the run adds a second one to a verified prefix. -/
theorem single_live_iff {h : List (Registry × Label)} {r : Registry} (hrun : dialling.Run h r) :
    dialling.Always VerifiedOnce h ↔ System.Along Single h := by
  refine hrun.always_iff_along ?_ ?_
  · intro r _ endpoint hmem
    cases hmem
  · intro h r l r' _ honce hs
    exact verifiedOnce_step honce hs

instance (h : List (Registry × Label)) (r : Registry) (l : Label) : Decidable (Single h r l) :=
  match l with
  | .command _ (.connectSucceeded d lifecycleId _) =>
    inferInstanceAs (Decidable (∀ e ∈ r.peer d, e.lifecycleId = lifecycleId →
      e.phase.isConnecting = true → ∀ p ∈ e.keyPrefix, Verified h p → r.connectedForPrefix p = 0))
  | .command _ (.advertised p d _) =>
    inferInstanceAs (Decidable (Verified h p → ∀ e ∈ r.peer d, e.phase.isConnected = true →
      e.keyPrefix ≠ some p → r.connectedForPrefix p = 0))
  | .reorder _ | .command _ (.centralConnected _) | .command _ (.centralDisconnected ..)
  | .command _ (.inboundGattFragment ..) | .command _ (.inboundL2capChannel ..)
  | .command _ (.adapterStateChanged _) | .command _ (.sendDatagram ..) | .command _ (.tick _)
  | .command _ (.connectFailed ..) | .command _ (.openL2capSucceeded ..)
  | .command _ (.openL2capFailed ..) | .command _ (.protocolVersionMismatch ..)
  | .command _ (.stalled ..) | .command _ (.forget _) | .command _ (.dataPipeReady ..)
  | .command _ (.verifiedEndpoint ..) | .command _ (.peripheralClientSubscribed ..)
  | .command _ (.peripheralClientUnsubscribed ..) | .command _ (.l2capHandoverTimeout _)
  | .command _ .shutdown =>
    isTrue trivial

theorem dialling_init (policy : L2capPolicy) (endpoint : EndpointId) :
    dialling.Init (new policy endpoint) := ⟨policy, endpoint, rfl⟩

/-- The peer advertises as `d`, and is dialled. -/
def dialOf (d : DeviceId) (lifecycleId : ℕ) : List Label :=
  [.command (ioAt 0) (.advertised (prefixFromEndpoint peerEndpoint) d none),
    .command (ioAt 1) (.sendDatagram d none 0 [1] 0),
    .command (ioAt 2) (.connectSucceeded d lifecycleId ⟨5, .gatt⟩)]

/-- Two devices are dialled, and then turn out to be one peer. -/
def lateVerification : List Label :=
  dialOf "one" 2 ++ dialOf "two" 4 ++ [.command (ioAt 3) (.verifiedEndpoint peerEndpoint none)]

/-- On a run: two devices are dialled first, and the verification leaves one of them. -/
theorem single_live_lateVerification : ∃ h r, dialling.Run h r ∧ h.map Prod.snd = lateVerification ∧
    verifiedEndpoints h = [peerEndpoint] ∧ dialling.Always VerifiedOnce h := by
  rcases System.Run.of_trace (P := fun h (_ : Registry) => verifiedEndpoints h = [peerEndpoint] ∧
      System.Along Single h)
    lateVerification (dialling_init .disabled localEndpoint) (by decide +kernel) with
    ⟨h, r, hrun, hlabels, hverified, hsingle⟩
  exact ⟨h, r, hrun, hlabels, hverified, (single_live_iff hrun).mpr hsingle⟩

/-- The peer is verified before two of its devices are dialled. -/
def earlyVerification : List Label :=
  .command (ioAt 0) (.verifiedEndpoint peerEndpoint none) :: (dialOf "one" 2 ++ dialOf "two" 4)

/-- Both stay connected. -/
theorem redial_after_verification : ∃ h r, dialling.Run h r ∧
    h.map Prod.snd = earlyVerification ∧ ¬ VerifiedOnce h r := by
  rcases System.Run.of_trace (P := fun h (r : Registry) => peerEndpoint ∈ verifiedEndpoints h ∧
      r.connectedForPrefix (prefixFromEndpoint peerEndpoint) = 2)
    earlyVerification (dialling_init .disabled localEndpoint) (by decide +kernel) with
    ⟨h, r, hrun, hlabels, hverified, htwo⟩
  refine ⟨h, r, hrun, hlabels, ?_⟩
  intro honce
  have hle := honce peerEndpoint hverified
  omega

end Registry

end IrohBle
