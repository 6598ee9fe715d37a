import IrohBle.Registry.Session

/-! # Registry.Command: one command, as the actor runs it

`runCommand` is what `Registry::run` does with a command. What it means for the session of
one device is stated once, as `Turned`: either no pipe is started for the device, and an
entry that is `Connected` afterwards was `Connected` before, in the same generation; or the
command starts one pipe, and that pipe is for the entry's generation.
-/

namespace IrohBle

open Lib Reliable Registry

theorem PeerPhase.isConnected_iff_liveGen {phase : PeerPhase} :
    phase.isConnected = true ↔ phase.liveGen? ≠ none := by
  cases phase <;> simp [PeerPhase.isConnected, PeerPhase.liveGen?]

/-- What a function keeps was live before. -/
theorem Kept.isConnected {w w' : Edit} (h : Kept w w')
    (hc : w'.entry.phase.isConnected = true) : w.entry.phase.isConnected = true := by
  rw [PeerPhase.isConnected_iff_liveGen] at hc ⊢
  rcases h.live with hl | hl
  · rw [← hl]
    exact hc
  · exact absurd hl hc

namespace Registry

/-- Every entry is filed under its own device. -/
def Keyed (r : Registry) : Prop := ∀ d e, r.peer d = some e → e.deviceId = d

end Registry

/-- A session started in a new entry. -/
theorem Turn.TouchFresh.session {io : Io} {cmd : PeerCommand} {d : DeviceId} {f : Edit → Edit}
    (hf : TouchFresh io cmd d f) {w : Edit} (hw : w.entry.txGen = 0) : Session w (f w) := by
  cases hf with
  | fragment =>
      refine .started ⟨rfl, ?_, rfl, .peripheral, .gatt, none, by simp, ?_⟩
      · rw [hw]
        rfl
      · simp [Edit.inboundGattFragmentFresh]
  | @inboundL2capChannel d channel =>
      refine .started ⟨rfl, ?_, rfl, .peripheral, .l2cap, some channel, by simp, ?_⟩
      · rw [hw]
        rfl
      · simp [Edit.inboundL2capChannelFresh]

/-- Whatever happens to the session, the entry stays that of its device. -/
theorem Session.deviceId {w w' : Edit} (h : Session w w') : w'.entry.deviceId = w.entry.deviceId := by
  cases h with
  | kept h => exact h.deviceId
  | started h => exact h.deviceId

/-- The device a pipe is started for. -/
def PeerAction.device? : PeerAction → Option DeviceId
  | .startDataPipe d .. => some d
  | _ => none

namespace Turn

/-- The pipes a turn has started so far. -/
def starts (t : Turn) : List PeerAction := t.actions.filter PeerAction.isStartDataPipe

variable {io : Io} {cmd : PeerCommand} {t t' : Turn}

/-- A command that may not start a pipe starts none, in any of its steps. -/
theorem starts_step (hcmd : cmd.mayStart = false) (h : Step io cmd t t') : t'.starts = t.starts := by
  cases h with
  | edit he hf => exact (hf.kept hcmd _).starts
  | insert _ hd => rfl
  | fresh hd hf => cases hf <;> cases hcmd
  | verify p endpoint => rfl
  | prune => rfl
  | gcDead h => rfl
  | adapter state => rfl
  | restore b => simp [starts, push, PeerAction.isStartDataPipe]

theorem starts_steps (hcmd : cmd.mayStart = false) (h : Steps io cmd t t') :
    t'.starts = t.starts := by
  induction h with
  | refl => rfl
  | tail _ hs ih => exact (starts_step hcmd hs).trans ih

/-- The live session of `d` in `r'` is the one it was in `r`. -/
def Survives (r r' : Registry) (d : DeviceId) : Prop :=
  ∀ e', r'.peer d = some e' → e'.phase.isConnected = true →
    ∃ e, r.peer d = some e ∧ e.phase.isConnected = true ∧ e'.txGen = e.txGen

theorem Survives.refl (r : Registry) (d : DeviceId) : Survives r r d :=
  fun e he hc => ⟨e, he, hc, rfl⟩

/-- The generation is compared step by step. -/
theorem Survives.trans {r r₁ r' : Registry} {d : DeviceId} (h₁ : Survives r r₁ d)
    (h₂ : Survives r₁ r' d) : Survives r r' d := by
  intro e' he' hc'
  rcases h₂ e' he' hc' with ⟨e₁, he₁, hc₁, hg₁⟩
  rcases h₁ e₁ he₁ hc₁ with ⟨e, he, hc, hg⟩
  exact ⟨e, he, hc, hg₁.trans hg⟩

/-- The entry was not touched. -/
theorem Survives.of_peer {r r' : Registry} {d : DeviceId} (h : r'.peer d = r.peer d) :
    Survives r r' d := by
  intro e' he' hc'
  rw [h] at he'
  exact ⟨e', he', hc', rfl⟩

/-- A fresh entry is not `Connected`. -/
theorem survives_insertNew (t : Turn) (d d' : DeviceId) :
    Survives t.reg (t.insertNew d).reg d' := by
  intro e' he' hc'
  rw [peer_insertNew] at he'
  split at he'
  · obtain rfl := Option.some.inj he'
    cases hc'
  · exact ⟨e', he', hc', rfl⟩

/-- A function that keeps the session keeps it in the registry. -/
theorem survives_store {d d' : DeviceId} {e : PeerEntry} {f : Edit → Edit}
    (he : t.reg.peer d = some e) (hf : Kept (t.focus e) (f (t.focus e))) :
    Survives t.reg (t.store d (f (t.focus e))).reg d' := by
  intro e' he' hc'
  rw [peer_store he] at he'
  split at he'
  · rename_i hd
    subst hd
    obtain rfl := Option.some.inj he'
    exact ⟨e, he, hf.isConnected hc', hf.txGen⟩
  · exact ⟨e', he', hc', rfl⟩

/-- A command that starts no pipe makes no session. -/
theorem survives_step (hcmd : cmd.mayStart = false) (h : Step io cmd t t') (d : DeviceId) :
    Survives t.reg t'.reg d := by
  cases h with
  | edit he hf => exact survives_store he (hf.kept hcmd _)
  | insert _ hd => exact survives_insertNew t _ d
  | fresh hd hf => cases hf <;> cases hcmd
  | verify p endpoint => exact .of_peer rfl
  | prune => exact .of_peer rfl
  | gcDead h =>
      intro e' he' hc'
      exact ⟨e', peer_gcDead he', hc', rfl⟩
  | adapter state => exact .of_peer rfl
  | restore b => exact .of_peer rfl

theorem survives_steps (hcmd : cmd.mayStart = false) (h : Steps io cmd t t') (d : DeviceId) :
    Survives t.reg t'.reg d := by
  induction h with
  | refl => exact .refl _ _
  | tail _ hs ih => exact ih.trans (survives_step hcmd hs d)

/-! ## Entries stay under their device -/

/-- A fresh entry is stored under its own device id. -/
theorem keyed_insertNew (hk : t.reg.Keyed) (d : DeviceId) : (t.insertNew d).reg.Keyed := by
  intro d' e' he'
  rw [peer_insertNew] at he'
  split at he'
  · rename_i hd
    obtain rfl := Option.some.inj he'
    exact hd.symm
  · exact hk d' e' he'

/-- No step moves an entry to another device. -/
theorem keyed_step (hk : t.reg.Keyed) (h : Step io cmd t t') : t'.reg.Keyed := by
  intro d
  refine h.all (fun n => rfl) ?_ ?_ (hk d)
  · intro f w hf hw
    exact (hf.session w).deviceId.trans hw
  · intro f w n hf hw
    have hfresh : w.entry.txGen = 0 := by
      rw [hw]
      rfl
    have hdevice : w.entry.deviceId = d := by
      rw [hw]
      rfl
    exact (hf.session hfresh).deviceId.trans hdevice

/-- A whole command keeps every entry under its device. -/
theorem keyed_steps (hk : t.reg.Keyed) (h : Steps io cmd t t') : t'.reg.Keyed := by
  induction h with
  | refl => exact hk
  | tail _ hs ih => exact keyed_step ih hs

/-! ## Commands that may start a pipe -/

/-- What a turn has done to the session of `d` since it was at `r`. -/
inductive Turned (r : Registry) (t : Turn) (d : DeviceId) : Prop where
  | kept (starts : ∀ a ∈ t.starts, a.device? ≠ some d) (survives : Survives r t.reg d)
  | started {e : PeerEntry} {l : ℕ} {role : ConnectRole} {target : Option EndpointId}
      {path : ConnectPath} {l2cap : Option L2capChannel} (he : t.reg.peer d = some e)
      (starts : t.starts = [.startDataPipe d l e.txGen role target path l2cap])
      (channel : path = .l2cap → l2cap.isSome = true)

/-- Every pipe is for some device, and a device gets at most one. -/
theorem Turned.starts_le_one {r : Registry} {t : Turn} (h : ∀ d, Turned r t d) :
    t.starts.length ≤ 1 := by
  cases hs : t.starts with
  | nil => exact Nat.zero_le _
  | cons a as =>
      have hstart : a.isStartDataPipe = true := by
        have hmem : a ∈ t.starts := by
          rw [hs]
          exact List.mem_cons_self
        exact (List.mem_filter.mp hmem).2
      cases a with
      | startDataPipe d l g role target path l2cap =>
          cases h d with
          | kept hno _ =>
              rw [hs] at hno
              exact absurd rfl (hno _ List.mem_cons_self)
          | started _ hone _ =>
              rw [← hs, hone]
              exact Nat.le_refl 1
      | _ => cases hstart

/-- A command that edits one entry, which keeps its session or starts the next one. -/
theorem turned_edit {r : Registry} {d : DeviceId} {f : Edit → Edit} (d' : DeviceId)
    (hkeyed : t.reg.Keyed) (hstarts : t.starts = []) (hsurvives : ∀ d', Survives r t.reg d')
    (hf : ∀ e, t.reg.peer d = some e → Session (t.focus e) (f (t.focus e))) :
    Turned r (t.edit d f) d' := by
  cases he : t.reg.peer d with
  | none =>
      rw [edit_of_none he]
      refine .kept ?_ (hsurvives d')
      simp [hstarts]
  | some e =>
      rw [edit_of_some he]
      -- the entry is there: its session goes on, or the next one is started
      cases hf e he with
      | kept hk =>
          refine .kept ?_ ((hsurvives d').trans (survives_store he hk))
          have hs : (t.store d (f (t.focus e))).starts = [] := hk.starts.trans hstarts
          simp [hs]
      | started hst =>
          rcases hst.starts with ⟨role, path, l2cap, hch, hs⟩
          have hs' : (t.store d (f (t.focus e))).starts = (f (t.focus e)).starts := rfl
          have hfocus : (t.focus e).starts = [] := hstarts
          -- the pipe is started for the entry's own device
          have hdev : (f (t.focus e)).entry.deviceId = d := hst.deviceId.trans (hkeyed d e he)
          rw [hfocus, List.nil_append, hdev] at hs
          by_cases hd : d' = d
          · subst hd
            have hpeer : (t.store d' (f (t.focus e))).reg.peer d' = some (f (t.focus e)).entry := by
              rw [peer_store he, if_pos rfl]
            exact .started hpeer (hs'.trans hs) hch
          · refine .kept ?_ ((hsurvives d').trans (.of_peer ?_))
            · rw [hs', hs]
              simpa [PeerAction.device?] using Ne.symm hd
            · rw [peer_store he, if_neg hd]

end Turn

namespace Registry

open Turn

section Fresh

variable {r : Registry} {io : Io} {d : DeviceId} {e : PeerEntry}

/-- The handler of a fragment, for a device without an entry. -/
theorem handle_fragment_of_none {source : FragmentSource} {bytes : Bytes} (hd : r.peer d = none) :
    r.handle io (.inboundGattFragment d source bytes) =
      ((start r).ensure d).edit d (Edit.inboundGattFragmentFresh io.now bytes) := by
  change handleInboundGattFragment io d source bytes (start r) = _
  unfold handleInboundGattFragment
  rw [show (start r).reg.peer d = none from hd]

/-- The handler of a fragment, for a known device. -/
theorem handle_fragment_of_some {source : FragmentSource} {bytes : Bytes} (hd : r.peer d = some e) :
    r.handle io (.inboundGattFragment d source bytes) =
      (start r).edit d (Edit.inboundGattFragment io source bytes) := by
  change handleInboundGattFragment io d source bytes (start r) = _
  unfold handleInboundGattFragment
  rw [show (start r).reg.peer d = some e from hd]

/-- The handler of an accepted channel, for a device without an entry. -/
theorem handle_l2cap_of_none {channel : L2capChannel} (hd : r.peer d = none) :
    r.handle io (.inboundL2capChannel d channel) =
      ((start r).ensure d).edit d (Edit.inboundL2capChannelFresh io.now channel) := by
  change handleInboundL2capChannel io d channel (start r) = _
  unfold handleInboundL2capChannel
  rw [show (start r).reg.peer d = none from hd]

/-- The handler of an accepted channel, for a known device. -/
theorem handle_l2cap_of_some {channel : L2capChannel} (hd : r.peer d = some e) :
    r.handle io (.inboundL2capChannel d channel) =
      (start r).edit d (Edit.inboundL2capChannel io.now channel) := by
  change handleInboundL2capChannel io d channel (start r) = _
  unfold handleInboundL2capChannel
  rw [show (start r).reg.peer d = some e from hd]

end Fresh

theorem handle_turned {r : Registry} (hk : r.Keyed) (io : Io) (cmd : PeerCommand) (d : DeviceId) :
    Turned r (r.handle io cmd) d := by
  by_cases hcmd : cmd.mayStart = true
  · -- six commands may start a pipe: each of them edits one entry, an old or a fresh one
    have hedit : ∀ {d₀ : DeviceId} {f : Edit → Edit}, (∀ e, Touch io cmd d₀ e f) →
        Turned r ((start r).edit d₀ f) d := fun hf =>
      turned_edit d hk rfl (fun d' => .refl r d') fun e _ => (hf e).session _
    have hfresh : ∀ {d₀ : DeviceId} {f : Edit → Edit}, TouchFresh io cmd d₀ f →
        r.peer d₀ = none → Turned r (((start r).ensure d₀).edit d₀ f) d := by
      intro d₀ f hf hd
      rw [ensure_of_none (t := start r) hd]
      refine turned_edit d (keyed_insertNew (t := start r) hk d₀) rfl
        (survives_insertNew (start r) d₀) fun e he => ?_
      rw [peer_insertNew, if_pos rfl] at he
      obtain rfl := Option.some.inj he
      exact hf.session rfl
    cases cmd with
    | connectSucceeded d₀ l channel => exact hedit fun e => .connectSucceeded (failed_of_wantsUpgrade _ d₀)
    | openL2capSucceeded d₀ l u channel => exact hedit fun e => .openL2capSucceeded
    | openL2capFailed d₀ l u error => exact hedit fun e => .openL2capFailed
    | inboundGattFragment d₀ source bytes =>
        cases hd : r.peer d₀ with
        | none =>
            rw [handle_fragment_of_none hd]
            exact hfresh .fragment hd
        | some e =>
            rw [handle_fragment_of_some hd]
            exact hedit fun e => .fragment
    | inboundL2capChannel d₀ channel =>
        cases hd : r.peer d₀ with
        | none =>
            rw [handle_l2cap_of_none hd]
            exact hfresh .inboundL2capChannel hd
        | some e =>
            rw [handle_l2cap_of_some hd]
            exact hedit fun e => .inboundL2capChannel
    | peripheralClientSubscribed d₀ c p =>
        -- the entry is made first, which is a step of any command
        have hsteps : Steps io (.centralConnected d₀) (start r) ((start r).ensure d₀) :=
          Steps.ensure rfl d₀
        exact turned_edit d (keyed_steps hk hsteps) (starts_steps rfl hsteps)
          (survives_steps rfl hsteps) fun e _ => .peripheralClientSubscribed _ _ _ _ _
    | _ => cases hcmd
  · -- no other command starts one, so every session survives it
    have hsteps := handle_steps io cmd r
    have hcmd' : cmd.mayStart = false := by simpa using hcmd
    refine .kept ?_ (survives_steps hcmd' hsteps d)
    rw [starts_steps hcmd' hsteps]
    simp [starts, start]

/-- One command as `Registry::run` treats it: what `VerifiedEndpoint` looks up in the
routing table is the device of the pipe that carried the handshake, and the device its
prefix pointed to before. -/
def runCommand (io : Io) (exact replaced : Option DeviceId) (cmd : PeerCommand) (r : Registry) :
    Turn :=
  match cmd with
  | .verifiedEndpoint endpoint _ =>
    let t := match exact, replaced with
      | some _, some previous => r.handle io (.forget previous)
      | _, _ => start r
    t.handleVerifiedEndpoint io endpoint exact
  | cmd => r.handle io cmd

/-- The lookups before the handler are for `VerifiedEndpoint` alone. -/
theorem runCommand_of_ne {io : Io} {exact replaced : Option DeviceId} {cmd : PeerCommand}
    {r : Registry} (h : ∀ endpoint token, cmd ≠ .verifiedEndpoint endpoint token) :
    r.runCommand io exact replaced cmd = r.handle io cmd := by
  cases cmd with
  | verifiedEndpoint endpoint token => exact absurd rfl (h endpoint token)
  | _ => rfl

/-- A whole turn, with its lookups: a `Forget` that runs first starts nothing. -/
theorem runCommand_turned {r : Registry} (hk : r.Keyed) (io : Io) (exact replaced : Option DeviceId)
    (cmd : PeerCommand) (d : DeviceId) : Turned r (r.runCommand io exact replaced cmd) d := by
  by_cases hv : ∃ endpoint token, cmd = .verifiedEndpoint endpoint token
  · rcases hv with ⟨endpoint, token, rfl⟩
    unfold runCommand
    dsimp only
    have hverify : ∀ t : Turn, t.starts = [] → Survives r t.reg d →
        Turned r (t.handleVerifiedEndpoint io endpoint exact) d := by
      intro t hs hsurv
      have hsteps : Steps io (.verifiedEndpoint endpoint token) t _ :=
        handleVerifiedEndpoint_steps exact
      refine .kept ?_ (hsurv.trans (survives_steps rfl hsteps d))
      rw [starts_steps rfl hsteps, hs]
      simp
    split
    · rename_i d₀ previous
      have hsteps := handle_steps io (.forget previous) r
      exact hverify _ (starts_steps rfl hsteps) (survives_steps rfl hsteps d)
    · exact hverify _ rfl (.refl r d)
  · rw [runCommand_of_ne fun endpoint token h => hv ⟨endpoint, token, h⟩]
    exact handle_turned hk io cmd d

/-- The entries stay under their devices. -/
theorem runCommand_keyed {r : Registry} (hk : r.Keyed) (io : Io) (exact replaced : Option DeviceId)
    (cmd : PeerCommand) : (r.runCommand io exact replaced cmd).reg.Keyed := by
  by_cases hv : ∃ endpoint token, cmd = .verifiedEndpoint endpoint token
  · rcases hv with ⟨endpoint, token, rfl⟩
    unfold runCommand
    dsimp only
    have hverify : ∀ t : Turn, t.reg.Keyed →
        (t.handleVerifiedEndpoint io endpoint exact).reg.Keyed := by
      intro t ht
      have hsteps : Steps io (.verifiedEndpoint endpoint token) t _ :=
        handleVerifiedEndpoint_steps exact
      exact keyed_steps ht hsteps
    split
    · exact hverify _ (keyed_steps hk (handle_steps io _ r))
    · exact hverify _ hk
  · rw [runCommand_of_ne fun endpoint token h => hv ⟨endpoint, token, h⟩]
    exact keyed_steps hk (handle_steps io cmd r)

theorem starts_le_one {r : Registry} (hk : r.Keyed) (io : Io) (exact replaced : Option DeviceId)
    (cmd : PeerCommand) : (r.runCommand io exact replaced cmd).starts.length ≤ 1 :=
  Turned.starts_le_one fun d => runCommand_turned hk io exact replaced cmd d

/-- Another iteration order changes no entry. -/
theorem peer_reorder {r r' : Registry} {ks : List DeviceId} (h : step (.reorder ks) r = some r')
    (d : DeviceId) : r'.peer d = r.peer d := by
  simp only [step] at h
  split at h
  · rename_i hperm
    obtain rfl := Option.some.inj h
    exact Map.lookup_reorder hperm d
  · cases h

/-- The order of the map has no part in it. -/
theorem keyed_reorder {r r' : Registry} {ks : List DeviceId} (hk : r.Keyed)
    (h : step (.reorder ks) r = some r') : r'.Keyed := by
  intro d e he
  rw [peer_reorder h] at he
  exact hk d e he

theorem keyed_new (policy : L2capPolicy) (endpoint : EndpointId) : (new policy endpoint).Keyed :=
  fun _ _ h => nomatch h

end Registry

end IrohBle
