import IrohBle.Registry.Dedup
import IrohBle.Registry.FailedDial

/-! # Registry.Dormant: entries that wait

Two kinds of entries are meant to sit still. While the adapter is off its peers are
`Restoring`, and only the adapter coming back, the timeout or a `Forget` should end that. A
tombstone of a peer that was forgotten or speaks another protocol is `Dead` until it is
collected, or until the peer itself opens a session. Most handlers look for a live phase
and leave such entries alone (`Touch.dormant`); a few take every phase without a link for a
link that has just gone.

* `restoring_iff`: a command leaves the `Restoring` entries to the adapter exactly if it is
  none of these, and then every peer is `Reconnecting` once the adapter is back.
* `tombstone_stays`: a tombstone is not dialled as long as no disconnect of its device and
  no power loss reaches it.
-/

namespace IrohBle

open Lib Reliable Registry

/-- The entry waits for the adapter. -/
def PeerPhase.isRestoring : PeerPhase → Bool
  | .restoring _ => true
  | _ => false

/-- A tombstone that an advertisement must not override. -/
def PeerPhase.isTombstone : PeerPhase → Bool
  | .dead .forgotten _ => true
  | .dead (.protocolMismatch ..) _ => true
  | _ => false

/-- Either kind of entry that is to sit still. -/
def PeerPhase.isDormant (phase : PeerPhase) : Bool := phase.isRestoring || phase.isTombstone

namespace PeerCommand

/-- The commands that move a dormant entry `e` of `d` to another phase. -/
def wakes (d : DeviceId) (e : PeerEntry) : PeerCommand → Bool
  | .centralDisconnected d' _ => decide (d' = d)
  | .peripheralClientSubscribed d' _ _ => decide (d' = d)
  | .inboundL2capChannel d' _ => decide (d' = d) && e.pipe.isNone
  | .inboundGattFragment d' _ _ => decide (d' = d) && !e.phase.isRestoring
  | .protocolVersionMismatch d' l _ _ => decide (d' = d) && decide (l = e.lifecycleId)
  | .forget d' => decide (d' = d)
  | .adapterStateChanged _ => true
  | .tick tickNow =>
    match e.phase with
    | .restoring since => decide (tickNow - since > restoringTimeout)
    | _ => false
  | _ => false

end PeerCommand

namespace Edit

theorem noteSubscriber_phase (w : Edit) (now : ℕ) (c : Uuid) (p : Option KeyPrefix)
    (verified : Option EndpointId) :
    (w.noteSubscriber now c p verified).entry.phase = w.entry.phase := by
  rcases noteSubscriber_entry w now c p verified with ⟨_, _, _, _, he⟩
  rw [he]

end Edit

/-- The two kinds of dormant phases. -/
theorem PeerPhase.isDormant_cases {phase : PeerPhase} (h : phase.isDormant = true) :
    (∃ since, phase = .restoring since) ∨ ∃ reason at', phase = .dead reason at' ∧
      phase.isRevivable = false := by
  cases phase with
  | restoring since => exact Or.inl ⟨since, rfl⟩
  | dead reason at' =>
      refine Or.inr ⟨reason, at', rfl, ?_⟩
      cases reason with
      | forgotten => rfl
      | protocolMismatch got want => rfl
      | maxRetries => cases h
      | drained => cases h
  | _ => cases h

namespace Turn

/-- A tick decides nothing for a dormant entry before the timeout. -/
theorem tickDecision_dormant (io : Io) {tickNow : ℕ} {d : DeviceId} {e : PeerEntry}
    (hd : e.phase.isDormant = true) (hwake : PeerCommand.wakes d e (.tick tickNow) = false) :
    Edit.tickDecision io tickNow e = none := by
  rcases PeerPhase.isDormant_cases hd with ⟨since, hp⟩ | ⟨reason, diedAt, hp, -⟩
  · simp only [PeerCommand.wakes, hp, decide_eq_false_iff_not] at hwake
    simp only [Edit.tickDecision, hp, if_neg hwake]
  · simp only [Edit.tickDecision, hp]

/-- An advertisement revives neither kind. -/
theorem advertised_dormant {w : Edit} (hd : w.entry.phase.isDormant = true) (now : ℕ)
    (p : KeyPrefix) (deferPrefix : Option KeyPrefix) :
    (w.advertised now p deferPrefix).entry.phase = w.entry.phase := by
  rcases PeerPhase.isDormant_cases hd with ⟨since, hp⟩ | ⟨reason, diedAt, hp, hrev⟩
  · simp only [Edit.advertised, Edit.modify_entry, hp]
  · -- the two reasons that an advertisement outranks are not those of a tombstone
    rw [hp] at hrev
    cases reason with
    | maxRetries => cases hrev
    | drained => cases hrev
    | forgotten => simp only [Edit.advertised, Edit.modify_entry, hp]
    | protocolMismatch got want => simp only [Edit.advertised, Edit.modify_entry, hp]

/-- A function run on a dormant entry leaves its phase alone, unless the command is one of
those that wake it. -/
theorem Touch.dormant {io : Io} {cmd : PeerCommand} {d : DeviceId} {w : Edit} {f : Edit → Edit}
    (hf : Touch io cmd d w.entry f) (hd : w.entry.phase.isDormant = true)
    (hwake : cmd.wakes d w.entry = false) : (f w).entry.phase = w.entry.phase := by
  have hphase := PeerPhase.isDormant_cases hd
  cases hf with
  | stampExact => rfl
  | stampVerified _ => rfl
  -- neither kind is about to be dialled, is live, or can be upgraded
  | cancelDial h =>
      rcases hphase with ⟨since, hp⟩ | ⟨reason, diedAt, hp, -⟩ <;> simp [isPendingDialFor, hp] at h
  | drainLoser h =>
      rcases hphase with ⟨since, hp⟩ | ⟨reason, diedAt, hp, -⟩ <;>
        simp [liveFor, hp, PeerPhase.isConnected] at h
  | requestUpgrade _ _ h =>
      rcases hphase with ⟨since, hp⟩ | ⟨reason, diedAt, hp, -⟩ <;> simp [isUpgradable, hp] at h
  | subscribed => simp [PeerCommand.wakes] at hwake
  | unsubscribed =>
      rcases hphase with ⟨since, hp⟩ | ⟨reason, diedAt, hp, -⟩ <;>
        simp [Edit.peripheralClientUnsubscribed, hp, PeerPhase.isConnected,
          PeerPhase.isHandshaking]
  | advertisedSuppressed => rfl
  | advertised => exact advertised_dormant hd _ _ _
  | sendDatagram =>
      rcases hphase with ⟨since, hp⟩ | ⟨reason, diedAt, hp, -⟩ <;>
        simp [Edit.sendDatagram, Edit.sendDecision, hp, Edit.buffer]
  | connectSucceeded _ =>
      rcases hphase with ⟨since, hp⟩ | ⟨reason, diedAt, hp, -⟩ <;>
        simp [Edit.connectSucceeded, hp, PeerPhase.isConnecting]
  | connectFailed =>
      rcases hphase with ⟨since, hp⟩ | ⟨reason, diedAt, hp, -⟩ <;> simp [Edit.connectFailed, hp]
  -- a fragment is dropped while the adapter is off, and opens a session otherwise
  | fragment =>
      rcases hphase with ⟨since, hp⟩ | ⟨reason, diedAt, hp, -⟩
      · simp [Edit.inboundGattFragment, hp]
      · simp [PeerCommand.wakes, PeerPhase.isRestoring, hp] at hwake
  | centralDisconnected => simp [PeerCommand.wakes] at hwake
  | adapterOff => cases hwake
  | adapterOn => cases hwake
  | tick h =>
      rw [tickDecision_dormant _ hd hwake] at h
      cases h
  | forget => simp [PeerCommand.wakes] at hwake
  | stalled =>
      rcases hphase with ⟨since, hp⟩ | ⟨reason, diedAt, hp, -⟩ <;> simp [Edit.stalled, hp]
  | shutdown => rfl
  | dataPipeReady => exact Edit.dataPipeReady_phase w io _ _
  | openL2capSucceeded =>
      rcases hphase with ⟨since, hp⟩ | ⟨reason, diedAt, hp, -⟩ <;>
        simp [Edit.openL2capSucceeded, hp]
  | openL2capFailed =>
      rcases hphase with ⟨since, hp⟩ | ⟨reason, diedAt, hp, -⟩ <;> simp [Edit.openL2capFailed, hp]
  | inboundL2capChannel =>
      cases hpipe : w.entry.pipe with
      | none => simp [PeerCommand.wakes, hpipe] at hwake
      | some handles =>
          rcases hphase with ⟨since, hp⟩ | ⟨reason, diedAt, hp, -⟩ <;>
            simp [Edit.inboundL2capChannel, hpipe, hp]
  | protocolVersionMismatch =>
      unfold Edit.protocolVersionMismatch
      rw [if_pos]
      intro heq
      simp [PeerCommand.wakes, heq] at hwake
  | handoverTimeout =>
      rcases hphase with ⟨since, hp⟩ | ⟨reason, diedAt, hp, -⟩ <;>
        simp [Edit.l2capHandoverTimeout, Edit.setPath, hp]

/-- A tick leaves a dormant entry alone, or collects an expired tombstone. -/
theorem peer_handleTick_dormant (io : Io) {t : Turn} {tickNow : ℕ} {d : DeviceId} {e : PeerEntry}
    (he : t.reg.peer d = some e) (hd : e.phase.isDormant = true)
    (hwake : PeerCommand.wakes d e (.tick tickNow) = false) :
    (∀ e', (t.handleTick io tickNow).reg.peer d = some e' → e' = e) ∧
      (e.phase.isRestoring = true → (t.handleTick io tickNow).reg.peer d = some e) := by
  unfold handleTick
  dsimp only
  have hloop := peer_tickLoop he (tickDecision_dormant io hd hwake)
  generalize List.foldl _ t _ = t₁ at hloop ⊢
  constructor
  · intro e' he'
    have hgc : t₁.reg.peer d = some e' := peer_gcDead he'
    exact Option.some.inj (hgc.symm.trans hloop)
  · intro hres
    refine (Map.lookup_retain _ _ _ _).mpr ⟨hloop, ?_⟩
    cases hp : e.phase with
    | dead reason diedAt =>
        rw [hp] at hres
        cases hres
    | _ => rfl

end Turn

namespace Registry

open Turn

/-- A command that does not wake a dormant entry leaves it in its phase; only a tombstone
may be collected. -/
theorem handle_dormant {r : Registry} (io : Io) {cmd : PeerCommand} {d : DeviceId} {e : PeerEntry}
    (hset : r.Settled) (he : r.peer d = some e) (hd : e.phase.isDormant = true)
    (hwake : cmd.wakes d e = false) :
    (∀ e', (r.handle io cmd).reg.peer d = some e' → e'.phase = e.phase) ∧
      (e.phase.isRestoring = true → ((r.handle io cmd).reg.peer d).isSome = true) := by
  have hsteps := handle_steps io cmd r
  by_cases htick : ∃ tickNow, cmd = .tick tickNow
  · rcases htick with ⟨tickNow, rfl⟩
    rcases peer_handleTick_dormant io (t := start r) he hd hwake with ⟨hall, hkeep⟩
    constructor
    · intro e' he'
      rw [hall e' he']
    · intro hres
      exact Option.isSome_iff_exists.mpr ⟨e, hkeep hres⟩
  · have hno : cmd.isTick = false := by
      cases cmd with
      | tick tickNow => exact absurd ⟨tickNow, rfl⟩ htick
      | _ => rfl
    refine ⟨?_, fun _ => hsteps.present hno (Option.isSome_iff_exists.mpr ⟨e, he⟩)⟩
    intro e' he'
    by_cases hv : ∃ endpoint token, cmd = .verifiedEndpoint endpoint token
    · -- several functions may run on the entry, none of which sees a phase it looks for
      rcases hv with ⟨endpoint, token, rfl⟩
      refine hsteps.track_entry (Q := fun e₁ => e₁.phase = e.phase) ?_ he he' rfl
      intro w f hf hw
      rw [← hw] at hd
      exact (hf.dormant hd rfl).trans hw
    · have honce : Once io cmd d e (r.handle io cmd) :=
        handle_entry hset (fun endpoint token heq => hv ⟨endpoint, token, heq⟩) he
      rcases honce e' he' with rfl | ⟨f, w, rfl, hf, rfl, -⟩
      · rfl
      · exact hf.dormant hd hwake

end Registry

/-! ## While the adapter is off -/

namespace PeerCommand

/-- What may end the `Restoring` of `d`, entered at `since`. -/
def releases (d : DeviceId) (since : ℕ) : PeerCommand → Bool
  | .adapterStateChanged powered => powered
  | .tick tickNow => decide (tickNow - since > restoringTimeout)
  | .forget d' => decide (d' = d)
  | _ => false

/-- The commands that end it although the adapter is off. -/
def disturbs (d : DeviceId) (e : PeerEntry) : PeerCommand → Bool
  | .centralDisconnected d' _ => decide (d' = d)
  | .peripheralClientSubscribed d' _ _ => decide (d' = d)
  | .inboundL2capChannel d' _ => decide (d' = d) && e.pipe.isNone
  | .protocolVersionMismatch d' l _ _ => decide (d' = d) && decide (l = e.lifecycleId)
  | _ => false

/-- Apart from what releases or disturbs it, only another power loss touches a restoring entry. -/
theorem wakes_restoring {d : DeviceId} {e : PeerEntry} {since : ℕ} {cmd : PeerCommand}
    (hp : e.phase = .restoring since) (hrel : cmd.releases d since = false)
    (hdis : cmd.disturbs d e = false) :
    cmd.wakes d e = false ∨ cmd = .adapterStateChanged false := by
  cases cmd with
  | adapterStateChanged powered =>
      simp only [releases] at hrel
      exact Or.inr (by rw [hrel])
  | inboundGattFragment d' source bytes =>
      exact Or.inl (by simp [wakes, hp, PeerPhase.isRestoring])
  | tick tickNow => exact Or.inl (by simpa [wakes, hp, releases] using hrel)
  | forget d' => exact Or.inl hrel
  | centralDisconnected d' cause => exact Or.inl hdis
  | peripheralClientSubscribed d' c p => exact Or.inl hdis
  | inboundL2capChannel d' channel => exact Or.inl hdis
  | protocolVersionMismatch d' l got want => exact Or.inl hdis
  | _ => exact Or.inl rfl

end PeerCommand

namespace Registry

open Turn

/-- `cmd` leaves every `Restoring` entry to what may end it. -/
def KeepsRestoring (r : Registry) (io : Io) (cmd : PeerCommand) : Prop :=
  ∀ d e since, r.peer d = some e → e.phase = .restoring since → cmd.releases d since = false →
    ∃ e' since', (r.handle io cmd).reg.peer d = some e' ∧ e'.phase = .restoring since'

/-- No `Restoring` entry is disturbed. -/
def Undisturbed (r : Registry) (cmd : PeerCommand) : Prop :=
  ∀ d e, r.peer d = some e → e.phase.isRestoring = true → cmd.disturbs d e = false

section Adapter

variable {r : Registry} {d : DeviceId} {e : PeerEntry}

theorem mem_keys_of_peer (he : r.peer d = some e) : d ∈ r.peers.keys :=
  AList.mem_keys.mp (AList.lookup_isSome.mp (Option.isSome_iff_exists.mpr ⟨e, he⟩))

/-- Whatever the phase was, the entry waits for the adapter from now on, with the pipe it had. -/
theorem handle_adapterOff (io : Io) (he : r.peer d = some e) :
    ∃ e', (r.handle io (.adapterStateChanged false)).reg.peer d = some e' ∧
      e'.phase = .restoring io.now ∧ e'.pipe = e.pipe := by
  rcases peer_editAll_mem (t := (start r).setAdapterState .poweredOff) (f := Edit.adapterOff io.now)
    (AList.keys_nodup r.peers) (mem_keys_of_peer he) he with ⟨w, rfl, hw⟩
  exact ⟨_, hw, rfl, rfl⟩

/-- A waiting entry is dialled again. -/
theorem handle_adapterOn (io : Io) {since : ℕ} (he : r.peer d = some e)
    (hp : e.phase = .restoring since) :
    ∃ e', (r.handle io (.adapterStateChanged true)).reg.peer d = some e' ∧
      e'.phase = .reconnecting 0 io.now .adapterOff := by
  rcases peer_editAll_mem (t := (start r).setAdapterState .poweredOn) (f := Edit.adapterOn io.now)
    (AList.keys_nodup r.peers) (mem_keys_of_peer he) he with ⟨w, rfl, hw⟩
  refine ⟨_, hw, ?_⟩
  simp [Edit.adapterOn, hp]

/-- A command that disturbs an entry takes it out of `Restoring`. -/
theorem handle_disturbed (io : Io) {cmd : PeerCommand} (he : r.peer d = some e)
    (hres : e.phase.isRestoring = true) (hdis : cmd.disturbs d e = true) :
    ∃ e', (r.handle io cmd).reg.peer d = some e' ∧ e'.phase.isRestoring = false := by
  have hd : e.phase.isDormant = true := by simp [PeerPhase.isDormant, hres]
  rcases PeerPhase.isDormant_cases hd with ⟨since, hp⟩ | ⟨reason, diedAt, hp, -⟩
  · -- each command that disturbs it gives it a session or drains it
    cases cmd with
    | centralDisconnected d' cause =>
        obtain rfl : d' = d := of_decide_eq_true hdis
        refine ⟨_, peer_handle_centralDisconnected he io cause, ?_⟩
        rw [centralDisconnected_drains]
        · rfl
        · simp [focus, hp, PeerPhase.isConnecting]
        · simp [focus, hp]
    | peripheralClientSubscribed d' c p =>
        obtain rfl : d' = d := of_decide_eq_true hdis
        change ∃ e', (((start r).ensure d').edit d' _).reg.peer d' = some e' ∧ _
        rw [ensure_of_some (t := start r) he, edit_of_some (t := start r) he,
          peer_store (t := start r) he, if_pos rfl]
        refine ⟨_, rfl, ?_⟩
        unfold Edit.peripheralClientSubscribed
        dsimp only
        rw [Edit.noteSubscriber_phase, show ((start r).focus e).entry.phase = _ from hp]
        rfl
    | inboundL2capChannel d' channel =>
        simp only [PeerCommand.disturbs, Bool.and_eq_true, decide_eq_true_eq,
          Option.isNone_iff_eq_none] at hdis
        obtain ⟨rfl, hpipe⟩ := hdis
        rw [handle_l2cap_of_some he, edit_of_some (t := start r) he, peer_store (t := start r) he,
          if_pos rfl]
        refine ⟨_, rfl, ?_⟩
        unfold Edit.inboundL2capChannel
        rw [show ((start r).focus e).entry.pipe = none from hpipe]
        rfl
    | protocolVersionMismatch d' l got want =>
        simp only [PeerCommand.disturbs, Bool.and_eq_true, decide_eq_true_eq] at hdis
        obtain ⟨rfl, rfl⟩ := hdis
        change ∃ e', (handleProtocolVersionMismatch io d' _ got want (start r)).reg.peer d' =
          some e' ∧ _
        unfold handleProtocolVersionMismatch
        rw [show (start r).reg.peer d' = some e from he]
        dsimp only
        rw [if_neg (by simp), edit_of_some (t := start r) he]
        refine ⟨_, (peer_store (t := start r) he _ d').trans (if_pos rfl), ?_⟩
        simp [Edit.protocolVersionMismatch, focus, PeerPhase.isRestoring]
    | _ => cases hdis
  · rw [hp] at hres
    cases hres

end Adapter

/-- A command leaves the `Restoring` entries alone exactly if it disturbs none of them. -/
theorem keepsRestoring_iff {r : Registry} (hset : r.Settled) (io : Io) (cmd : PeerCommand) :
    r.KeepsRestoring io cmd ↔ r.Undisturbed cmd := by
  constructor
  · intro hkeep d e he hres
    by_contra hdis
    have hdis' : cmd.disturbs d e = true := by simpa using hdis
    -- none of the commands that disturb an entry may end its wait
    have hrel : ∀ since, cmd.releases d since = false := by
      intro since
      cases cmd with
      | adapterStateChanged powered => cases hdis'
      | tick tickNow => cases hdis'
      | forget d' => cases hdis'
      | _ => rfl
    cases hp : e.phase with
    | restoring since =>
        rcases hkeep d e since he hp (hrel since) with ⟨e', since', he', hp'⟩
        rcases handle_disturbed io he hres hdis' with ⟨e'', he'', hno⟩
        obtain rfl : e'' = e' := Option.some.inj (he''.symm.trans he')
        rw [hp'] at hno
        cases hno
    | _ =>
        rw [hp] at hres
        cases hres
  · intro hund d e since he hp hrel
    have hres : e.phase.isRestoring = true := by
      rw [hp]
      rfl
    rcases PeerCommand.wakes_restoring hp hrel (hund d e he hres) with hwake | rfl
    · have hd : e.phase.isDormant = true := by simp [PeerPhase.isDormant, hres]
      rcases handle_dormant io hset he hd hwake with ⟨hsame, hpresent⟩
      rcases Option.isSome_iff_exists.mp (hpresent hres) with ⟨e', he'⟩
      exact ⟨e', since, he', (hsame e' he').trans hp⟩
    · rcases handle_adapterOff io he with ⟨e', he', hp', -⟩
      exact ⟨e', io.now, he', hp'⟩

/-- A step that disturbs no `Restoring` entry and does not end the wait of `d`. -/
def Waits (d : DeviceId) (r : Registry) : Label → Prop
  | .reorder _ => True
  | .command _ cmd => r.Undisturbed cmd ∧
      ∀ e since, r.peer d = some e → e.phase = .restoring since → cmd.releases d since = false

/-- In every reachable registry a command keeps the `Restoring` entries exactly if it
disturbs none of them; and along a run that disturbs none, every peer that was there when
the adapter went off is `Reconnecting` after it comes back, unless its wait has ended. -/
theorem restoring_iff {h : List (Registry × Label)} {r : Registry} (hrun : system.Run h r) :
    (∀ io cmd, r.KeepsRestoring io cmd ↔ r.Undisturbed cmd) ∧
      ∀ h₁ x h₂ io₀, h = h₁ ++ x :: h₂ → x.2 = .command io₀ (.adapterStateChanged false) →
        ∀ d, (x.1.peer d).isSome = true → System.Meets (Waits d) h₂ →
          ∀ io, ∃ e, (r.handle io (.adapterStateChanged true)).reg.peer d = some e ∧
            e.phase = .reconnecting 0 io.now .adapterOff := by
  refine ⟨fun io cmd => keepsRestoring_iff (settled_of_run hrun) io cmd, ?_⟩
  rintro h₁ x h₂ io₀ rfl hoff d hd hwaits io
  have hwaiting : ∃ e since, r.peer d = some e ∧ e.phase = .restoring since := by
    refine hrun.after (P := fun r : Registry => ∃ e since, r.peer d = some e ∧
      e.phase = .restoring since) hwaits ?_ ?_
    · -- the adapter goes off
      intro s _ hs
      rw [hoff] at hs
      obtain rfl := Option.some.inj hs
      rcases Option.isSome_iff_exists.mp hd with ⟨e, he⟩
      rcases handle_adapterOff io₀ he with ⟨e', he', hp', -⟩
      exact ⟨e', io₀.now, he', hp'⟩
    · rintro h s l s' hr hwait ⟨e, since, he, hp⟩ hs
      cases l with
      | reorder ks => exact ⟨e, since, (peer_reorder hs d).trans he, hp⟩
      | command io cmd =>
          obtain rfl := Option.some.inj hs
          exact (keepsRestoring_iff (settled_of_run hr) io cmd).mpr hwait.1 d e since he hp
            (hwait.2 e since he hp)
  rcases hwaiting with ⟨e, since, he, hp⟩
  exact handle_adapterOn io he hp

/-- A peer subscribes, then the adapter goes off and a fragment arrives late. -/
def adapterCycleRun : List Label :=
  [.command (ioAt 0) (.peripheralClientSubscribed "peer" 0 none),
    .command (ioAt 1) (.adapterStateChanged false),
    .command (ioAt 2) (.inboundGattFragment "peer" .peripheralReceivedC2p [1])]

/-- On a run: off and on again. -/
theorem restoring_iff_adapterCycleRun :
    ∃ h r e, system.Run h r ∧ h.map Prod.snd = adapterCycleRun ∧
      (r.handle (ioAt 3) (.adapterStateChanged true)).reg.peer "peer" = some e ∧
      e.phase = .reconnecting 0 3 .adapterOff := by
  obtain ⟨h, r, hrun, hl, hlen, hpeer⟩ := System.Run.of_trace
    (P := fun h (_ : Registry) => h.length = 3 ∧
      (h.map fun x => (x.1.peer "peer").isSome) = [false, true, true])
    adapterCycleRun (init_new .disabled localEndpoint) (by decide +kernel)
  obtain ⟨x₀, x₁, x₂, rfl⟩ := List.length_eq_three.mp hlen
  simp only [adapterCycleRun, List.map_cons, List.map_nil, List.cons.injEq, and_true] at hl hpeer
  have hwaits : System.Meets (Waits "peer") [x₂] := by
    intro y hy
    obtain rfl := List.mem_singleton.mp hy
    rw [hl.2.2]
    exact ⟨fun _ _ _ _ => rfl, fun _ _ _ _ => rfl⟩
  rcases (restoring_iff hrun).2 [x₀] x₁ [x₂] (ioAt 1) rfl hl.2.1 "peer" hpeer.2.1 hwaits
    (ioAt 3) with ⟨e, he, hp⟩
  exact ⟨_, r, e, hrun, by simp [adapterCycleRun, hl], he, hp⟩

/-- The platform reports the disconnect while the adapter is off: the peer leaves
`Restoring`, and is not `Reconnecting` once the adapter is back. -/
theorem disconnect_ends_restoring :
    ∃ h r, system.Run h r ∧ h.map Prod.snd = adapterCycleRun ∧
      ¬ r.KeepsRestoring (ioAt 3) (.centralDisconnected "peer" .gatt133) ∧
      ((r.peerAfter (ioAt 3) (ioAt 4) (.centralDisconnected "peer" .gatt133)
        (.adapterStateChanged true) "peer").map PeerEntry.phase = some (.draining 3 .gatt133)) := by
  obtain ⟨h, r, hrun, hl, hbefore, hafter, hback⟩ := System.Run.of_exec
    (P := fun r : Registry =>
      (r.peer "peer").map PeerEntry.phase = some (.restoring 1) ∧
      ((r.handle (ioAt 3) (.centralDisconnected "peer" .gatt133)).reg.peer "peer").map
        PeerEntry.phase = some (.draining 3 .gatt133) ∧
      (r.peerAfter (ioAt 3) (ioAt 4) (.centralDisconnected "peer" .gatt133)
        (.adapterStateChanged true) "peer").map PeerEntry.phase = some (.draining 3 .gatt133))
    adapterCycleRun (init_new .disabled localEndpoint) (by decide +kernel)
  refine ⟨h, r, hrun, hl, ?_, hback⟩
  intro hkeep
  obtain ⟨e, he, hp⟩ := Option.map_eq_some_iff.mp hbefore
  rcases hkeep "peer" e 1 he hp rfl with ⟨e', since', he', hp'⟩
  rw [he', Option.map_some, hp'] at hafter
  cases hafter

end Registry

/-! ## Tombstones -/

namespace PeerCommand

/-- The peer of `d` opens a session itself. -/
def opensSession (d : DeviceId) : PeerCommand → Bool
  | .inboundGattFragment d' _ _ => decide (d' = d)
  | .peripheralClientSubscribed d' _ _ => decide (d' = d)
  | .inboundL2capChannel d' _ => decide (d' = d)
  | _ => false

/-- The commands that turn a tombstone of `d` into an entry that may be dialled again. -/
def unearths (d : DeviceId) : PeerCommand → Bool
  | .centralDisconnected d' _ => decide (d' = d)
  | .adapterStateChanged powered => !powered
  | _ => false

end PeerCommand

/-- An order to dial is given for an entry that then dials. -/
theorem Moved.dials {cmd : PeerCommand} {w w' : Edit} (h : Moved cmd w w') {d : DeviceId}
    {attempt l : ℕ} (hmem : .startConnect d attempt l ∈ w'.orders) :
    .startConnect d attempt l ∈ w.orders ∨
      d = w.entry.deviceId ∧ w'.entry.phase.isConnecting = true := by
  -- an order that was there before, or one of the new ones
  have hold : ∀ {l'}, w'.orders = w.orders ++ l' → .startConnect d attempt l ∉ l' →
      .startConnect d attempt l ∈ w.orders := by
    intro l' heq hno
    rw [heq] at hmem
    exact (List.mem_append.mp hmem).resolve_right hno
  have hnew : ∀ {l'}, w'.orders = w.orders ++ l' →
      (.startConnect d attempt l ∈ l' → d = w.entry.deviceId) →
      (∃ attempt now, w'.entry.phase = .connecting attempt now .gatt) →
      .startConnect d attempt l ∈ w.orders ∨
        d = w.entry.deviceId ∧ w'.entry.phase.isConnecting = true := by
    rintro l' heq hdev ⟨attempt', now, hphase⟩
    rw [heq] at hmem
    rcases List.mem_append.mp hmem with hw | hl'
    · exact Or.inl hw
    · refine Or.inr ⟨hdev hl', ?_⟩
      rw [hphase]
      rfl
  cases h with
  | same _ _ _ orders => exact Or.inl (orders ▸ hmem)
  | idle _ _ _ _ orders => exact Or.inl (orders ▸ hmem)
  | settle _ _ _ _ _ orders => exact Or.inl (orders ▸ hmem)
  | upgrade _ _ _ _ _ orders => exact Or.inl (hold orders (by simp))
  | dial _ _ after orders => exact hnew orders (by simp +contextual) ⟨_, _, after⟩
  | redial _ _ after orders => exact hnew orders (by simp +contextual) ⟨_, _, after⟩
  | accept _ _ _ _ orders => exact Or.inl (hold orders (by simp))
  | acceptUpgrade _ _ _ _ orders => exact Or.inl (hold orders (by simp))
  | overtake _ _ _ _ orders => exact Or.inl (hold orders (by simp))
  | restart _ _ orders => exact Or.inl (hold orders (by simp))
  | ends native refresh close _ _ _ _ _ orders =>
      refine Or.inl (hold orders ?_)
      cases native <;> cases refresh <;> cases close <;> simp [cleanup]
  | shutdown _ _ _ orders => exact Or.inl (hold orders (by simp))

namespace Turn

/-- A function run on a tombstone leaves one. -/
theorem Touch.tombstone {io : Io} {cmd : PeerCommand} {d : DeviceId} {w : Edit} {f : Edit → Edit}
    (hf : Touch io cmd d w.entry f) (hdead : w.entry.phase.isTombstone = true)
    (hopen : cmd.opensSession d = false) (hun : cmd.unearths d = false) :
    (f w).entry.phase.isTombstone = true := by
  have hd : w.entry.phase.isDormant = true := by simp [PeerPhase.isDormant, hdead]
  cases hwake : cmd.wakes d w.entry with
  | false =>
      rw [hf.dormant hd hwake]
      exact hdead
  | true =>
      -- what wakes a tombstone and is not excluded replaces it or skips it
      cases hf with
      | forget => simp [Edit.forget, PeerPhase.isTombstone]
      | protocolVersionMismatch =>
          unfold Edit.protocolVersionMismatch
          split
          · exact hdead
          · simp [PeerPhase.isTombstone]
      | adapterOn =>
          unfold Edit.adapterOn
          split
          · rename_i since hp
            rw [hp] at hdead
            cases hdead
          · exact hdead
      | adapterOff => cases hun
      | centralDisconnected => simp [PeerCommand.unearths] at hun
      | subscribed => simp [PeerCommand.opensSession] at hopen
      | fragment => simp [PeerCommand.opensSession] at hopen
      | inboundL2capChannel => simp [PeerCommand.opensSession] at hopen
      | @tick tickNow _ _ action h =>
          exfalso
          revert hwake
          cases hp : w.entry.phase with
          | dead reason diedAt => simp [PeerCommand.wakes, hp]
          | _ =>
              rw [hp] at hdead
              cases hdead
      | _ => cases hwake

/-- While a command is handled: `d` still has its tombstone, and no dial has been ordered. -/
structure Buried (cmd : PeerCommand) (d : DeviceId) (t : Turn) : Prop where
  settled : t.reg.Settled
  keyed : t.reg.Keyed
  dead : ∀ e, t.reg.peer d = some e → e.phase.isTombstone = true
  there : cmd.isTick = false → (t.reg.peer d).isSome = true
  quiet : ∀ attempt l, .startConnect d attempt l ∉ t.orders

theorem Buried.step {io : Io} {cmd : PeerCommand} {d : DeviceId} {t t' : Turn}
    (hopen : cmd.opensSession d = false) (hun : cmd.unearths d = false) (ht : Buried cmd d t)
    (h : Step io cmd t t') : Buried cmd d t' := by
  have hthere : cmd.isTick = false → (t'.reg.peer d).isSome = true :=
    fun hcmd => Steps.present (.single h) hcmd (ht.there hcmd)
  refine ⟨ht.settled.step h, keyed_step ht.keyed h, ?_, hthere, ?_⟩
  · intro e' he'
    cases he : t.reg.peer d with
    -- the device has no entry: only a tick may have removed it
    | none =>
        cases hcmd : cmd.isTick with
        | true =>
            rw [h.absent he hcmd] at he'
            cases he'
        | false =>
            have hsome := ht.there hcmd
            rw [he] at hsome
            cases hsome
    | some e =>
        have hdead := ht.dead e he
        rcases h.entry he with ⟨f, hf, rfl⟩ | hsame | ⟨-, hgone⟩
        · rw [peer_store he, if_pos rfl] at he'
          obtain rfl := Option.some.inj he'
          exact Touch.tombstone (w := t.focus e) hf hdead hopen hun
        · obtain rfl : e = e' := Option.some.inj (hsame.symm.trans he')
          exact hdead
        · -- the tick has collected the tombstone
          rw [hgone] at he'
          cases he'
  · intro attempt l hmem
    cases h with
    | @edit d' e f he hf =>
        have hmoved : Moved cmd (t.focus e) (f (t.focus e)) :=
          hf.moved (w := t.focus e) (ht.settled d' e he).shaking
        rcases hmoved.dials hmem with hold | ⟨hdev, hconn⟩
        · exact ht.quiet attempt l hold
        · -- a dial is ordered for the entry that is edited, which then dials
          obtain rfl : d = d' := hdev.trans (ht.keyed d' e he)
          have hdead : (f (t.focus e)).entry.phase.isTombstone = true :=
            Touch.tombstone (w := t.focus e) hf (ht.dead e he) hopen hun
          cases hp : (f (t.focus e)).entry.phase with
          | connecting attempt started path =>
              rw [hp] at hdead
              cases hdead
          | _ =>
              rw [hp] at hconn
              cases hconn
    | insert _ _ => exact ht.quiet attempt l hmem
    | @fresh d' f hd' hf =>
        have he := peer_insertNew_self t d'
        rw [edit_of_some he] at hmem
        change _ ∈ (f ((t.insertNew d').focus (newEntry t.reg.nextLifecycle d'))).orders at hmem
        have hw : ((t.insertNew d').focus (newEntry t.reg.nextLifecycle d')).orders = t.orders := rfl
        cases hf with
        | fragment =>
            exact ht.quiet attempt l (by simpa [Edit.inboundGattFragmentFresh, hw] using hmem)
        | inboundL2capChannel =>
            exact ht.quiet attempt l (by simpa [Edit.inboundL2capChannelFresh, hw] using hmem)
    | gcDead _ => exact ht.quiet attempt l hmem
    | verify p endpoint => exact ht.quiet attempt l hmem
    | prune => exact ht.quiet attempt l hmem
    | adapter state => exact ht.quiet attempt l hmem
    | restore b =>
        refine ht.quiet attempt l ?_
        simpa [orders, push, PeerAction.isOrder] using hmem

end Turn

namespace Registry

open Turn

/-- A command that neither opens a session nor unearths the tombstone. -/
theorem handle_tombstone {r : Registry} (io : Io) {cmd : PeerCommand} {d : DeviceId} {e : PeerEntry}
    (hset : r.Settled) (hkeyed : r.Keyed) (he : r.peer d = some e)
    (hdead : e.phase.isTombstone = true) (hopen : cmd.opensSession d = false)
    (hun : cmd.unearths d = false) : Buried cmd d (r.handle io cmd) := by
  have hstart : Buried cmd d (start r) := by
    refine ⟨hset, hkeyed, ?_, ?_, fun _ _ hmem => nomatch hmem⟩
    · intro e' he'
      obtain rfl : e = e' := Option.some.inj (he.symm.trans he')
      exact hdead
    · intro _
      exact Option.isSome_iff_exists.mpr ⟨e, he⟩
  have hsteps := handle_steps io cmd r
  generalize r.handle io cmd = t at hsteps ⊢
  induction hsteps with
  | refl => exact hstart
  | tail _ hs ih => exact ih.step hopen hun hs

/-- `d` has not been collected, and the step opens no session of its peer. -/
def Sealed (d : DeviceId) (r : Registry) : Label → Prop
  | .reorder _ => (r.peer d).isSome = true
  | .command _ cmd => (r.peer d).isSome = true ∧ cmd.opensSession d = false

instance (d : DeviceId) (r : Registry) (l : Label) : Decidable (Sealed d r l) :=
  match l with
  | .reorder _ => inferInstanceAs (Decidable (_ = true))
  | .command _ _ => inferInstanceAs (Decidable (_ ∧ _))

/-- Neither a disconnect of `d` nor a loss of power is handled while `d` is a tombstone. -/
def NotUnearthed (d : DeviceId) (r : Registry) : Label → Prop
  | .reorder _ => True
  | .command _ cmd => ∀ e, r.peer d = some e → e.phase.isTombstone = true → cmd.unearths d = false

/-- From the moment `d` is a tombstone, and until it is collected or its peer opens a
session, no step dials it, as long as none unearths it. -/
theorem tombstone_stays {h₁ h₂ : List (Registry × Label)} {x : Registry × Label} {r : Registry}
    (hrun : system.Run (h₁ ++ x :: h₂) r) {d : DeviceId} {e : PeerEntry}
    (he : x.1.peer d = some e) (hdead : e.phase.isTombstone = true)
    (hsealed : System.Meets (Sealed d) (x :: h₂))
    (hundug : System.Meets (NotUnearthed d) (x :: h₂)) :
    ∀ y ∈ x :: h₂, ∀ attempt l, .startConnect d attempt l ∉ emitted y := by
  have hboth : System.Meets (fun r l => Sealed d r l ∧ NotUnearthed d r l) (x :: h₂) :=
    fun y hy => ⟨hsealed y hy, hundug y hy⟩
  -- the state and the orders go through one induction along the rest of the run
  have hstays := hrun.since (P := fun k r =>
    (∀ e, r.peer d = some e → e.phase.isTombstone = true) ∧
      ∀ y ∈ k, ∀ attempt l, .startConnect d attempt l ∉ emitted y) hboth ?_ ?_
  · exact hstays.2
  · refine ⟨?_, fun y hy => nomatch hy⟩
    intro e' he'
    obtain rfl : e = e' := Option.some.inj (he.symm.trans he')
    exact hdead
  · rintro k s l s' hr ⟨hseal, hun⟩ ⟨hdead, hquiet⟩ hs
    cases l with
    | reorder ks =>
        refine ⟨fun e' he' => hdead e' ((peer_reorder hs d).symm.trans he'), ?_⟩
        intro y hy
        rcases List.mem_append.mp hy with hy | hy
        · exact hquiet y hy
        · obtain rfl := List.mem_singleton.mp hy
          exact fun _ _ hmem => nomatch hmem
    | command io cmd =>
        obtain rfl := Option.some.inj hs
        rcases Option.isSome_iff_exists.mp hseal.1 with ⟨e', he'⟩
        have hburied := handle_tombstone io (settled_of_run hr) (keyed_of_run hr) he' (hdead e' he')
          hseal.2 (hun e' he' (hdead e' he'))
        refine ⟨hburied.dead, ?_⟩
        intro y hy
        rcases List.mem_append.mp hy with hy | hy
        · exact hquiet y hy
        · obtain rfl := List.mem_singleton.mp hy
          intro attempt l hmem
          exact hburied.quiet attempt l (List.mem_filter.mpr ⟨hmem, rfl⟩)

/-- A peer is forgotten, advertises again, and a datagram is sent to it. -/
def forgottenRun : List Label :=
  [.command (ioAt 0) (.peripheralClientSubscribed "peer" 0 none),
    .command (ioAt 1) (.forget "peer"),
    .command (ioAt 2) (.advertised peerPrefix "peer" none),
    .command (ioAt 3) (.sendDatagram "peer" none 0 [1] 0)]

/-- On a run: advertisements and a send leave a forgotten peer alone. -/
theorem tombstone_stays_forgottenRun :
    ∃ h₁ x h₂ r, system.Run (h₁ ++ x :: h₂) r ∧
      (h₁ ++ x :: h₂).map Prod.snd = forgottenRun ∧ h₁.length = 2 ∧
      ∀ y ∈ x :: h₂, ∀ attempt l, .startConnect "peer" attempt l ∉ emitted y := by
  obtain ⟨h, r, hrun, hl, hlen, hpeer⟩ := System.Run.of_trace
    (P := fun h (_ : Registry) => h.length = 4 ∧
      (h.map fun x => (x.1.peer "peer").map PeerEntry.phase) =
        [none, some (.connected 0 ⟨1, .gatt⟩ 1 false), some (.dead .forgotten 1),
          some (.dead .forgotten 1)])
    forgottenRun (init_new .disabled localEndpoint) (by decide +kernel)
  -- the four steps of the run by name
  obtain ⟨x₀, x₁, x₂, x₃, rfl⟩ := List.length_eq_four.mp hlen
  simp only [forgottenRun, List.map_cons, List.map_nil, List.cons.injEq, and_true] at hl hpeer
  obtain ⟨e, he, hp⟩ := Option.map_eq_some_iff.mp hpeer.2.2.1
  have hsome : (x₃.1.peer "peer").isSome = true := by
    rw [← Option.isSome_map, hpeer.2.2.2]
    rfl
  have hrun' : system.Run ([x₀, x₁] ++ x₂ :: [x₃]) r := hrun
  refine ⟨[x₀, x₁], x₂, [x₃], r, hrun', by simp [forgottenRun, hl], rfl, ?_⟩
  refine tombstone_stays hrun' he (by rw [hp]; rfl) ?_ ?_
  · intro y hy
    rcases List.mem_pair.mp hy with rfl | rfl
    · rw [hl.2.2.1]
      exact ⟨Option.isSome_iff_exists.mpr ⟨e, he⟩, rfl⟩
    · rw [hl.2.2.2]
      exact ⟨hsome, rfl⟩
  · intro y hy
    rcases List.mem_pair.mp hy with rfl | rfl
    · rw [hl.2.2.1]
      exact fun _ _ _ => rfl
    · rw [hl.2.2.2]
      exact fun _ _ _ => rfl

/-- The same with the disconnect that the registry's own `CloseChannel` brings about, and a
tick that ends the drain. -/
def unearthedRun : List Label :=
  [.command (ioAt 0) (.peripheralClientSubscribed "peer" 0 none),
    .command (ioAt 1) (.forget "peer"),
    .command (ioAt 2) (.centralDisconnected "peer" .localClose),
    .command (ioAt (secs 6)) (.tick (secs 6)),
    .command (ioAt (secs 7)) (.advertised peerPrefix "peer" none),
    .command (ioAt (secs 8)) (.sendDatagram "peer" none 0 [1] 0)]

/-- A forgotten peer is dialled, although its entry has been there all the time and the peer
has opened no session. -/
theorem forgotten_peer_dialled :
    ∃ h₁ x h₂ r e, system.Run (h₁ ++ x :: h₂) r ∧
      (h₁ ++ x :: h₂).map Prod.snd = unearthedRun ∧ x.1.peer "peer" = some e ∧
      e.phase = .dead .forgotten 1 ∧ System.Meets (Sealed "peer") (x :: h₂) ∧
      ∃ y ∈ x :: h₂, .startConnect "peer" 0 6 ∈ emitted y := by
  obtain ⟨h, r, hrun, hl, hphase, hsealed, hdial⟩ := System.Run.of_trace
    (P := fun h (_ : Registry) =>
      (h[2]?.bind fun x => (x.1.peer "peer").map PeerEntry.phase) = some (.dead .forgotten 1) ∧
      (∀ y ∈ h.drop 2, Sealed "peer" y.1 y.2) ∧
      ∃ y ∈ h.drop 2, .startConnect "peer" 0 6 ∈ emitted y)
    unearthedRun (init_new .disabled localEndpoint) (by decide +kernel)
  obtain ⟨x, hx, hphase⟩ := Option.bind_eq_some_iff.mp hphase
  obtain ⟨e, he, hp⟩ := Option.map_eq_some_iff.mp hphase
  have hdrop : h.drop 2 = x :: h.drop 3 := by
    rw [List.drop_eq_getElem?_toList_append, hx]
    rfl
  rw [hdrop] at hsealed hdial
  have hsplit : h.take 2 ++ x :: h.drop 3 = h := by
    rw [← hdrop, List.take_append_drop]
  rw [← hsplit] at hrun hl
  exact ⟨h.take 2, x, h.drop 3, r, e, hrun, hl, he, hp, hsealed, hdial⟩

end Registry

end IrohBle
