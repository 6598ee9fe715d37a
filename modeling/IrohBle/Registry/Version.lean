import IrohBle.Registry.Dormant

/-! # Registry.Version: the version check of a dialled session

`ConnectSucceeded` asks the driver to read the peer's protocol version, behind the guard that the
entry is `Connecting`. A notification that overtakes it takes the entry to `Connected` and keeps
the lifecycle, so that the completion is not stale, and the guard then drops it.

* `only_accepted_probes`: nothing but a completion that finds its dial in `Connecting` emits
  `ReadVersion`.
* `version_checked_iff`: so exactly these dials are checked, in every run.
* `overtaken_dial_unchecked`: a run in which the notification comes first.
-/

namespace IrohBle

open Lib Reliable Registry

/-- The order to read the peer's version. -/
def PeerAction.isReadVersion : PeerAction → Bool
  | .readVersion .. => true
  | _ => false

namespace Turn

variable {io : Io} {cmd : PeerCommand} {d : DeviceId} {f : Edit → Edit} {w : Edit}

/-- The answer to a dial. -/
def IsCompletion (cmd : PeerCommand) : Prop := ∃ d l channel, cmd = .connectSucceeded d l channel

/-- But for its answer, a dial that becomes `Connected` under its own lifecycle was overtaken by a
notification, which gives one order: to start the pipe. -/
theorem Touch.overtakes (hf : Touch io cmd d w.entry f) (hcmd : ¬ IsCompletion cmd)
    (before : w.entry.phase.isConnecting = true) (life : Goes w (f w))
    (after : (f w).entry.phase.isConnected = true) :
    (f w).orders.length = w.orders.length + 1 := by
  have hdead : w.entry.phase.isConnected = false := by
    cases hphase : w.entry.phase <;> simp [hphase, PeerPhase.isConnecting,
      PeerPhase.isConnected] at before ⊢
  -- nothing has happened to the phase
  have hsame : ∀ w' : Edit, w'.entry.phase = w.entry.phase →
      w'.entry.phase.isConnected = true → w'.orders.length = w.orders.length + 1 := by
    intro w' hphase hconnected
    rw [hphase, hdead] at hconnected
    cases hconnected
  by_cases hstart : cmd.mayStart = true
  · cases hphase : w.entry.phase with
    | connecting attempt started path =>
        cases hf with
        | connectSucceeded => exact absurd ⟨_, _, _, rfl⟩ hcmd
        | subscribed =>
            refine hsame _ ?_ after
            unfold Edit.peripheralClientSubscribed
            simp only [Edit.noteSubscriber_phase, hphase]
        | openL2capSucceeded =>
            refine hsame _ ?_ after
            unfold Edit.openL2capSucceeded
            split
            · rfl
            · simp only [hphase]
        | openL2capFailed =>
            refine hsame _ ?_ after
            unfold Edit.openL2capFailed
            split
            · rfl
            · simp only [hphase]
        | @inboundL2capChannel _ channel =>
            cases hpipe : w.entry.pipe with
            | some handles =>
                refine hsame _ ?_ after
                simp only [Edit.inboundL2capChannel, hpipe, hphase, Edit.push_entry]
            | none =>
                -- an accepted channel replaces the lifecycle
                have hnext := life.nextLifecycle
                simp only [Edit.inboundL2capChannel, hpipe] at hnext
                exact absurd hnext (Nat.succ_ne_self _)
        | @fragment _ source bytes =>
            unfold Edit.inboundGattFragment
            simp only [Edit.modify_entry, hphase]
            cases source with
            | centralReceivedP2c =>
                simp [Edit.reviveByFragment, Edit.roleOfSource, hphase, PeerPhase.isConnecting]
            | peripheralReceivedC2p =>
                -- and so does a write
                have hnext := life.nextLifecycle
                simp [Edit.inboundGattFragment, Edit.reviveByFragment, Edit.roleOfSource, hphase,
                  Edit.abandonOutstanding, Edit.enterConnected, Edit.startDataPipe, Edit.push,
                  Edit.modify] at hnext
        | _ => cases hstart
    | _ =>
        rw [hphase] at before
        cases before
  · have hkept := hf.kept (by simpa using hstart) w
    rw [hkept.isConnected after] at hdead
    cases hdead

theorem isOrder_of_isReadVersion {a : PeerAction} (h : a.isReadVersion = true) :
    a.isOrder = true := by
  cases a <;> first | rfl | cases h

/-- Nothing but the answer to a dial asks for the version. -/
theorem Touch.readVersion (hf : Touch io cmd d w.entry f) (hcmd : ¬ IsCompletion cmd)
    (hshake : w.entry.phase.isHandshaking = false) {a : PeerAction} (ha : a.isReadVersion = true)
    (hmem : a ∈ (f w).actions) : a ∈ w.actions := by
  -- a read of the version is an order
  have horder : a ∈ (f w).orders :=
    List.mem_filter.mpr ⟨hmem, isOrder_of_isReadVersion ha⟩
  -- the orders that are new hold none
  have hold : ∀ l, (f w).orders = w.orders ++ l → (∀ b ∈ l, b.isReadVersion = false) →
      a ∈ w.actions := by
    intro l horders hl
    rw [horders] at horder
    rcases List.mem_append.mp horder with hw | hnew
    · exact List.mem_of_mem_filter hw
    · rw [hl a hnew] at ha
      cases ha
  have hnone : (f w).orders = w.orders → a ∈ w.actions := by
    intro horders
    exact hold [] (by simpa using horders) (by simp)
  cases hf.moved hshake with
  | same _ _ _ orders => exact hnone orders
  | idle _ _ _ _ orders => exact hnone orders
  | settle _ _ _ _ _ orders => exact hnone orders
  | upgrade _ _ _ _ _ orders => exact hold _ orders (by simp [PeerAction.isReadVersion])
  | dial _ _ _ orders => exact hold _ orders (by simp [PeerAction.isReadVersion])
  | redial _ _ _ orders => exact hold _ orders (by simp [PeerAction.isReadVersion])
  | overtake _ _ _ _ orders => exact hold _ orders (by simp [PeerAction.isReadVersion])
  | restart _ _ orders => exact hold _ orders (by simp [PeerAction.isReadVersion])
  | shutdown _ _ _ orders => exact hold _ orders (by simp [PeerAction.isReadVersion])
  | @ends native refresh close _ _ _ _ _ orders =>
      refine hold _ orders ?_
      cases native <;> cases refresh <;> cases close <;> simp [cleanup, PeerAction.isReadVersion]
  | accept life _ before after orders =>
      have hlen := hf.overtakes hcmd before life (by rw [after]; rfl)
      rw [orders] at hlen
      simp at hlen
  | acceptUpgrade life _ before after orders =>
      have hlen := hf.overtakes hcmd before life (by rw [after]; rfl)
      rw [orders] at hlen
      simp at hlen

/-- A step of any other command orders no such read. -/
theorem Step.readVersion {t t' : Turn} (hs : Step io cmd t t') (hset : t.reg.Settled)
    (hcmd : ¬ IsCompletion cmd) {a : PeerAction} (ha : a.isReadVersion = true)
    (hmem : a ∈ t'.actions) : a ∈ t.actions := by
  cases hs with
  | @edit d e f he hf =>
      exact Touch.readVersion (w := t.focus e) hf hcmd (hset d e he).shaking ha hmem
  | insert _ _ => exact hmem
  | @fresh d f hd hf =>
      have he := peer_insertNew_self t d
      rw [edit_of_some he] at hmem
      -- a device without an entry gets a pipe and nothing else
      have hnew : ∀ w : Edit, a ∈ (f w).actions → a ∈ w.actions := by
        intro w hw
        cases hf with
        | fragment =>
            rcases List.mem_append.mp hw with hw | hw
            · exact hw
            · rw [List.mem_singleton.mp hw] at ha
              cases ha
        | inboundL2capChannel =>
            rcases List.mem_append.mp hw with hw | hw
            · exact hw
            · rw [List.mem_singleton.mp hw] at ha
              cases ha
      exact hnew _ hmem
  | gcDead _ => exact hmem
  | verify p endpoint => exact hmem
  | prune => exact hmem
  | adapter state => exact hmem
  | restore b =>
      simp only [push, List.append_assoc, List.mem_append, List.mem_singleton] at hmem
      rcases hmem with hmem | rfl | rfl
      · exact hmem
      · cases ha
      · cases ha

theorem Steps.readVersion {t t' : Turn} (hs : Steps io cmd t t') (hset : t.reg.Settled)
    (hcmd : ¬ IsCompletion cmd) {a : PeerAction} (ha : a.isReadVersion = true)
    (hmem : a ∈ t'.actions) : a ∈ t.actions := by
  induction hs with
  | refl => exact hmem
  | tail hsteps hs ih => exact ih (hs.readVersion (orders_steps hset hsteps).1 hcmd ha hmem)

end Turn

namespace Registry

open Turn

/-- A completion of a dial, as the step that handles it sees it. -/
structure Completion where
  deviceId : DeviceId
  lifecycleId : ℕ
deriving DecidableEq

/-- The dial that a step reports as done. -/
def completion? : Label → Option Completion
  | .command _ (.connectSucceeded d l _) => some ⟨d, l⟩
  | _ => none

/-- The step handles a completion that finds its dial in `Connecting`. -/
def Accepts (c : Completion) (x : Registry × Label) : Prop :=
  completion? x.2 = some c ∧
    ∃ e ∈ x.1.peer c.deviceId, e.lifecycleId = c.lifecycleId ∧ e.phase.isConnecting = true

/-- The step asks for the version of the peer. -/
def Probes (c : Completion) (x : Registry × Label) : Prop :=
  .readVersion c.deviceId c.lifecycleId ∈ emitted x

/-- A completion for the lifecycle that its entry has comes with a version check, now or
before. -/
def Checked (h : List (Registry × Label)) (r : Registry) (lab : Label) : Prop :=
  ∀ c ∈ completion? lab, ∀ e ∈ r.peer c.deviceId, e.lifecycleId = c.lifecycleId →
    Probes c (r, lab) ∨ ∃ x ∈ h, Probes c x

/-- It finds the entry in `Connecting`, or an earlier one for the same lifecycle did. -/
def Timely (h : List (Registry × Label)) (r : Registry) (lab : Label) : Prop :=
  ∀ c ∈ completion? lab, ∀ e ∈ r.peer c.deviceId, e.lifecycleId = c.lifecycleId →
    e.phase.isConnecting = true ∨ ∃ x ∈ h, Accepts c x

instance (c : Completion) (x : Registry × Label) : Decidable (Accepts c x) :=
  inferInstanceAs (Decidable (completion? x.2 = some c ∧
    ∃ e ∈ x.1.peer c.deviceId, e.lifecycleId = c.lifecycleId ∧ e.phase.isConnecting = true))

instance (c : Completion) (x : Registry × Label) : Decidable (Probes c x) :=
  inferInstanceAs (Decidable (.readVersion c.deviceId c.lifecycleId ∈ emitted x))

instance (h : List (Registry × Label)) (r : Registry) (lab : Label) : Decidable (Checked h r lab) :=
  inferInstanceAs (Decidable (∀ c ∈ completion? lab, ∀ e ∈ r.peer c.deviceId,
    e.lifecycleId = c.lifecycleId → Probes c (r, lab) ∨ ∃ x ∈ h, Probes c x))

instance (h : List (Registry × Label)) (r : Registry) (lab : Label) : Decidable (Timely h r lab) :=
  inferInstanceAs (Decidable (∀ c ∈ completion? lab, ∀ e ∈ r.peer c.deviceId,
    e.lifecycleId = c.lifecycleId → e.phase.isConnecting = true ∨ ∃ x ∈ h, Accepts c x))

/-- What an answer to a dial asks for. -/
theorem connectSucceeded_orders (w : Edit) (now l : ℕ) (channel : ChannelHandle)
    (upgrade : PeerEntry → Bool) :
    (¬ (w.entry.lifecycleId = l ∧ w.entry.phase.isConnecting = true) ∧
      (w.connectSucceeded now l channel upgrade).orders = w.orders) ∨
    (w.entry.lifecycleId = l ∧ w.entry.phase.isConnecting = true ∧
      ∃ rest, (w.connectSucceeded now l channel upgrade).orders =
        w.orders ++ .readVersion w.entry.deviceId l :: rest ∧
        ∀ b ∈ rest, b.isReadVersion = false) := by
  unfold Edit.connectSucceeded
  split
  · rename_i hguard
    refine Or.inl ⟨?_, rfl⟩
    rintro ⟨hlife, hconnecting⟩
    rcases hguard with hne | hnot
    · exact hne hlife
    · exact hnot hconnecting
  · rename_i hguard
    rw [not_or, not_not, not_not] at hguard
    refine Or.inr ⟨hguard.1, hguard.2, ?_⟩
    dsimp only
    split
    · rw [Edit.requestUpgrade_orders, Edit.startDataPipe_orders, Edit.enterConnected_orders,
        Edit.push_orders, Edit.modify_orders]
      simp only [PeerAction.isOrder, if_true, List.append_assoc, List.cons_append, List.nil_append]
      exact ⟨_, rfl, by simp [PeerAction.isReadVersion]⟩
    · rw [Edit.startDataPipe_orders, Edit.enterConnected_orders, Edit.push_orders,
        Edit.modify_orders]
      simp only [PeerAction.isOrder, if_true, List.append_assoc, List.cons_append, List.nil_append]
      exact ⟨_, rfl, by simp [PeerAction.isReadVersion]⟩

/-- A completion orders the read exactly if its dial is the one the entry is in. -/
theorem readVersion_connectSucceeded {r : Registry} {io : Io} {d d' : DeviceId} {e : PeerEntry}
    {l l' : ℕ} {channel : ChannelHandle} (he : r.peer d' = some e) :
    .readVersion d l ∈ (r.handle io (.connectSucceeded d' l' channel)).actions ↔
      e.deviceId = d ∧ l' = l ∧ e.lifecycleId = l' ∧ e.phase.isConnecting = true := by
  have hactions : (r.handle io (.connectSucceeded d' l' channel)).actions =
      (((start r).focus e).connectSucceeded io.now l' channel
        ((start r).wantsUpgrade d')).actions := by
    change ((start r).edit d' _).actions = _
    rw [edit_of_some (t := start r) he]
    rfl
  -- it is among the actions if it is among the orders
  have horders : ∀ w : Edit, PeerAction.readVersion d l ∈ w.actions ↔
      PeerAction.readVersion d l ∈ w.orders := by
    intro w
    exact ⟨fun h => List.mem_filter.mpr ⟨h, rfl⟩, List.mem_of_mem_filter⟩
  rw [hactions, horders]
  rcases connectSucceeded_orders ((start r).focus e) io.now l' channel
    ((start r).wantsUpgrade d') with ⟨hnot, horders⟩ | ⟨hlife, hconnecting, rest, horders, hrest⟩
  · -- refused: the completion orders nothing
    rw [horders]
    refine iff_of_false (by simp [Edit.orders, focus, start]) ?_
    rintro ⟨-, -, hlife, hconnecting⟩
    exact hnot ⟨hlife, hconnecting⟩
  · -- accepted: the read comes first, and once
    rw [horders]
    have hnew : PeerAction.readVersion d l ∉ rest := by
      intro hmem
      have hno := hrest _ hmem
      cases hno
    have hempty : ((start r).focus e).orders = [] := rfl
    rw [hempty, List.nil_append, List.mem_cons]
    constructor
    · rintro (heq | hmem)
      · cases heq
        exact ⟨rfl, rfl, hlife, hconnecting⟩
      · exact absurd hmem hnew
    · rintro ⟨rfl, rfl, -, -⟩
      exact Or.inl rfl

/-- Only a completion that finds its dial in `Connecting` asks for the version. -/
theorem only_accepted_probes {x : Registry × Label} (hset : x.1.Settled) (hkeyed : x.1.Keyed)
    {c : Completion} : Probes c x ↔ Accepts c x := by
  rcases x with ⟨r, lab⟩
  cases lab with
  | reorder ks =>
      refine iff_of_false List.not_mem_nil ?_
      rintro ⟨hnone, -⟩
      cases hnone
  | command io cmd =>
      -- only a completion asks, and one for an unknown device does nothing
      by_cases hcmd : IsCompletion cmd
      · rcases hcmd with ⟨d, l, channel, rfl⟩
        change _ ∈ (r.handle io (.connectSucceeded d l channel)).actions ↔ _
        cases he : r.peer d with
        | none =>
            have hsame : r.handle io (.connectSucceeded d l channel) = start r :=
              edit_of_none (t := start r) he
            rw [hsame]
            refine iff_of_false List.not_mem_nil ?_
            rintro ⟨hc, e, he', -⟩
            obtain rfl := Option.some.inj hc
            rw [he] at he'
            cases he'
        | some e =>
            rw [readVersion_connectSucceeded he, hkeyed d e he]
            constructor
            · rintro ⟨rfl, rfl, hlife, hconnecting⟩
              exact ⟨rfl, e, he, hlife, hconnecting⟩
            · rintro ⟨hc, e', he', hlife, hconnecting⟩
              obtain rfl := Option.some.inj hc
              obtain rfl := Option.some.inj (he.symm.trans he')
              exact ⟨rfl, rfl, hlife, hconnecting⟩
      · refine iff_of_false ?_ ?_
        · intro hmem
          have hnone := (handle_steps io cmd r).readVersion hset hcmd rfl hmem
          cases hnone
        · rintro ⟨hc, -⟩
          cases cmd with
          | connectSucceeded d l channel => exact hcmd ⟨d, l, channel, rfl⟩
          | _ => cases hc

/-- In every run, a completion for the lifecycle that its entry has is accompanied by a version
check exactly if it finds the entry in `Connecting`, or an earlier one did. -/
theorem version_checked_iff {h : List (Registry × Label)} {r : Registry} (hrun : system.Run h r) :
    System.Along Checked h ↔ System.Along Timely h := by
  refine hrun.along_congr ?_
  intro k r lab hr
  refine forall_congr' fun c => forall_congr' fun hc => forall_congr' fun e =>
    forall_congr' fun he => forall_congr' fun hlife => ?_
  have hnow : Probes c (r, lab) ↔ e.phase.isConnecting = true := by
    rw [only_accepted_probes (settled_of_run hr) (keyed_of_run hr)]
    constructor
    · rintro ⟨-, e', he', -, hconnecting⟩
      obtain rfl := Option.some.inj ((Option.mem_def.mp he).symm.trans he')
      exact hconnecting
    · intro hconnecting
      exact ⟨hc, e, he, hlife, hconnecting⟩
  have hbefore : (∃ x ∈ k, Probes c x) ↔ ∃ x ∈ k, Accepts c x := by
    refine exists_congr fun x => and_congr_right fun hx => ?_
    rcases hr.prefix_run x hx with ⟨k', -, hx'⟩
    exact only_accepted_probes (settled_of_run hx') (keyed_of_run hx')
  rw [hnow, hbefore]

/-- A peer is dialled, and the dial succeeds. -/
def answeredRun : List Label :=
  dialRun ++ [.command (ioAt 2) (.connectSucceeded "peer" 2 ⟨5, .gatt⟩)]

/-- On a run: a dial that is answered is checked. -/
theorem version_checked_answeredRun : ∃ h r, system.Run h r ∧ h.map Prod.snd = answeredRun ∧
    System.Along Checked h := by
  rcases System.Run.of_trace (P := fun h (_ : Registry) => System.Along Timely h)
    answeredRun (init_new .disabled localEndpoint) (by decide +kernel) with
    ⟨h, r, hrun, hlabels, htimely⟩
  exact ⟨h, r, hrun, hlabels, (version_checked_iff hrun).mpr htimely⟩

/-- The peer's first notification is handled before the answer. -/
def overtakenRun : List Label :=
  dialRun ++ [.command (ioAt 2) (.inboundGattFragment "peer" .centralReceivedP2c [1]),
    .command (ioAt 3) (.connectSucceeded "peer" 2 ⟨5, .gatt⟩)]

/-- The session is live under the lifecycle of the dial, and its version is never read. -/
theorem overtaken_dial_unchecked : ∃ h r, system.Run h r ∧ h.map Prod.snd = overtakenRun ∧
    (r.peer "peer").any (fun e => decide (e.lifecycleId = 2) && e.phase.isConnected) = true ∧
    ¬ System.Along Checked h := by
  rcases System.Run.of_trace (P := fun h (r : Registry) =>
      (r.peer "peer").any (fun e => decide (e.lifecycleId = 2) && e.phase.isConnected) = true ∧
        ¬ System.Along Checked h)
    overtakenRun (init_new .disabled localEndpoint) (by decide +kernel) with
    ⟨h, r, hrun, hlabels, hlive, hunchecked⟩
  exact ⟨h, r, hrun, hlabels, hlive, hunchecked⟩

end Registry

end IrohBle
