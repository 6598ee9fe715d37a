import IrohBle.Registry.FailedDial
import IrohBle.Registry.History

/-! # Registry.Generation: pipe generations

An entry that is `Connected` is so in its own generation, the generation of an entry never
goes down, and the pipes started for one entry are started in strictly increasing
generations, each the entry's own (`generations_increase`).
-/

namespace IrohBle

open Lib Reliable Registry

/-! ## One function -/

/-- A live session is in the entry's generation, and no entry is in `Handshaking`, which
nothing enters. -/
structure PeerEntry.InGeneration (e : PeerEntry) : Prop where
  live : ∀ g, e.phase.liveGen? = some g → g = e.txGen
  shaking : e.phase.isHandshaking = false

/-- An entry that keeps its session stays in its generation. -/
theorem Kept.inGeneration {w w' : Edit} (h : Kept w w') (hw : w.entry.InGeneration) :
    w'.entry.InGeneration where
  live := by
    intro g hg
    rcases h.live with hl | hl
    · rw [hl] at hg
      rw [h.txGen]
      exact hw.live g hg
    · rw [hl] at hg
      cases hg
  shaking := by
    cases hs : w'.entry.phase.isHandshaking with
    | false => rfl
    | true =>
        have hbefore := h.shaking hs
        rw [hw.shaking] at hbefore
        cases hbefore

/-- A session that starts is live in the generation it starts. -/
theorem Started.inGeneration {w w' : Edit} (h : Started w w') : w'.entry.InGeneration where
  live := by
    intro g hg
    rw [h.live] at hg
    exact (Option.some.inj hg).symm
  shaking := by
    have hlive := h.live
    cases hp : w'.entry.phase with
    | handshaking since channel =>
        rw [hp] at hlive
        cases hlive
    | _ => rfl

theorem Session.inGeneration {w w' : Edit} (h : Session w w') (hw : w.entry.InGeneration) :
    w'.entry.InGeneration := by
  cases h with
  | kept h => exact h.inGeneration hw
  | started h => exact h.inGeneration

/-- A generation never goes down. -/
theorem Session.txGen_le {w w' : Edit} (h : Session w w') : w.entry.txGen ≤ w'.entry.txGen := by
  cases h with
  | kept h => exact h.txGen.ge
  | started h =>
      rw [h.txGen]
      exact Nat.le_succ _

namespace Registry

open Turn

/-- No entry is in `Handshaking`, and every live one is in its generation. -/
def Settled (r : Registry) : Prop := ∀ d e, r.peer d = some e → e.InGeneration

/-- Every entry of the registry stays settled, step by step. -/
theorem Settled.step {io : Io} {cmd : PeerCommand} {t t' : Turn} (h : t.reg.Settled)
    (hs : Turn.Step io cmd t t') : t'.reg.Settled := by
  have hnew : ∀ n d, (newEntry n d).InGeneration := fun n d => ⟨(fun g hg => nomatch hg), rfl⟩
  intro d
  refine hs.all (fun n => hnew n d) ?_ ?_ (h d)
  · intro f w hf hw
    exact (hf.session w).inGeneration hw
  · intro f w n hf hw
    have hfresh : w.entry.txGen = 0 := by
      rw [hw]
      rfl
    have hbefore : w.entry.InGeneration := hw ▸ hnew n d
    exact (hf.session hfresh).inGeneration hbefore

/-- Every entry of a run is in its generation. -/
theorem settled_of_run {h : List (Registry × Label)} {r : Registry} (hrun : system.Run h r) :
    r.Settled := by
  refine run_invariant ?_ ?_ ?_ hrun
  · intro policy endpoint d e he
    cases he
  · intro r ks hperm hr d e he
    exact hr d e ((Map.lookup_reorder hperm d).symm.trans he)
  · intro io cmd t t' ht hs
    exact ht.step hs

end Registry

/-! ## One command -/

/-- The generations of the pipes started for `d`. -/
def startedGens (d : DeviceId) (actions : List PeerAction) : List ℕ :=
  actions.filterMap fun a =>
    match a with
    | .startDataPipe d' _ g _ _ _ _ => if d' = d then some g else none
    | _ => none

/-- A generation is started by an action that carries it. -/
theorem mem_startedGens {d : DeviceId} {actions : List PeerAction} {g : ℕ} :
    g ∈ startedGens d actions ↔
      ∃ l role target path l2cap, .startDataPipe d l g role target path l2cap ∈ actions := by
  unfold startedGens
  rw [List.mem_filterMap]
  constructor
  · rintro ⟨a, ha, hg⟩
    cases a with
    | startDataPipe d' l g' role target path l2cap =>
        simp only [Option.ite_none_right_eq_some, Option.some.injEq] at hg
        rcases hg with ⟨rfl, rfl⟩
        exact ⟨l, role, target, path, l2cap, ha⟩
    | _ => cases hg
  · rintro ⟨l, role, target, path, l2cap, ha⟩
    exact ⟨_, ha, by simp⟩

/-- Only the pipes started count. -/
theorem startedGens_starts (d : DeviceId) (actions : List PeerAction) :
    startedGens d (actions.filter PeerAction.isStartDataPipe) = startedGens d actions := by
  unfold startedGens
  rw [List.filterMap_filter]
  refine List.filterMap_congr fun a _ => ?_
  cases a <;> rfl

namespace Turn

variable {io : Io} {cmd : PeerCommand} {t t' : Turn} {d : DeviceId}

/-- A pipe has been started for `d`. -/
def HasStarted (t : Turn) (d : DeviceId) : Prop := ∃ a ∈ t.starts, a.device? = some d

/-- An edit elsewhere starts no pipe for `d`. -/
theorem hasStarted_store_ne {d' : DeviceId} {e' : PeerEntry} {w : Edit}
    (hs : Session (t.focus e') w) (hdev : e'.deviceId ≠ d) (h : (t.store d' w).HasStarted d) :
    t.HasStarted d := by
  rcases h with ⟨a, ha, had⟩
  have hstarts : (t.store d' w).starts = w.starts := rfl
  rw [hstarts] at ha
  cases hs with
  | kept hk =>
      rw [hk.starts] at ha
      exact ⟨a, ha, had⟩
  | started hst =>
      rcases hst.starts with ⟨role, path, l2cap, -, hs⟩
      rw [hs] at ha
      rcases List.mem_append.mp ha with ha | ha
      · exact ⟨a, ha, had⟩
      · rw [List.mem_singleton.mp ha] at had
        have heq : w.entry.deviceId = d := Option.some.inj had
        rw [hst.deviceId] at heq
        exact absurd heq hdev

/-- A step that leaves the entry of `d` as it is starts no pipe for `d`. -/
theorem hasStarted_other {e : PeerEntry} (hk : t.reg.Keyed) (h : Step io cmd t t')
    (he : t.reg.peer d = some e) (he' : t'.reg.peer d = some e) (hst : t'.HasStarted d) :
    t.HasStarted d := by
  cases h with
  | @edit d' e₁ f he₁ hf =>
      by_cases hd : d' = d
      · -- the entry is the same, so its generation is, and nothing was started
        subst hd
        obtain rfl : e₁ = e := Option.some.inj (he₁.symm.trans he)
        rw [peer_store he₁, if_pos rfl] at he'
        have hsame : (f (t.focus e₁)).entry = e₁ := Option.some.inj he'
        cases hf.session (t.focus e₁) with
        | kept hkept =>
            rcases hst with ⟨a, ha, had⟩
            have hstarts : (t.store d' (f (t.focus e₁))).starts = (f (t.focus e₁)).starts := rfl
            rw [hstarts, hkept.starts] at ha
            exact ⟨a, ha, had⟩
        | started hstarted =>
            have hgen := hstarted.txGen
            rw [hsame] at hgen
            exact absurd hgen (Nat.succ_ne_self _).symm
      · refine hasStarted_store_ne (hf.session _) ?_ hst
        rw [hk d' e₁ he₁]
        exact hd
  | insert _ _ => exact hst
  | @fresh d' f hd' hf =>
      have hne : d' ≠ d := by
        rintro rfl
        rw [hd'] at he
        cases he
      have hnew := peer_insertNew_self t d'
      rw [edit_of_some hnew] at hst
      have hsession := hf.session (w := (t.insertNew d').focus (newEntry t.reg.nextLifecycle d')) rfl
      exact hasStarted_store_ne (t := t.insertNew d') hsession hne hst
  | verify p endpoint => exact hst
  | prune => exact hst
  | gcDead _ => exact hst
  | adapter state => exact hst
  | restore b =>
      rcases hst with ⟨a, ha, had⟩
      refine ⟨a, ?_, had⟩
      simpa [starts, push, PeerAction.isStartDataPipe] using ha

/-- Along a command the generation never goes down, and goes up where a pipe is started. -/
theorem Steps.txGen {e e' : PeerEntry} (h : Steps io cmd t t') (hk : t.reg.Keyed)
    (hfirst : t.starts = []) (he : t.reg.peer d = some e) (he' : t'.reg.peer d = some e') :
    e.txGen ≤ e'.txGen ∧ (t'.HasStarted d → e.txGen < e'.txGen) := by
  suffices hQ : t'.reg.Keyed ∧ e.txGen ≤ e'.txGen ∧ (t'.HasStarted d → e.txGen < e'.txGen) from
    hQ.2
  refine Steps.track (Q := fun t e' => t.reg.Keyed ∧ e.txGen ≤ e'.txGen ∧
    (t.HasStarted d → e.txGen < e'.txGen)) h ?_ ?_ he he' ⟨hk, le_refl _, ?_⟩
  · rintro t e₁ f he₁ hf ⟨hkeyed, hle, hlt⟩
    have hsession := hf.session (t.focus e₁)
    refine ⟨keyed_step hkeyed (.edit he₁ hf), hle.trans hsession.txGen_le, ?_⟩
    intro hst
    cases hsession with
    | kept hkept =>
        rcases hst with ⟨a, ha, had⟩
        have hstarts : (t.store d (f (t.focus e₁))).starts = (f (t.focus e₁)).starts := rfl
        rw [hstarts, hkept.starts] at ha
        exact lt_of_lt_of_le (hlt ⟨a, ha, had⟩) hkept.txGen.ge
    | started hstarted =>
        rw [hstarted.txGen]
        exact Nat.lt_succ_of_le hle
  · rintro t t' e₁ hs he₁ he₁' ⟨hkeyed, hle, hlt⟩
    exact ⟨keyed_step hkeyed hs, hle, fun hst => hlt (hasStarted_other hkeyed hs he₁ he₁' hst)⟩
  · rintro ⟨a, ha, -⟩
    rw [hfirst] at ha
    cases ha

end Turn

namespace Registry

open Turn

/-- What a command starts for `d`: nothing, or one pipe in the entry's new generation. -/
theorem handle_startedGens {r : Registry} (hk : r.Keyed) (io : Io) (cmd : PeerCommand)
    (d : DeviceId) :
    startedGens d (r.handle io cmd).actions = [] ∨
      ∃ e', (r.handle io cmd).reg.peer d = some e' ∧
        startedGens d (r.handle io cmd).actions = [e'.txGen] ∧
        ∀ e, r.peer d = some e → e.txGen < e'.txGen := by
  have hfilter : startedGens d (r.handle io cmd).starts = startedGens d (r.handle io cmd).actions :=
    startedGens_starts d _
  rw [← hfilter]
  cases handle_turned hk io cmd d with
  | kept hno _ =>
      left
      unfold startedGens
      rw [List.filterMap_eq_nil_iff]
      -- only the starts among the actions count
      intro a ha
      have hne := hno a ha
      cases a with
      | startDataPipe d' l g role target path l2cap =>
          have hd : d' ≠ d := fun h => hne (by rw [h]; rfl)
          simp [hd]
      | _ => rfl
  | @started e' l role target path l2cap he' hstarts _ =>
      right
      refine ⟨e', he', ?_, ?_⟩
      · rw [hstarts]
        simp [startedGens]
      · intro e he
        refine (Steps.txGen (handle_steps io cmd r) hk rfl he he').2
          ⟨.startDataPipe d l e'.txGen role target path l2cap, ?_, rfl⟩
        rw [hstarts]
        exact List.mem_singleton_self _

/-- The generation of an entry never goes down. -/
theorem step_txGen_le {r r' : Registry} {l : Label} {d : DeviceId} {e e' : PeerEntry}
    (hk : r.Keyed) (hs : system.step l r = some r') (he : r.peer d = some e)
    (he' : r'.peer d = some e') : e.txGen ≤ e'.txGen := by
  cases l with
  | reorder ks =>
      rw [peer_reorder hs, he] at he'
      obtain rfl := Option.some.inj he'
      exact le_refl _
  | command io cmd =>
      obtain rfl := Option.some.inj hs
      exact (Steps.txGen (handle_steps io cmd r) hk rfl he he').1

/-! ## A run -/

/-- The generations of the pipes started for the present entry of `d`, in order. -/
def generations (d : DeviceId) (h : List (Registry × Label)) : List ℕ :=
  (incarnation d h).flatMap fun x => startedGens d (emitted x)

/-- What the generation of an entry has to do with those before it. -/
structure GenerationsUpTo (h : List (Registry × Label)) (r : Registry) (d : DeviceId) : Prop where
  sorted : (generations d h).Pairwise (· < ·)
  bound : ∀ e, r.peer d = some e → ∀ g ∈ generations d h, g ≤ e.txGen
  mono : ∀ e, r.peer d = some e → ∀ x ∈ incarnation d h, ∀ e₀, x.1.peer d = some e₀ →
    e₀.txGen ≤ e.txGen

/-- The generations of an entry begin anew with the entry. -/
theorem generations_snoc (d : DeviceId) (h : List (Registry × Label)) (x : Registry × Label) :
    generations d (h ++ [x]) =
      (if (x.1.peer d).isNone then [] else generations d h) ++ startedGens d (emitted x) := by
  unfold generations
  rw [incarnation_snoc]
  split <;> simp

/-- One step carries the generations on. -/
theorem GenerationsUpTo.step {h : List (Registry × Label)} {r r' : Registry} {l : Label}
    {d : DeviceId} (hg : GenerationsUpTo h r d) (hk : r.Keyed) (hs : system.step l r = some r') :
    GenerationsUpTo (h ++ [(r, l)]) r' d := by
  -- what the step starts lies above the generation the entry had, and is the one it has now
  have hstarted : startedGens d (emitted (r, l)) = [] ∨ ∃ e', r'.peer d = some e' ∧
      startedGens d (emitted (r, l)) = [e'.txGen] ∧ ∀ e, r.peer d = some e → e.txGen < e'.txGen := by
    cases l with
    | reorder ks => exact Or.inl rfl
    | command io cmd =>
        obtain rfl := Option.some.inj hs
        exact handle_startedGens hk io cmd d
  cases he : r.peer d with
  -- the entry is new, and so are its generations
  | none =>
      have hgens : generations d (h ++ [(r, l)]) = startedGens d (emitted (r, l)) := by
        rw [generations_snoc, he]
        rfl
      have hinc : incarnation d (h ++ [(r, l)]) = [(r, l)] := by
        rw [incarnation_snoc, he]
        rfl
      constructor
      · rw [hgens]
        rcases hstarted with hnil | ⟨e', -, hone, -⟩
        · rw [hnil]
          exact List.Pairwise.nil
        · rw [hone]
          exact List.pairwise_singleton _ _
      · intro e' he' g hmem
        rw [hgens] at hmem
        rcases hstarted with hnil | ⟨e₁, he₁, hone, -⟩
        · rw [hnil] at hmem
          cases hmem
        · obtain rfl : e₁ = e' := Option.some.inj (he₁.symm.trans he')
          rw [hone] at hmem
          exact (List.mem_singleton.mp hmem).le
      · intro e' _ x hx e₀ he₀
        rw [hinc] at hx
        rw [List.mem_singleton.mp hx, he] at he₀
        cases he₀
  -- the entry goes on, and what is started lies above what it had
  | some e =>
      have hgens : generations d (h ++ [(r, l)]) =
          generations d h ++ startedGens d (emitted (r, l)) := by
        rw [generations_snoc, he]
        rfl
      have hinc : incarnation d (h ++ [(r, l)]) = incarnation d h ++ [(r, l)] := by
        rw [incarnation_snoc, he]
        rfl
      constructor
      · rw [hgens]
        rcases hstarted with hnil | ⟨e', -, hone, hlt⟩
        · rw [hnil, List.append_nil]
          exact hg.sorted
        · rw [hone, List.pairwise_append]
          refine ⟨hg.sorted, List.pairwise_singleton _ _, ?_⟩
          intro g hmem g' hg'
          rw [List.mem_singleton.mp hg']
          exact lt_of_le_of_lt (hg.bound e he g hmem) (hlt e he)
      · intro e' he' g hmem
        rw [hgens] at hmem
        rcases List.mem_append.mp hmem with hold | hnew
        · exact (hg.bound e he g hold).trans (step_txGen_le hk hs he he')
        · rcases hstarted with hnil | ⟨e₁, he₁, hone, -⟩
          · rw [hnil] at hnew
            cases hnew
          · obtain rfl : e₁ = e' := Option.some.inj (he₁.symm.trans he')
            rw [hone] at hnew
            exact (List.mem_singleton.mp hnew).le
      · intro e' he' x hx e₀ he₀
        rw [hinc] at hx
        rcases List.mem_append.mp hx with hold | hnew
        · exact (hg.mono e he x hold e₀ he₀).trans (step_txGen_le hk hs he he')
        · rw [List.mem_singleton.mp hnew] at he₀
          exact step_txGen_le hk hs he₀ he'

/-- In every run they increase up to the entry's own. -/
theorem generationsUpTo_of_run {h : List (Registry × Label)} {r : Registry}
    (hrun : system.Run h r) (d : DeviceId) : GenerationsUpTo h r d := by
  induction hrun with
  | init hinit =>
      rcases hinit with ⟨policy, endpoint, rfl⟩
      exact ⟨List.Pairwise.nil, (fun e he => nomatch he), (fun e he => nomatch he)⟩
  | step hprev hs ih => exact ih.step (keyed_of_run hprev) hs

/-- In every run, an entry that is `Connected` is so in its own generation; the generation
of an entry is at least what it was in any earlier state of its life; the pipes started for
one entry are started in strictly increasing generations, and each in the generation the
entry has after the step. -/
theorem generations_increase {h : List (Registry × Label)} {r : Registry}
    (hrun : system.Run h r) :
    (∀ d e since channel g up, r.peer d = some e → e.phase = .connected since channel g up →
      g = e.txGen) ∧
    (∀ d e, r.peer d = some e → ∀ x ∈ incarnation d h, ∀ e₀, x.1.peer d = some e₀ →
      e₀.txGen ≤ e.txGen) ∧
    (∀ d, (generations d h).Pairwise (· < ·)) ∧
    ∀ x ∈ h, ∀ d, ∀ g ∈ startedGens d (emitted x),
      ∃ r' e, system.step x.2 x.1 = some r' ∧ r'.peer d = some e ∧ e.txGen = g := by
  refine ⟨?_, ?_, ?_, ?_⟩
  · intro d e since channel g up he hphase
    refine (settled_of_run hrun d e he).live g ?_
    rw [hphase]
    rfl
  · intro d
    exact (generationsUpTo_of_run hrun d).mono
  · intro d
    exact (generationsUpTo_of_run hrun d).sorted
  · rintro ⟨r₀, l⟩ hx d g hg
    rcases hrun.prefix_run (r₀, l) hx with ⟨h₀, -, hrun₀⟩
    cases l with
    | reorder ks => cases hg
    | command io cmd =>
        rcases handle_startedGens (keyed_of_run hrun₀) io cmd d with hnil | ⟨e', he', hone, -⟩
        · rw [show startedGens d (emitted (r₀, .command io cmd)) = [] from hnil] at hg
          cases hg
        · rw [show startedGens d (emitted (r₀, .command io cmd)) = [e'.txGen] from hone] at hg
          exact ⟨_, e', rfl, he', (List.mem_singleton.mp hg).symm⟩

/-- A client writes, its link drops, and it writes again. -/
def rewriteRun : List Label :=
  [.command (ioAt 0) (.inboundGattFragment "peer" .peripheralReceivedC2p [1]),
    .command (ioAt 1) (.centralDisconnected "peer" .linkLoss),
    .command (ioAt 2) (.inboundGattFragment "peer" .peripheralReceivedC2p [2])]

/-- On a run: a session displaces another, and the generation goes up. -/
theorem generations_increase_rewriteRun :
    ∃ h r e, system.Run h r ∧ h.map Prod.snd = rewriteRun ∧ r.peer "peer" = some e ∧
      e.txGen = 2 ∧ e.phase = .connected 2 ⟨0, .gatt⟩ e.txGen false ∧
      (∀ x ∈ incarnation "peer" h, ∀ e₀, x.1.peer "peer" = some e₀ → e₀.txGen ≤ 2) ∧
      (generations "peer" h).Pairwise (· < ·) := by
  obtain ⟨h, r, hrun, hl, hP⟩ := System.Run.of_exec
    (P := fun r : Registry => (r.peer "peer").map (fun e => (e.txGen, e.phase)) =
      some (2, .connected 2 ⟨0, .gatt⟩ 2 false))
    rewriteRun (init_new .disabled localEndpoint) (by decide +kernel)
  obtain ⟨e, he, hf⟩ := Option.map_eq_some_iff.mp hP
  simp only [Prod.mk.injEq] at hf
  have hall := generations_increase hrun
  refine ⟨h, r, e, hrun, hl, he, hf.1, ?_, ?_, hall.2.2.1 "peer"⟩
  · rw [← hall.1 "peer" e _ _ _ _ he hf.2]
    exact hf.2
  · rw [← hf.1]
    exact hall.2.1 "peer" e he

end Registry

end IrohBle
