import IrohBle.Lanes.Model
import IrohBle.Lib.LittleEndian

/-! # Lanes.Psm: how a dialler learns where to open an L2CAP channel

The driver's job for `UpgradeToL2cap` reads the PSM characteristic of the peer, up to three times,
and opens a channel at what it has read; `tokio::time::timeout` may end it at any await. At the
peer the request pump answers each read with the register that every start of the L2CAP listener
writes, the first one and those after an adapter cycle. Between the two any answer may get lost,
and the register may be written at any time.
-/

namespace IrohBle

open Lib Reliable

/-! ## The peer -/

/-- The characteristic a dialler reads the PSM from. -/
def irohPsmCharUuid : Uuid := 0x69726f048e454c2cb3a5331f3098b5c2

/-- The characteristic a dialler reads the protocol version from. -/
def irohVersionCharUuid : Uuid := 0x69726f058e454c2cb3a5331f3098b5c2

/-- The answer of `run_peripheral_requests` to a read. -/
def respond (psm : ℕ) (charUuid : Uuid) : Bytes :=
  if charUuid = irohPsmCharUuid then
    if psm ≠ 0 then LittleEndian.encode 2 psm else []
  else if charUuid = irohVersionCharUuid then [protocolVersion]
  else []

/-! ## The dialler -/

/-- `BlewDriver::read_psm`, on the bytes that were read. -/
def readPsm (bytes : Bytes) : Option ℕ :=
  if bytes.length < 2 then none else some (LittleEndian.decode (bytes.take 2))

/-- The job that `spawn_l2cap_open` dispatches, between two of its awaits. -/
inductive OpenJob where
  | idle
  /-- The backoff before an attempt. -/
  | sleeping (attempt : ℕ) (lastErr : Option String)
  | reading (attempt : ℕ) (lastErr : Option String)
  /-- The answer is on its way. -/
  | answered (attempt : ℕ) (lastErr : Option String) (bytes : Bytes)
  | opening (psm : ℕ)
  | ended (result : Except String L2capChannel)
deriving DecidableEq

/-- Whether a job has been started and not ended yet. -/
def OpenJob.underWay : OpenJob → Bool
  | .idle | .ended _ => false
  | _ => true

/-- A dialler's job and the register of the peer it reads from. -/
structure Exchange where
  /-- The register of the peer, an `AtomicU16`. -/
  psm : ℕ := 0
  job : OpenJob := .idle

/-- The steps of the exchange: those of the job, those of the peer, and what may go wrong. -/
inductive ExchangeLabel where
  /-- The peer starts its L2CAP listener; `none`: that fails. -/
  | listen (assigned : Option ℕ)
  | upgrade
  | wake
  | serve
  | arrive
  | fail (error : String)
  | opened (result : Except String L2capChannel)
  /-- `L2CAP_SELECT_TIMEOUT` has elapsed. -/
  | elapse

namespace Exchange

/-- The next round of `read_psm_with_retry` after an error, or its end. -/
def retry (attempt : ℕ) (error : String) : OpenJob :=
  if attempt + 1 < readPsmBackoffsMs.length then .sleeping (attempt + 1) (some error)
  else .ended (.error ("read_psm: " ++ error))

/-- One step; a job is started only where none is under way. -/
def step : ExchangeLabel → Exchange → Option Exchange
  -- a listener that does not start leaves the register as it is
  | .listen none, s => some s
  | .listen (some psm), s => if psm < 2 ^ 16 then some { s with psm := psm } else none
  | .upgrade, s => if s.job.underWay then none else some { s with job := .sleeping 0 none }
  -- the backoff before an attempt is over
  | .wake, s =>
    match s.job with
    | .sleeping attempt lastErr => some { s with job := .reading attempt lastErr }
    | _ => none
  -- the peer's request pump answers the read
  | .serve, s =>
    match s.job with
    | .reading attempt lastErr =>
      some { s with job := .answered attempt lastErr (respond s.psm irohPsmCharUuid) }
    | _ => none
  | .arrive, s =>
    match s.job with
    | .answered _ _ bytes =>
      -- a register that was never written answers zero, which is no PSM
      match readPsm bytes with
      | some psm => some { s with job := .opening psm }
      | none => some { s with job := .ended (.error "no psm advertised") }
    | _ => none
  -- the read may fail before or after it has been served
  | .fail error, s =>
    match s.job with
    | .reading attempt _ | .answered attempt _ _ => some { s with job := retry attempt error }
    | _ => none
  | .opened result, s =>
    match s.job with
    | .opening _ => some { s with job := .ended result }
    | _ => none
  -- the timeout drops the job wherever it is
  | .elapse, s =>
    if s.job.underWay then some { s with job := .ended (.error "l2cap select timeout") } else none

/-- The exchange as a transition system, from a register nobody has written yet. -/
def system : System Exchange ExchangeLabel where
  Init s := s = {}
  step := step

/-! ## What is read is what was served -/

/-- What the dialler makes of an answer: the register as the peer served it, and nothing where it
has not been written. -/
theorem readPsm_respond {psm : ℕ} (h : psm < 2 ^ 16) :
    readPsm (respond psm irohPsmCharUuid) = if psm = 0 then none else some psm := by
  unfold respond
  rw [if_pos rfl]
  split
  · rename_i hne
    have hlength : (LittleEndian.encode 2 psm).length = 2 := LittleEndian.length_encode 2 psm
    have hbound : psm < 256 ^ 2 := h
    unfold readPsm
    rw [if_neg (by omega), List.take_of_length_le (Nat.le_of_eq hlength),
      LittleEndian.decode_encode hbound]
  · rename_i heq
    rw [if_pos (not_not.mp heq)]
    rfl

/-! ## The attempts of a job -/

/-- What the attempt that ends with a step was told. -/
def outcomeOf : Exchange × ExchangeLabel → Option (Except String (Option ℕ))
  | (_, .fail error) => some (.error error)
  | (s, .arrive) =>
    match s.job with
    | .answered _ _ bytes => some (.ok (readPsm bytes))
    | _ => none
  | _ => none

/-- The outcomes of the reads in a log, in order. -/
def outcomes (k : List (Exchange × ExchangeLabel)) : List (Except String (Option ℕ)) :=
  k.filterMap outcomeOf

/-- The outcomes of the attempts, as `readPsmWithRetry` takes them. -/
def reads (k : List (Exchange × ExchangeLabel)) (attempt : ℕ) : Except String (Option ℕ) :=
  (outcomes k)[attempt]?.getD (.error "unknown")

/-- The outcome of the last step comes last. -/
theorem outcomes_snoc (k : List (Exchange × ExchangeLabel)) (x : Exchange × ExchangeLabel) :
    outcomes (k ++ [x]) = outcomes k ++ (outcomeOf x).toList := by
  unfold outcomes
  rw [List.filterMap_append]
  cases h : outcomeOf x <;> simp [h]

/-- The attempts so far have failed with `errors`. -/
def Failed (k : List (Exchange × ExchangeLabel)) (errors : List String) : Prop :=
  outcomes k = errors.map .error

/-- A step without an outcome leaves the failed reads as they are. -/
theorem Failed.skip {k : List (Exchange × ExchangeLabel)} {errors : List String} (h : Failed k errors)
    {x : Exchange × ExchangeLabel} (hx : outcomeOf x = none) : Failed (k ++ [x]) errors := by
  unfold Failed
  rw [outcomes_snoc, hx, h]
  exact List.append_nil _

/-- A failed read is the last of the failed ones. -/
theorem Failed.fail {k : List (Exchange × ExchangeLabel)} {errors : List String} (h : Failed k errors)
    (s : Exchange) (error : String) : Failed (k ++ [(s, .fail error)]) (errors ++ [error]) := by
  unfold Failed
  rw [outcomes_snoc, h, List.map_append]
  rfl

/-- One more attempt that is answered settles what `read_psm_with_retry` returns. -/
theorem readPsmWithRetry_answered {errors : List String}
    (hbound : errors.length < readPsmBackoffsMs.length) {k : List (Exchange × ExchangeLabel)}
    {answer : Option ℕ} (hk : outcomes k = errors.map .error ++ [.ok answer]) :
    readPsmWithRetry (reads k) = answer.elim (.error "no psm advertised") .ok := by
  have hlength : readPsmBackoffsMs.length = 3 := rfl
  unfold readPsmWithRetry reads
  rw [hk, hlength]
  match errors with
  | [] => cases answer <;> rfl
  | [e₀] => cases answer <;> rfl
  | [e₀, e₁] => cases answer <;> rfl
  | _ :: _ :: _ :: _ =>
      simp only [hlength, List.length_cons] at hbound
      omega

/-- It gives up with the error of the last attempt. -/
theorem readPsmWithRetry_failed {errors : List String} {error : String}
    (hbound : errors.length + 1 = readPsmBackoffsMs.length) {k : List (Exchange × ExchangeLabel)}
    (hk : Failed k (errors ++ [error])) :
    readPsmWithRetry (reads k) = .error ("read_psm: " ++ error) := by
  have hlength : readPsmBackoffsMs.length = 3 := rfl
  unfold readPsmWithRetry reads
  rw [hk, hlength]
  match errors with
  | [e₀, e₁] => rfl
  | [] | [_] | _ :: _ :: _ :: _ =>
      rw [hlength] at hbound
      simp at hbound

/-! ## What a job knows -/

/-- The peer has answered an attempt with its register, which held `psm`. -/
def Served (k : List (Exchange × ExchangeLabel)) (psm : ℕ) : Prop :=
  ∃ y ∈ k, y.2 = .serve ∧ y.1.psm = psm

/-- `k` are the steps since the job was dispatched. -/
inductive Knows (k : List (Exchange × ExchangeLabel)) : OpenJob → Prop
  where
  | sleeping {errors : List String} (fails : Failed k errors)
      (bound : errors.length < readPsmBackoffsMs.length) :
      Knows k (.sleeping errors.length errors.getLast?)
  | reading {errors : List String} (fails : Failed k errors)
      (bound : errors.length < readPsmBackoffsMs.length) :
      Knows k (.reading errors.length errors.getLast?)
  | answered {errors : List String} {psm : ℕ} (fails : Failed k errors)
      (bound : errors.length < readPsmBackoffsMs.length) (served : Served k psm)
      (fits : psm < 2 ^ 16) :
      Knows k (.answered errors.length errors.getLast? (respond psm irohPsmCharUuid))
  | opening {psm : ℕ} (served : Served k psm) (positive : psm ≠ 0)
      (returns : readPsmWithRetry (reads k) = .ok psm) : Knows k (.opening psm)
  | unserved (served : Served k 0) (returns : readPsmWithRetry (reads k) = .error "no psm advertised") :
      Knows k (.ended (.error "no psm advertised"))
  | failed {error : String} (returns : readPsmWithRetry (reads k) = .error ("read_psm: " ++ error))
      (spent : (outcomes k).length = readPsmBackoffsMs.length) :
      Knows k (.ended (.error ("read_psm: " ++ error)))
  | opened {s : Exchange} {psm : ℕ} {result : Except String L2capChannel}
      (at_psm : s.job = .opening psm) (last : (s, .opened result) ∈ k) (served : Served k psm)
      (positive : psm ≠ 0) : Knows k (.ended result)
  | elapsed {s : Exchange} (last : (s, .elapse) ∈ k) :
      Knows k (.ended (.error "l2cap select timeout"))

section Knows

variable {k : List (Exchange × ExchangeLabel)} {x : Exchange × ExchangeLabel}

theorem Served.snoc {psm : ℕ} (h : Served k psm) : Served (k ++ [x]) psm := by
  obtain ⟨y, hy, hserve⟩ := h
  exact ⟨y, List.mem_append_left _ hy, hserve⟩

theorem outcomes_skip (hx : outcomeOf x = none) : outcomes (k ++ [x]) = outcomes k := by
  rw [outcomes_snoc, hx]
  exact List.append_nil _

theorem reads_skip (hx : outcomeOf x = none) : reads (k ++ [x]) = reads k := by
  unfold reads
  rw [outcomes_skip hx]

/-- A step that ends no attempt takes nothing away from what is known. -/
theorem Knows.skip {j : OpenJob} (h : Knows k j) (hx : outcomeOf x = none) : Knows (k ++ [x]) j := by
  cases h with
  | sleeping hfails hbound => exact .sleeping (hfails.skip hx) hbound
  | reading hfails hbound => exact .reading (hfails.skip hx) hbound
  | answered hfails hbound hserved hfits => exact .answered (hfails.skip hx) hbound hserved.snoc hfits
  | opening hserved hpositive hreturns =>
      exact .opening hserved.snoc hpositive ((congrArg _ (reads_skip hx)).trans hreturns)
  | unserved hserved hreturns =>
      exact .unserved hserved.snoc ((congrArg _ (reads_skip hx)).trans hreturns)
  | failed hreturns hspent =>
      refine .failed ((congrArg _ (reads_skip hx)).trans hreturns) ?_
      rw [outcomes_skip hx]
      exact hspent
  | opened hat hlast hserved hpositive =>
      exact .opened hat (List.mem_append_left _ hlast) hserved.snoc hpositive
  | elapsed hlast => exact .elapsed (List.mem_append_left _ hlast)

/-- After a failed attempt the job sleeps, or gives up. -/
theorem knows_retry {errors : List String} (hfails : Failed k errors)
    (hbound : errors.length < readPsmBackoffsMs.length) (s : Exchange) (error : String) :
    Knows (k ++ [(s, .fail error)]) (retry errors.length error) := by
  have hafter := hfails.fail s error
  have hlength : (errors ++ [error]).length = errors.length + 1 := by simp
  unfold retry
  split
  · rename_i hmore
    have hlast : (errors ++ [error]).getLast? = some error := by simp
    rw [← hlength] at hmore ⊢
    rw [← hlast]
    exact .sleeping hafter hmore
  · rename_i hspent
    have hall : errors.length + 1 = readPsmBackoffsMs.length := by omega
    refine .failed (readPsmWithRetry_failed hall hafter) ?_
    rw [hafter, List.length_map, hlength, hall]

/-- An answer that arrives says where to open the channel, or that there is no place for it. -/
theorem knows_arrive {errors : List String} {psm : ℕ} (hfails : Failed k errors)
    (hbound : errors.length < readPsmBackoffsMs.length) (hserved : Served k psm)
    (hfits : psm < 2 ^ 16) {s s' : Exchange} {last : Option String}
    (hjob : s.job = .answered errors.length last (respond psm irohPsmCharUuid))
    (hs : system.step .arrive s = some s') : Knows (k ++ [(s, .arrive)]) s'.job := by
  have hread := readPsm_respond hfits
  have houtcome : outcomeOf (s, .arrive) = some (.ok (readPsm (respond psm irohPsmCharUuid))) := by
    simp only [outcomeOf, hjob]
  have houtcomes : outcomes (k ++ [(s, .arrive)]) =
      errors.map .error ++ [.ok (if psm = 0 then none else some psm)] := by
    rw [outcomes_snoc, houtcome, hfails, hread]
    rfl
  have hreturns := readPsmWithRetry_answered hbound houtcomes
  simp only [system, step, hjob, hread] at hs
  by_cases hzero : psm = 0
  · subst hzero
    obtain rfl := Option.some.inj hs
    exact .unserved hserved.snoc hreturns
  · rw [if_neg hzero] at hs hreturns
    obtain rfl := Option.some.inj hs
    exact .opening hserved.snoc hzero hreturns

/-- One step of the job, or of the peer. -/
theorem Knows.step {s s' : Exchange} {l : ExchangeLabel} (h : Knows k s.job) (hfits : s.psm < 2 ^ 16)
    (hl : l ≠ .upgrade) (hs : system.step l s = some s') : Knows (k ++ [(s, l)]) s'.job := by
  cases l with
  | upgrade => exact absurd rfl hl
  | listen assigned =>
      -- a listener start changes the register, not the job
      have hsame : s'.job = s.job := by
        cases assigned with
        | none => exact congrArg Exchange.job (Option.some.inj hs).symm
        | some psm =>
            simp only [system, Exchange.step] at hs
            split at hs
            · obtain rfl := Option.some.inj hs
              rfl
            · cases hs
      rw [hsame]
      exact h.skip rfl
  | wake =>
      simp only [system, Exchange.step] at hs
      split at hs
      · rename_i attempt lastErr hjob
        obtain rfl := Option.some.inj hs
        rw [hjob] at h
        cases h with
        | sleeping hfails hbound => exact .reading (hfails.skip rfl) hbound
      · cases hs
  | serve =>
      simp only [system, Exchange.step] at hs
      split at hs
      · rename_i attempt lastErr hjob
        obtain rfl := Option.some.inj hs
        rw [hjob] at h
        cases h with
        | reading hfails hbound =>
            have hserved : Served (k ++ [(s, .serve)]) s.psm := ⟨(s, .serve), by simp, rfl, rfl⟩
            exact .answered (hfails.skip rfl) hbound hserved hfits
      · cases hs
  | arrive =>
      cases hjob : s.job with
      | answered attempt lastErr bytes =>
          rw [hjob] at h
          cases h with
          | answered hfails hbound hserved hpsm =>
              exact knows_arrive hfails hbound hserved hpsm hjob hs
      | _ =>
          simp only [system, Exchange.step, hjob] at hs
          cases hs
  | fail error =>
      simp only [system, Exchange.step] at hs
      split at hs
      · rename_i attempt lastErr hjob
        obtain rfl := Option.some.inj hs
        rw [hjob] at h
        cases h with
        | reading hfails hbound => exact knows_retry hfails hbound s error
      · rename_i attempt lastErr bytes hjob
        obtain rfl := Option.some.inj hs
        rw [hjob] at h
        cases h with
        | answered hfails hbound _ _ => exact knows_retry hfails hbound s error
      · cases hs
  | opened result =>
      simp only [system, Exchange.step] at hs
      split at hs
      · rename_i psm hjob
        obtain rfl := Option.some.inj hs
        rw [hjob] at h
        cases h with
        | opening hserved hpositive _ => exact .opened hjob (by simp) hserved.snoc hpositive
      · cases hs
  | elapse =>
      simp only [system, Exchange.step] at hs
      split at hs
      · obtain rfl := Option.some.inj hs
        exact .elapsed (s := s) (by simp)
      · cases hs

end Knows

/-! ## Along a run -/

/-- What the listener was assigned by a step. -/
def assignedBy : Exchange × ExchangeLabel → Option ℕ
  | (_, .listen assigned) => assigned
  | _ => none

/-- Only the listener writes the register. -/
theorem psm_of_step {s s' : Exchange} {l : ExchangeLabel} (hs : system.step l s = some s') :
    s'.psm = (assignedBy (s, l)).getD s.psm ∧ (s.psm < 2 ^ 16 → s'.psm < 2 ^ 16) := by
  -- a step of the job leaves the register alone
  have hjob : ∀ {j : OpenJob}, s' = { s with job := j } →
      s'.psm = s.psm ∧ (s.psm < 2 ^ 16 → s'.psm < 2 ^ 16) := by
    rintro j rfl
    exact ⟨rfl, id⟩
  cases l with
  | listen assigned =>
      cases assigned with
      | none =>
          obtain rfl := Option.some.inj hs
          exact ⟨rfl, id⟩
      | some psm =>
          simp only [system, step] at hs
          split at hs
          · rename_i hfits
            obtain rfl := Option.some.inj hs
            exact ⟨rfl, fun _ => hfits⟩
          · cases hs
  | arrive =>
      simp only [system, step] at hs
      split at hs
      · split at hs
        · exact hjob (Option.some.inj hs).symm
        · exact hjob (Option.some.inj hs).symm
      · cases hs
  | _ =>
      simp only [system, step] at hs
      split at hs
      all_goals first | exact hjob (Option.some.inj hs).symm | cases hs

/-- The register holds what the listener was last assigned. -/
theorem psm_of_run {h : List (Exchange × ExchangeLabel)} {s : Exchange} (hrun : system.Run h s) :
    s.psm = ((h.filterMap assignedBy).getLast?).getD 0 ∧ s.psm < 2 ^ 16 := by
  induction hrun with
  | init hs =>
      obtain rfl := hs
      exact ⟨rfl, by decide⟩
  | @step h s s' l hr hs ih =>
      obtain ⟨hpsm, hfits⟩ := psm_of_step hs
      refine ⟨?_, hfits ih.2⟩
      rw [hpsm, List.filterMap_append]
      cases hassigned : assignedBy (s, l) with
      | none => simpa [hassigned] using ih.1
      | some psm => simp [hassigned]

/-- What the listener was assigned is what a job can be told. -/
theorem listened_of_run {h : List (Exchange × ExchangeLabel)} {s : Exchange}
    (hrun : system.Run h s) (hpositive : s.psm ≠ 0) : ∃ y ∈ h, y.2 = .listen (some s.psm) := by
  have hpsm := (psm_of_run hrun).1
  cases hlast : (h.filterMap assignedBy).getLast? with
  | none =>
      rw [hlast] at hpsm
      exact absurd hpsm hpositive
  | some psm =>
      rw [hlast] at hpsm
      obtain ⟨⟨y, l⟩, hy, hassigned⟩ := List.mem_filterMap.mp (List.mem_of_getLast? hlast)
      refine ⟨(y, l), hy, ?_⟩
      rw [hpsm]
      cases l with
      | listen assigned => exact congrArg ExchangeLabel.listen hassigned
      | _ => cases hassigned

/-- The steps of one job. -/
def SameJob (_ : Exchange) (l : ExchangeLabel) : Prop := l ≠ .upgrade

/-- What the job holds is read off the log since it was started. -/
theorem knows_of_run {h₁ h₂ : List (Exchange × ExchangeLabel)} {x s : Exchange}
    (hrun : system.Run (h₁ ++ (x, .upgrade) :: h₂) s) (hone : System.Meets SameJob h₂) :
    Knows ((x, .upgrade) :: h₂) s.job := by
  apply hrun.since_step (P := fun k s => Knows k s.job) hone
  · intro s _ hs
    simp only [system, step] at hs
    split at hs
    · cases hs
    · obtain rfl := Option.some.inj hs
      have hnone : Failed [(x, .upgrade)] [] := rfl
      exact .sleeping hnone (by decide)
  · intro k s l s' hr hl hk hs
    exact hk.step (psm_of_run hr).2 hl hs

/-- In the steps `h₂` of a job that came after `h₁` the peer answered with `psm`, which its listener
had been assigned by then. -/
def Told (h₁ h₂ : List (Exchange × ExchangeLabel)) (psm : ℕ) : Prop :=
  psm ≠ 0 ∧ ∃ k₁ y k₂, h₂ = k₁ ++ (y, .serve) :: k₂ ∧ y.psm = psm ∧
    ∃ z ∈ h₁ ++ k₁, z.2 = .listen (some psm)

/-- A PSM the peer served during the job was assigned by a start of its listener. -/
theorem told_of_served {h₁ h₂ : List (Exchange × ExchangeLabel)} {x s : Exchange} {psm : ℕ}
    (hrun : system.Run (h₁ ++ (x, .upgrade) :: h₂) s) (hserved : Served ((x, .upgrade) :: h₂) psm)
    (hpositive : psm ≠ 0) : Told h₁ h₂ psm := by
  obtain ⟨⟨y, l⟩, hy, rfl, rfl⟩ := hserved
  rcases List.mem_cons.mp hy with heq | hy
  · cases heq
  · obtain ⟨k₁, k₂, rfl⟩ := List.append_of_mem hy
    rw [← List.cons_append, ← List.append_assoc] at hrun
    obtain ⟨z, hz, hlisten⟩ := listened_of_run hrun.before hpositive
    refine ⟨hpositive, k₁, y, k₂, rfl, rfl, z, ?_, hlisten⟩
    rcases List.mem_append.mp hz with hz | hz
    · exact List.mem_append_left _ hz
    · rcases List.mem_cons.mp hz with rfl | hz
      · cases hlisten
      · exact List.mem_append_right _ hz

/-- A job opens a channel only at what the listener of the peer had been assigned when the peer
answered it, never at zero, and its attempts come to what `read_psm_with_retry` makes of them.
A job that has ended has tried that, or has run out of time, or was told by the peer that it does
not listen, or has failed as often as there are attempts. -/
theorem psm_exchange {h₁ h₂ : List (Exchange × ExchangeLabel)} {x s : Exchange}
    (hrun : system.Run (h₁ ++ (x, .upgrade) :: h₂) s) (hone : System.Meets SameJob h₂) :
    (∀ psm, s.job = .opening psm →
      Told h₁ h₂ psm ∧ readPsmWithRetry (reads h₂) = .ok psm) ∧
    ∀ result, s.job = .ended result →
      (∃ y psm, (y, .opened result) ∈ h₂ ∧ y.job = .opening psm ∧ Told h₁ h₂ psm) ∨
      (result = .error "l2cap select timeout" ∧ ∃ y, (y, .elapse) ∈ h₂) ∨
      ∃ error, result = .error error ∧ readPsmWithRetry (reads h₂) = .error error ∧
        ((error = "no psm advertised" ∧ ∃ y, (y, .serve) ∈ h₂ ∧ y.psm = 0) ∨
          (outcomes h₂).length = readPsmBackoffsMs.length) := by
  have hk := knows_of_run hrun hone
  have hreads : reads ((x, .upgrade) :: h₂) = reads h₂ := rfl
  -- what belongs to this job comes after its start
  have hmem : ∀ {y l}, l ≠ .upgrade → (y, l) ∈ (x, ExchangeLabel.upgrade) :: h₂ → (y, l) ∈ h₂ := by
    intro y l hl hy
    rcases List.mem_cons.mp hy with heq | hy
    · exact absurd (congrArg Prod.snd heq) hl
    · exact hy
  constructor
  · intro psm hjob
    rw [hjob] at hk
    cases hk with
    | opening hserved hpositive hreturns =>
        exact ⟨told_of_served hrun hserved hpositive, hreturns⟩
  · intro result hjob
    rw [hjob] at hk
    cases hk with
    | unserved hserved hreturns =>
        obtain ⟨⟨y, l⟩, hy, rfl, hzero⟩ := hserved
        exact .inr (.inr ⟨_, rfl, hreturns, .inl ⟨rfl, y, hmem (by simp) hy, hzero⟩⟩)
    | failed hreturns hspent => exact .inr (.inr ⟨_, rfl, hreturns, .inr hspent⟩)
    | @opened y psm _ hat hlast hserved hpositive =>
        exact .inl ⟨y, psm, hmem (by simp) hlast, hat, told_of_served hrun hserved hpositive⟩
    | @elapsed y hlast => exact .inr (.inl ⟨rfl, y, hmem (by simp) hlast⟩)

/-- The first read fails, and the listener starts before the second one. -/
def lateRun : List ExchangeLabel :=
  [.upgrade, .wake, .fail "busy", .listen (some 128), .wake, .serve, .listen none, .arrive]

/-- A run in which the register is written only after the first read: the second read is told the
PSM. -/
theorem psm_exchange_lateRun :
    ∃ x h₂ s, system.Run ([] ++ (x, .upgrade) :: h₂) s ∧ System.Meets SameJob h₂ ∧
      ((x, ExchangeLabel.upgrade) :: h₂).map Prod.snd = lateRun ∧ s.job = .opening 128 ∧
      Told [] h₂ 128 := by
  obtain ⟨h, s, hrun, hl, hjob⟩ := System.Run.of_trace
    (P := fun _ (s : Exchange) => s.job = .opening 128) lateRun (show system.Init {} from rfl)
    (by decide +kernel)
  have hsplit : h.map Prod.snd = [] ++ ExchangeLabel.upgrade :: lateRun.tail := hl
  obtain ⟨h₁, x, h₂, rfl, hnil, htail⟩ := System.split_labels hsplit
  obtain rfl := List.map_eq_nil_iff.mp hnil
  have hone : System.Meets SameJob h₂ := by
    intro y hy hupgrade
    have hmem : y.2 ∈ lateRun.tail := htail ▸ List.mem_map_of_mem hy
    rw [hupgrade] at hmem
    simp [lateRun] at hmem
  exact ⟨x, h₂, s, hrun, hone, hl, hjob, ((psm_exchange hrun hone).1 128 hjob).1⟩

end Exchange

end IrohBle
