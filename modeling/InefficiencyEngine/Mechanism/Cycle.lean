import InefficiencyEngine.Lib.Machine
import InefficiencyEngine.Mechanism.Settlement
import InefficiencyEngine.Mechanism.Sources

namespace InefficiencyEngine.Mechanism

open Portfolio Durable

/-!
# The evidence cycle of the mechanisms

`MechanismExecutionService.run_evidence_cycle` as a program over the mechanism ledger: it
settles the pending trials, then records a trial for each discovered spec whose cohort has
no open trial, and a candidate for each spec whose cohort the recorded outcomes qualify.

The cycle is a template: the classes that inherit it override how a trial settles, what an
outcome says, which specs are discovered, how a cohort qualifies and which spec becomes a
candidate. A `MechanismService` is one choice of these; `baseService` is the base class's.

`settlePending_eq` and `recordSpecs_final` say what the two loops leave in the ledger, for any
service.
-/

/-! ### Qualification -/

/-- `_mean_lower`. The lower end of the normal interval around the mean. One value is its own
    bound. -/
def meanLower (R : MechanismRuntime) (values : List ℚ) : Option ℚ :=
  match values with
  | [] => none
  | [value] => some value
  | values =>
    let mean := fmean values
    let variance := (values.map (fun value => (value - mean) ^ 2)).sum / (values.length - 1 : ℚ)
    some (mean - 196 / 100 * R.sqrt variance / R.sqrt values.length)

/-- `_max_drawdown`: wealth, peak and drawdown over the values. -/
def maxDrawdown (values : List ℚ) : ℚ :=
  (values.foldl (fun ((wealth, peak, drawdown) : ℚ × ℚ × ℚ) value =>
    let wealth := wealth * max 0 (1 + value)
    let peak := max peak wealth
    (wealth, peak, if 0 < peak then max drawdown (1 - wealth / peak) else drawdown)) (1, 1, 0)).2.2

/-- `FULL_FORWARD_TARGET`. -/
def fullForwardTarget : ℕ := 30

/-- `MIN_FORWARD_START`. -/
def minForwardStart : ℕ := 3

/-- `MIN_HIT_RATE`. -/
def minHitRate : ℚ := 55 / 100

/-- `MAX_INCREMENTAL_DRAWDOWN`. -/
def maxIncrementalDrawdown : ℚ := 8 / 100

/-- `forward_evidence_allocation_fraction`: a tenth for every three samples. -/
def forwardEvidenceAllocationFraction (samples : ℕ) : ℚ :=
  if samples < 3 then 0
  else if fullForwardTarget ≤ samples then 1
  else max 0 (min 1 ((samples / 3 * 3 : ℕ) / fullForwardTarget))

/-- `MechanismQualification`. What the outcomes of a cohort allow: the fraction of capital, and
    why not more. -/
structure MechanismQualification where
  sampleCount : ℕ
  positiveCount : ℕ
  hitRate : Option ℚ
  meanNetReturn : Option ℚ
  meanNetReturnCiLower : Option ℚ
  maxDrawdown : Option ℚ
  allocationFraction : ℚ
  incrementalEligible : Bool
  fullyStatisticallyQualified : Bool
  blockers : List String

/-- A qualification from the net returns of a cohort: `short` is the blocker of too few returns,
    and `extra` are blockers of a stricter service. Full evidence allocates the whole capital;
    incremental evidence, without a blocker, the fraction of its count. -/
def qualificationOf (R : MechanismRuntime) (short : String) (extra : List String)
    (values : List ℚ) : MechanismQualification :=
  let positive := (values.filter (fun value => 0 < value)).length
  let hit : Option ℚ := if values.isEmpty then none else some (positive / values.length)
  let mean := if values.isEmpty then none else some (fmean values)
  let lower := meanLower R values
  let drawdown := if values.isEmpty then none else some (maxDrawdown values)
  let fraction := forwardEvidenceAllocationFraction values.length
  let blockers :=
    (if values.length < minForwardStart then [short] else [])
    ++ extra
    ++ (if mean.all (· ≤ 0) then ["mean realized net return is non-positive"] else [])
    ++ (if hit.all (· < minHitRate) then ["forward hit rate is below 55%"] else [])
    ++ (if drawdown.all (maxIncrementalDrawdown < ·) then
        ["forward drawdown exceeds mechanism paper-risk limit"] else [])
  -- thirty outcomes, with a lower bound above zero
  let full := fullForwardTarget ≤ values.length && lower.any (0 < ·) && hit.any (minHitRate ≤ ·)
    && drawdown.any (· ≤ maxIncrementalDrawdown)
  let incremental := minForwardStart ≤ values.length && values.length < fullForwardTarget
    && blockers.isEmpty && 0 < fraction
  { sampleCount := values.length
    positiveCount := positive
    hitRate := hit
    meanNetReturn := mean
    meanNetReturnCiLower := lower
    maxDrawdown := drawdown
    allocationFraction := if full then 1 else if incremental then fraction else 0
    incrementalEligible := incremental
    fullyStatisticallyQualified := full
    blockers := blockers
      ++ (if fullForwardTarget ≤ values.length && !full then
          ["full 30-outcome statistical gate is not satisfied"] else []) }

/-- `qualification` of a cohort. -/
def qualification (R : MechanismRuntime) (ledger : MechanismLedger) (cohortKey : String) :
    MechanismQualification :=
  qualificationOf R "fewer than three independent forward outcomes" []
    ((ledger.cohortOutcomes cohortKey).map MechanismForwardOutcome.realizedNetReturn)

/-- The candidate of `_candidate_from_spec` under a qualification, before it is recorded. A
    class with all its evidence stands on the lower bound of its mean, one with the incremental
    evidence on half of its mean. -/
def candidateOf? (R : MechanismRuntime) (q : MechanismQualification) (spec : MechanismTrialSpec) :
    Option MechanismPaperCandidate :=
  let fraction := q.allocationFraction
  if fraction ≤ 0 ∨ ¬ (q.incrementalEligible ∨ q.fullyStatisticallyQualified) then none
  else
    match if q.fullyStatisticallyQualified then q.meanNetReturnCiLower else q.meanNetReturn with
    | none => none
    | some anchor =>
      if anchor ≤ 0 then none
      else
        -- what was predicted caps what the evidence supports
        let expected := min spec.predictedNetReturn
          (if q.fullyStatisticallyQualified then anchor else anchor * (1 / 2))
        if expected ≤ 0 then none
        else
          let capital : ℚ := spec.capitalUsd * fraction
          if h : 0 < capital then
            some {
              candidateId := "mechanism:" ++ spec.mechanismId.value ++ ":"
                ++ R.stable spec.cohortKey spec.sourceObservedAt
              cohortKey := spec.cohortKey
              asset := spec.asset
              venues := spec.venues
              observedAt := spec.sourceObservedAt
              holdingHours := spec.holdingHours
              capitalUsd := ⟨capital, h⟩
              expectedNetReturn := expected
              expectedProfitUsd := capital * expected
              evidenceSampleCount := q.sampleCount
              evidenceAllocationFraction := fraction
              settlementPayload := spec.settlementPayload
              conflictKeys := spec.conflictKeys
              stamps := spec.stamps }
          else none

/-- A candidate has the payload, the stamps and the cohort of its spec. -/
theorem of_candidateOf? {R : MechanismRuntime} {q : MechanismQualification}
    {spec : MechanismTrialSpec} {candidate : MechanismPaperCandidate}
    (h : candidateOf? R q spec = some candidate) :
    candidate.settlementPayload = spec.settlementPayload ∧ candidate.stamps = spec.stamps
      ∧ candidate.cohortKey = spec.cohortKey ∧ 0 < q.allocationFraction := by
  unfold candidateOf? at h
  dsimp only at h
  split at h
  · cases h
  -- the fraction is positive, or there is no candidate
  · rename_i hfraction
    have hpos : 0 < q.allocationFraction := by
      by_contra hle
      exact hfraction (Or.inl (not_lt.mp hle))
    split at h
    · cases h
    -- the candidate is built last, after the return and the capital have been checked
    · rename_i anchor _
      generalize min spec.predictedNetReturn (if q.fullyStatisticallyQualified = true then anchor
        else anchor * (1 / 2)) = expected at h
      split at h
      · cases h
      · split at h
        · cases h
        · split at h
          · injection h with h
            subst h
            exact ⟨rfl, rfl, rfl, hpos⟩
          · cases h

/-! ### The cycle -/

/-- What a cycle obtains from outside the ledger. -/
structure MechanismInput where
  /-- `collect_live_executability`. -/
  collected : Except Raised ScanSnapshot
  /-- What the source tables hold while the cycle runs. -/
  evidence : StoredEvidence
  /-- `source_plane.snapshot`. -/
  coverage : SourceCoverageSnapshot
  optionCapacity : List OptionCapacityObservation
  totalCapitalUsd : Positive

/-- What the mechanism services override. -/
structure MechanismService where
  /-- `settle_trial`. -/
  settleTrial : StoredEvidence → MechanismForwardTrial →
    Except Raised (Option MechanismSettlementResult)
  /-- `_outcome`. -/
  outcome : MechanismForwardTrial → MechanismSettlementResult → MechanismForwardOutcome
  /-- `discover_specs`. -/
  discoverSpecs : MechanismInput → ScanSnapshot → List MechanismTrialSpec
  /-- `ledger.outcomes` of a lane, as the service's view of the ledger gives them. -/
  laneOutcomes : MechanismLedger → MechanismId → List MechanismForwardOutcome
  /-- `qualification`. -/
  qualification : MechanismLedger → String → MechanismId → MechanismQualification
  /-- `_candidate_from_spec`, before the candidate is recorded. -/
  candidateFromSpec? : MechanismInput → MechanismLedger → MechanismTrialSpec →
    Option MechanismPaperCandidate
  outcome_trialId : ∀ trial settlement, (outcome trial settlement).trialId = trial.trialId
  outcome_cohortKey : ∀ trial settlement, (outcome trial settlement).cohortKey = trial.cohortKey
  outcome_mechanismId : ∀ trial settlement,
    (outcome trial settlement).mechanismId = trial.mechanismId

/-- `MechanismExecutionService`. It settles by its own methods and counts all the outcomes of a
    cohort. -/
def baseService (R : MechanismRuntime) : MechanismService where
  settleTrial := settleMechanismTrial R
  outcome := MechanismForwardTrial.outcome
  discoverSpecs input snapshot :=
    Mechanism.discoverSpecs R input.evidence input.totalCapitalUsd snapshot
  laneOutcomes := MechanismLedger.laneOutcomes
  qualification ledger cohortKey _ := Mechanism.qualification R ledger cohortKey
  candidateFromSpec? _ ledger spec :=
    candidateOf? R (Mechanism.qualification R ledger spec.cohortKey) spec
  outcome_trialId := MechanismForwardTrial.outcome_trialId
  outcome_cohortKey := MechanismForwardTrial.outcome_cohortKey
  outcome_mechanismId := MechanismForwardTrial.outcome_mechanismId

/-- The summary of a lane in `by_mechanism`. -/
structure MechanismSummary where
  mechanismId : MechanismId
  outcomeCount : ℕ
  cohortCount : ℕ
  qualifiedCohortCount : ℕ
  fullQualifiedCohortCount : ℕ

/-- `MechanismEvidenceCycle`. What a cycle reports. -/
structure MechanismEvidenceCycle where
  observedAt : Instant
  trialsRecorded : ℕ
  outcomesMatured : ℕ
  currentSpecs : ℕ
  promotedCandidates : ℕ
  byMechanism : List MechanismSummary

/-- `MECHANISM_IDS`. -/
def mechanismIds : List MechanismId :=
  [.yield, .liquidityProvision, .volatility, .liquidationDistress, .capitalLocationSettlement]

section Cycle

variable (R : MechanismRuntime) (S : MechanismService)

/-- The summary of a lane. -/
def mechanismSummary (ledger : MechanismLedger) (mechanismId : MechanismId) : MechanismSummary :=
  let outcomes := S.laneOutcomes ledger mechanismId
  let qualifications := ((outcomes.map MechanismForwardOutcome.cohortKey).dedup).map
    (fun cohortKey => S.qualification ledger cohortKey mechanismId)
  { mechanismId := mechanismId
    outcomeCount := outcomes.length
    cohortCount := qualifications.length
    qualifiedCohortCount := (qualifications.filter (fun q =>
      q.incrementalEligible || q.fullyStatisticallyQualified)).length
    fullQualifiedCohortCount :=
      (qualifications.filter MechanismQualification.fullyStatisticallyQualified).length }

variable (run : ℕ) (input : MechanismInput)

/-- The loop over the pending trials; the result is the number of outcomes. -/
def settlePending (evidence : StoredEvidence) : List MechanismForwardTrial → MechanismProg ℕ
  | [] => pure 0
  | trial :: rest => do
    match ← Prog.lift (S.settleTrial evidence trial) with
    | none => settlePending evidence rest
    | some settlement =>
      Prog.write (.outcome (S.outcome trial settlement))
      let matured ← settlePending evidence rest
      return matured + 1

/-- The trial of a spec, unless its cohort has an open one. -/
def trialFromSpec? (index : ℕ) (ledger : MechanismLedger) (spec : MechanismTrialSpec) :
    Option MechanismForwardTrial :=
  if ledger.hasOpenCohort spec.cohortKey then none else some (spec.trial (R.uuid4 run index))

/-- The loop over the specs, the `index`-th of which may record the `index`-th trial of the
    cycle; the results are the numbers of recorded trials and of promoted candidates. -/
def recordSpecs : ℕ → List MechanismTrialSpec → MechanismProg (ℕ × ℕ)
  | _, [] => pure (0, 0)
  | index, spec :: rest => do
    let ledger ← Prog.get
    let trial := trialFromSpec? R run index ledger spec
    Prog.writeOption (trial.map MechanismWrite.trial)
    let candidate := S.candidateFromSpec? input ledger spec
    Prog.writeOption (candidate.map MechanismWrite.candidate)
    let counts ← recordSpecs (index + 1) rest
    return (if trial.isSome then counts.1 + 1 else counts.1,
      if candidate.isSome then counts.2 + 1 else counts.2)

/-- What the cycle does once the pending trials are settled. -/
def recordCycle (snapshot : ScanSnapshot) (matured : ℕ) : MechanismProg MechanismEvidenceCycle := do
  let specs := S.discoverSpecs input snapshot
  let counts ← recordSpecs R S run input 0 specs
  let ledger ← Prog.get
  return {
    observedAt := snapshot.completedAt
    trialsRecorded := counts.1
    outcomesMatured := matured
    currentSpecs := specs.length
    promotedCandidates := counts.2
    byMechanism := mechanismIds.map (mechanismSummary S ledger) }

/-- `run_evidence_cycle` of the base class, with the overrides of a service. -/
def runEvidenceCycle : MechanismProg MechanismEvidenceCycle := do
  let snapshot ← Prog.lift input.collected
  let ledger ← Prog.get
  let matured ← settlePending S input.evidence (ledger.pending snapshot.completedAt)
  recordCycle R S run input snapshot matured

/-! ### What the settlement loop leaves -/

/-- The outcome of a trial, if it settles. -/
def settledOutcome? (evidence : StoredEvidence) (trial : MechanismForwardTrial) :
    Option MechanismForwardOutcome :=
  match S.settleTrial evidence trial with
  | .ok (some settlement) => some (S.outcome trial settlement)
  | _ => none

/-- No settlement of a list of trials raises. -/
def Settles (evidence : StoredEvidence) (pending : List MechanismForwardTrial) : Prop :=
  ∀ trial ∈ pending, ∃ result, S.settleTrial evidence trial = .ok result

/-- **Settlement loop.** The loop records the outcomes of the trials up to the first whose
    settlement raises, in their order, and of all trials when none raises. A settlement that
    raises leaves the loop at once: the outcomes before it stay, and the trials behind it are
    not looked at in this cycle. -/
theorem settlePending_eq (evidence : StoredEvidence) (pending : List MechanismForwardTrial)
    (ledger : MechanismLedger) :
    ∃ settled, settled <+: pending
      ∧ (settlePending S evidence pending ledger).1
        = (settled.filterMap (settledOutcome? S evidence)).map MechanismWrite.outcome
      ∧ (Settles S evidence pending → settled = pending
          ∧ ∃ matured, (settlePending S evidence pending ledger).2 = .ok matured)
      ∧ (¬ Settles S evidence pending →
        ∃ e, (settlePending S evidence pending ledger).2 = .error e) := by
  induction pending generalizing ledger with
  | nil =>
    refine ⟨[], List.prefix_rfl, rfl, fun _ => ⟨rfl, 0, rfl⟩, fun h => absurd ?_ h⟩
    intro trial htrial
    cases htrial
  | cons trial rest ih =>
    cases hsettle : S.settleTrial evidence trial with
    -- this trial raises, so no outcome of it or of a later trial is written
    | error e =>
      have hrun : settlePending S evidence (trial :: rest) ledger = ([], .error e) := by
        rw [settlePending, hsettle]
        rfl
      refine ⟨[], List.nil_prefix, by rw [hrun]; rfl, fun h => ?_, fun _ => ⟨e, by rw [hrun]⟩⟩
      obtain ⟨result, hresult⟩ := h trial List.mem_cons_self
      rw [hsettle] at hresult
      cases hresult
    | ok result =>
      have hlift : (Prog.lift (S.settleTrial evidence trial) :
          MechanismProg (Option MechanismSettlementResult)) ledger = ([], .ok result) := by
        rw [hsettle]
        rfl
      -- a trial whose settlement returns does not matter for whether the rest settles
      have hiff : Settles S evidence (trial :: rest) ↔ Settles S evidence rest := by
        unfold Settles
        rw [List.forall_mem_cons]
        exact and_iff_right ⟨result, hsettle⟩
      rw [hiff]
      cases result with
      -- the trial is not due or has no evidence: nothing is written
      | none =>
        have houtcome : settledOutcome? S evidence trial = none := by
          rw [settledOutcome?, hsettle]
        have hrun : settlePending S evidence (trial :: rest) ledger
            = settlePending S evidence rest ledger := by
          rw [settlePending, Prog.run_bind_of_silent hlift]
        obtain ⟨settled, hprefix, hwrites, hok, herror⟩ := ih ledger
        refine ⟨trial :: settled, (List.prefix_cons_inj trial).mpr hprefix, ?_, ?_, ?_⟩
        · rw [hrun, hwrites, List.filterMap_cons_none houtcome]
        · intro h
          obtain ⟨rfl, matured, hmatured⟩ := hok h
          exact ⟨rfl, matured, by rw [hrun, hmatured]⟩
        · intro h
          rw [hrun]
          exact herror h
      -- one outcome is written before those of the rest
      | some settlement =>
        have houtcome : settledOutcome? S evidence trial = some (S.outcome trial settlement) := by
          rw [settledOutcome?, hsettle]
        have hwrite : (Prog.write (MechanismWrite.outcome (S.outcome trial settlement)) :
            MechanismProg Unit) ledger
            = ([MechanismWrite.outcome (S.outcome trial settlement)], .ok ()) := rfl
        obtain ⟨settled, hprefix, hwrites, hok, herror⟩ :=
          ih (commitAll ledger [MechanismWrite.outcome (S.outcome trial settlement)])
        have hrun : settlePending S evidence (trial :: rest) ledger
            = (MechanismWrite.outcome (S.outcome trial settlement)
                :: (settlePending S evidence rest
                  (commitAll ledger [MechanismWrite.outcome (S.outcome trial settlement)])).1,
              (settlePending S evidence rest
                (commitAll ledger [MechanismWrite.outcome (S.outcome trial settlement)])).2.map
                  (· + 1)) := by
          rw [settlePending, Prog.run_bind_of_silent hlift]
          show (Prog.write (MechanismWrite.outcome (S.outcome trial settlement)) >>= _) ledger = _
          rw [Prog.run_bind_of_ok hwrite, Prog.run_bind_pure]
          rfl
        refine ⟨trial :: settled, (List.prefix_cons_inj trial).mpr hprefix, ?_, ?_, ?_⟩
        · rw [hrun, hwrites, List.filterMap_cons_some houtcome]
          rfl
        · intro h
          obtain ⟨rfl, matured, hmatured⟩ := hok h
          exact ⟨rfl, matured + 1, by rw [hrun, hmatured]; rfl⟩
        · intro h
          obtain ⟨e, he⟩ := herror h
          exact ⟨e, by rw [hrun, he]; rfl⟩

/-- The ledger once the trials of a list that settle have their outcomes. -/
def afterSettlement (evidence : StoredEvidence) (settled : List MechanismForwardTrial)
    (ledger : MechanismLedger) : MechanismLedger :=
  commitAll ledger ((settled.filterMap (settledOutcome? S evidence)).map MechanismWrite.outcome)

variable {S} {evidence : StoredEvidence}

/-- The outcome of a trial is recorded under its id, cohort and lane. -/
theorem of_settledOutcome? {trial : MechanismForwardTrial} {o : MechanismForwardOutcome}
    (h : settledOutcome? S evidence trial = some o) :
    o.trialId = trial.trialId ∧ o.cohortKey = trial.cohortKey
      ∧ o.mechanismId = trial.mechanismId := by
  unfold settledOutcome? at h
  split at h
  · injection h with h
    subst h
    exact ⟨S.outcome_trialId _ _, S.outcome_cohortKey _ _, S.outcome_mechanismId _ _⟩
  · cases h

/-- Committing outcomes leaves the trials, and completes the trials of the outcomes. -/
theorem commitAll_outcomes (outcomes : List MechanismForwardOutcome) (ledger : MechanismLedger) :
    (commitAll ledger (outcomes.map MechanismWrite.outcome)).trials = ledger.trials
      ∧ (∀ trialId, trialId ∈ (commitAll ledger (outcomes.map MechanismWrite.outcome)).completed
          ↔ trialId ∈ ledger.completed ∨ ∃ o ∈ outcomes, o.trialId = trialId)
      ∧ ∀ o ∈ (commitAll ledger (outcomes.map MechanismWrite.outcome)).outcomes,
          o ∈ ledger.outcomes ∨ o ∈ outcomes := by
  induction outcomes generalizing ledger with
  | nil => exact ⟨rfl, fun trialId => by simp, fun o ho => Or.inl ho⟩
  | cons row rest ih =>
    rw [List.map_cons, commitAll_cons]
    obtain ⟨htrials, hcompleted, hrows⟩ := ih (Durable.commit ledger (MechanismWrite.outcome row))
    have hcommit : Durable.commit ledger (MechanismWrite.outcome row)
        = ledger.commit (.outcome row) := rfl
    by_cases hmem : row.trialId ∈ ledger.completed
    · rw [hcommit, MechanismLedger.commit_outcome_of_completed hmem] at htrials hcompleted hrows ⊢
      refine ⟨htrials, fun trialId => ?_, fun o ho => ?_⟩
      · -- the row is dropped, but its trial has an outcome already
        rw [hcompleted, List.exists_mem_cons_iff]
        constructor
        · rintro (h | h)
          · exact Or.inl h
          · exact Or.inr (Or.inr h)
        · rintro (h | rfl | h)
          · exact Or.inl h
          · exact Or.inl hmem
          · exact Or.inr h
      · rcases hrows o ho with h | h
        · exact Or.inl h
        · exact Or.inr (List.mem_cons_of_mem _ h)
    · rw [hcommit, MechanismLedger.commit_outcome_of_open hmem] at htrials hcompleted hrows ⊢
      refine ⟨htrials, fun trialId => ?_, fun o ho => ?_⟩
      · have happend : trialId ∈ ({ ledger with outcomes := ledger.outcomes ++ [row] } :
            MechanismLedger).completed ↔ trialId ∈ ledger.completed ∨ row.trialId = trialId := by
          simp [MechanismLedger.completed, eq_comm]
        rw [hcompleted, happend, List.exists_mem_cons_iff, or_assoc]
      · rcases hrows o ho with h | h
        · rcases List.mem_append.mp h with h | h
          · exact Or.inl h
          · exact Or.inr (List.mem_cons.mpr (Or.inl (List.mem_singleton.mp h)))
        · exact Or.inr (List.mem_cons_of_mem _ h)

@[simp] theorem afterSettlement_trials (settled : List MechanismForwardTrial)
    (ledger : MechanismLedger) :
    (afterSettlement S evidence settled ledger).trials = ledger.trials :=
  (commitAll_outcomes _ ledger).1

/-- After the settlements a trial has an outcome if it had one before or settled. -/
theorem mem_completed_afterSettlement {settled : List MechanismForwardTrial}
    {ledger : MechanismLedger} {trialId : Uuid} :
    trialId ∈ (afterSettlement S evidence settled ledger).completed
      ↔ trialId ∈ ledger.completed
        ∨ ∃ trial ∈ settled, (settledOutcome? S evidence trial).isSome ∧ trial.trialId = trialId := by
  rw [afterSettlement, (commitAll_outcomes _ ledger).2.1]
  apply or_congr_right
  constructor
  · rintro ⟨o, ho, rfl⟩
    obtain ⟨trial, htrial, hsettled⟩ := List.mem_filterMap.mp ho
    exact ⟨trial, htrial, Option.isSome_of_mem hsettled, (of_settledOutcome? hsettled).1.symm⟩
  · rintro ⟨trial, htrial, hsome, rfl⟩
    obtain ⟨o, ho⟩ := Option.isSome_iff_exists.mp hsome
    exact ⟨o, List.mem_filterMap.mpr ⟨trial, htrial, ho⟩, (of_settledOutcome? ho).1⟩

/-! ### What the recording loop leaves -/

variable (S)

/-- The writes the loop makes for a spec. -/
def specWrites (index : ℕ) (spec : MechanismTrialSpec)
    (ledger : MechanismLedger) : List MechanismWrite :=
  ((trialFromSpec? R run index ledger spec).map MechanismWrite.trial).toList
    ++ ((S.candidateFromSpec? input ledger spec).map MechanismWrite.candidate).toList

/-- The loop writes what a spec gives and goes on with the other specs. -/
theorem recordSpecs_cons (index : ℕ) (spec : MechanismTrialSpec) (rest : List MechanismTrialSpec)
    (ledger : MechanismLedger) :
    ∃ f : ℕ × ℕ → ℕ × ℕ, recordSpecs R S run input index (spec :: rest) ledger
      = (specWrites R S run input index spec ledger ++ (recordSpecs R S run input (index + 1) rest
            (commitAll ledger (specWrites R S run input index spec ledger))).1,
          (recordSpecs R S run input (index + 1) rest
            (commitAll ledger (specWrites R S run input index spec ledger))).2.map f) := by
  have hwrite : ∀ (w : Option MechanismWrite) (s : MechanismLedger),
      (Prog.writeOption w : MechanismProg Unit) s = (w.toList, .ok ()) := fun _ _ => rfl
  rw [recordSpecs, Prog.run_get_bind, Prog.run_bind_of_ok (hwrite _ _),
    Prog.run_bind_of_ok (hwrite _ _), Prog.run_bind_pure, specWrites, commitAll_append,
    List.append_assoc]
  exact ⟨_, rfl⟩

variable {R S run input}

/-- A spec of a closed cohort gives a trial, one of an open cohort none. -/
theorem of_mem_trialFromSpec? {index : ℕ} {spec : MechanismTrialSpec} {ledger : MechanismLedger}
    {trial : MechanismForwardTrial}
    (h : trial ∈ (trialFromSpec? R run index ledger spec).toList) :
    ledger.hasOpenCohort spec.cohortKey = false ∧ trial = spec.trial (R.uuid4 run index) := by
  rw [Option.mem_toList, trialFromSpec?] at h
  by_cases hopen : ledger.hasOpenCohort spec.cohortKey = true
  · rw [if_pos hopen] at h
    cases h
  · rw [if_neg hopen] at h
    exact ⟨Bool.eq_false_of_not_eq_true hopen, (Option.some_inj.mp h).symm⟩

/-- Writing a candidate leaves the trials and the outcomes. -/
theorem commitAll_candidate (candidate : Option MechanismPaperCandidate) (ledger : MechanismLedger) :
    (commitAll ledger (candidate.map MechanismWrite.candidate).toList).trials = ledger.trials
      ∧ (commitAll ledger (candidate.map MechanismWrite.candidate).toList).outcomes
        = ledger.outcomes := by
  cases candidate with
  | none => exact ⟨rfl, rfl⟩
  | some row => exact ledger.commit_candidate row

variable (R S run input) in
/-- Writing the trial of a spec under a new id adds it to the trials. -/
theorem commitAll_specWrites (index : ℕ) (spec : MechanismTrialSpec) (ledger : MechanismLedger)
    (hnew : ∀ trial ∈ ledger.trials, trial.trialId ≠ R.uuid4 run index) :
    (commitAll ledger (specWrites R S run input index spec ledger)).trials
        = ledger.trials ++ (trialFromSpec? R run index ledger spec).toList
      ∧ (commitAll ledger (specWrites R S run input index spec ledger)).outcomes = ledger.outcomes := by
  rw [specWrites, commitAll_append, (commitAll_candidate _ _).1, (commitAll_candidate _ _).2]
  by_cases hopen : ledger.hasOpenCohort spec.cohortKey = true
  · rw [trialFromSpec?, if_pos hopen]
    exact ⟨(List.append_nil _).symm, rfl⟩
  · rw [trialFromSpec?, if_neg hopen]
    have hcommit : commitAll ledger ((some (spec.trial (R.uuid4 run index))).map
        MechanismWrite.trial).toList
        = ledger.commit (.trial (spec.trial (R.uuid4 run index))) := rfl
    rw [hcommit, MechanismLedger.commit_trial hnew]
    exact ⟨rfl, rfl⟩

/-- After the writes for a spec its cohort is open, and the later ids are still new. -/
theorem open_after_specWrites (index : ℕ) (spec : MechanismTrialSpec) (ledger : MechanismLedger)
    (hnew : ∀ trial ∈ ledger.trials, ∀ i, index ≤ i → trial.trialId ≠ R.uuid4 run i)
    (hcompleted : ∀ i, index ≤ i → R.uuid4 run i ∉ ledger.completed)
    {next : MechanismLedger}
    (hnext : commitAll ledger (specWrites R S run input index spec ledger) = next) :
    next.completed = ledger.completed
      ∧ (∀ trial ∈ next.trials, ∀ i, index + 1 ≤ i → trial.trialId ≠ R.uuid4 run i)
      ∧ next.hasOpenCohort spec.cohortKey = true := by
  obtain ⟨htrials, houtcomes⟩ := commitAll_specWrites R S run input index spec ledger
    (fun trial hmem => hnew trial hmem index le_rfl)
  rw [hnext] at htrials houtcomes
  have hcompleted' : next.completed = ledger.completed := by
    rw [MechanismLedger.completed, houtcomes]
    rfl
  -- the trials grow by those of the spec, and no outcome is added
  refine ⟨hcompleted', ?_, ?_⟩
  · intro trial hmem i hi
    rw [htrials, List.mem_append] at hmem
    rcases hmem with hmem | hmem
    · exact hnew trial hmem i (by omega)
    -- a new trial has the id of this spec's index, which the later ids differ from
    · obtain ⟨-, rfl⟩ := of_mem_trialFromSpec? hmem
      intro hid
      have hindex := (R.uuid4_injective hid).2
      omega
  -- a cohort that was open stays open
  · by_cases hopen : ledger.hasOpenCohort spec.cohortKey = true
    · refine MechanismLedger.hasOpenCohort_mono (fun trial hmem => ?_) hcompleted' hopen
      rw [htrials]
      exact List.mem_append_left _ hmem
    -- otherwise the spec's own trial opens it
    · refine MechanismLedger.hasOpenCohort_iff.mpr ⟨spec.trial (R.uuid4 run index), ?_, rfl, ?_⟩
      · rw [htrials, trialFromSpec?, if_neg hopen]
        exact List.mem_append_right _ (List.mem_singleton.mpr rfl)
      · rw [hcompleted']
        exact hcompleted index le_rfl

variable (R S run input) in
/-- The rest of the loop runs from what the first spec left. -/
theorem recordSpecs_final_cons (index : ℕ) (spec : MechanismTrialSpec)
    (rest : List MechanismTrialSpec) (ledger : MechanismLedger) :
    (recordSpecs R S run input index (spec :: rest)).final ledger
      = (recordSpecs R S run input (index + 1) rest).final
        (commitAll ledger (specWrites R S run input index spec ledger)) := by
  obtain ⟨f, hcons⟩ := recordSpecs_cons R S run input index spec rest ledger
  rw [Prog.final, Prog.final, hcons, commitAll_append]

variable (R S run input) in
/-- **Recording loop.** When the ids of the cycle are new and no other trial has an outcome, the
    loop adds trials of distinct cohorts, each of them the first spec of its cohort, which was
    closed when the loop began. A spec whose cohort is open is passed over, and a trial recorded
    opens its cohort for the specs behind it, so two trials of one loop never share a cohort. -/
theorem recordSpecs_final (specs : List MechanismTrialSpec) (index : ℕ) (ledger : MechanismLedger)
    (hnew : ∀ trial ∈ ledger.trials, ∀ i, index ≤ i → trial.trialId ≠ R.uuid4 run i)
    (hcompleted : ∀ i, index ≤ i → R.uuid4 run i ∉ ledger.completed) :
    ∃ added, ((recordSpecs R S run input index specs).final ledger).trials = ledger.trials ++ added
      ∧ ((recordSpecs R S run input index specs).final ledger).outcomes = ledger.outcomes
      ∧ (∃ counts, (recordSpecs R S run input index specs ledger).2 = .ok counts)
      ∧ (∀ trial ∈ added, ∃ i, index ≤ i ∧ ∃ spec, trial = spec.trial (R.uuid4 run i)
          ∧ specs.find? (fun s => s.cohortKey = spec.cohortKey) = some spec
          ∧ ledger.hasOpenCohort spec.cohortKey = false)
      ∧ added.Pairwise (fun t t' => t.trialId ≠ t'.trialId ∧ t.cohortKey ≠ t'.cohortKey) := by
  induction specs generalizing index ledger with
  | nil =>
    refine ⟨[], (List.append_nil _).symm, rfl, ⟨_, rfl⟩, fun trial h => ?_, List.Pairwise.nil⟩
    cases h
  | cons spec rest ih =>
    obtain ⟨f, hcons⟩ := recordSpecs_cons R S run input index spec rest ledger
    obtain ⟨htrials, houtcomes⟩ := commitAll_specWrites R S run input index spec ledger
      (fun trial hmem => hnew trial hmem index le_rfl)
    have hfinal := recordSpecs_final_cons R S run input index spec rest ledger
    generalize hnext : commitAll ledger (specWrites R S run input index spec ledger) = next
      at hcons htrials houtcomes hfinal
    obtain ⟨hcompleted', hnew', hopen⟩ := open_after_specWrites index spec ledger hnew hcompleted hnext
    obtain ⟨added, hadded, hout, ⟨counts, hcounts⟩, hspecs, hpair⟩ := ih (index + 1) next hnew'
      (fun i hi => by rw [hcompleted']; exact hcompleted i (by omega))
    refine ⟨(trialFromSpec? R run index ledger spec).toList ++ added, ?_, ?_, ?_, ?_, ?_⟩
    · rw [hfinal, hadded, htrials, List.append_assoc]
    · rw [hfinal, hout, houtcomes]
    · refine ⟨f counts, ?_⟩
      rw [hcons]
      show ((recordSpecs R S run input (index + 1) rest next).2.map f) = _
      rw [hcounts]
      rfl
    -- the first spec stands for its cohort; a later one is first of another cohort
    · intro trial hmem
      rcases List.mem_append.mp hmem with hmem | hmem
      · obtain ⟨hclosed, rfl⟩ := of_mem_trialFromSpec? hmem
        exact ⟨index, le_rfl, spec, rfl, List.find?_cons_of_pos (decide_eq_true rfl), hclosed⟩
      · obtain ⟨i, hi, spec', rfl, hfind, hclosed⟩ := hspecs trial hmem
        have hne : spec.cohortKey ≠ spec'.cohortKey := by
          intro heq
          rw [← heq, hopen] at hclosed
          cases hclosed
        refine ⟨i, by omega, spec', rfl, ?_, ?_⟩
        · rw [List.find?_cons_of_neg (by simpa using hne)]
          exact hfind
        -- a cohort closed after the first spec was closed before it
        · by_contra hledger
          rw [MechanismLedger.hasOpenCohort_mono (fun trial hmem => ?_) hcompleted'
            (Bool.eq_true_of_not_eq_false hledger)] at hclosed
          · cases hclosed
          · rw [htrials]
            exact List.mem_append_left _ hmem
    · refine List.pairwise_append.mpr ⟨?_, hpair, ?_⟩
      · cases trialFromSpec? R run index ledger spec with
        | none => exact List.Pairwise.nil
        | some trial => exact List.pairwise_singleton _ trial
      -- the trial of the first spec keeps its cohort open for all that follow
      · intro trial hmem trial' hmem'
        obtain ⟨-, rfl⟩ := of_mem_trialFromSpec? hmem
        obtain ⟨i, hi, spec', rfl, -, hclosed⟩ := hspecs trial' hmem'
        refine ⟨fun hid => ?_, fun heq => ?_⟩
        · have hindex := (R.uuid4_injective hid).2
          omega
        · have hcohort : spec.cohortKey = spec'.cohortKey := heq
          rw [← hcohort, hopen] at hclosed
          cases hclosed

/-- After the loop every spec's cohort has an open trial. -/
theorem hasOpenCohort_recordSpecs (specs : List MechanismTrialSpec) (index : ℕ)
    (ledger : MechanismLedger)
    (hnew : ∀ trial ∈ ledger.trials, ∀ i, index ≤ i → trial.trialId ≠ R.uuid4 run i)
    (hcompleted : ∀ i, index ≤ i → R.uuid4 run i ∉ ledger.completed) :
    ∀ spec ∈ specs,
      ((recordSpecs R S run input index specs).final ledger).hasOpenCohort spec.cohortKey = true := by
  induction specs generalizing index ledger with
  | nil =>
    intro spec hspec
    cases hspec
  | cons head rest ih =>
    generalize hnext : commitAll ledger (specWrites R S run input index head ledger) = next
    obtain ⟨hcompleted', hnew', hopen⟩ := open_after_specWrites index head ledger hnew hcompleted hnext
    have hids : ∀ i, index + 1 ≤ i → R.uuid4 run i ∉ next.completed := by
      intro i hi
      rw [hcompleted']
      exact hcompleted i (by omega)
    intro spec hspec
    rw [recordSpecs_final_cons, hnext]
    rcases List.mem_cons.mp hspec with rfl | hspec
    · -- the trial stays open: the rest of the loop only adds trials
      obtain ⟨added, hadded, hout, -⟩ := recordSpecs_final R S run input rest (index + 1) next
        hnew' hids
      refine MechanismLedger.hasOpenCohort_mono (fun trial hmem => ?_) ?_ hopen
      · rw [hadded]
        exact List.mem_append_left _ hmem
      · rw [MechanismLedger.completed, hout]
        rfl
    · exact ih (index + 1) next hnew' hids spec hspec

/-! ### The whole cycle -/

variable (R run)

variable (S input) in
/-- The recording loop never raises. -/
theorem recordSpecs_ok (specs : List MechanismTrialSpec) (index : ℕ)
    (ledger : MechanismLedger) :
    ∃ counts, (recordSpecs R S run input index specs ledger).2 = .ok counts := by
  induction specs generalizing index ledger with
  | nil => exact ⟨_, rfl⟩
  | cons spec rest ih =>
    obtain ⟨f, hcons⟩ := recordSpecs_cons R S run input index spec rest ledger
    obtain ⟨counts, hcounts⟩ := ih (index + 1)
      (commitAll ledger (specWrites R S run input index spec ledger))
    exact ⟨f counts, by rw [hcons, hcounts]; rfl⟩

variable (S input) in
/-- What follows the settlements writes what the recording loop writes, and does not raise. -/
theorem recordCycle_eq (snapshot : ScanSnapshot) (matured : ℕ) (ledger : MechanismLedger) :
    ∃ cycle, recordCycle R S run input snapshot matured ledger
      = ((recordSpecs R S run input 0 (S.discoverSpecs input snapshot) ledger).1, .ok cycle) := by
  obtain ⟨counts, hcounts⟩ := recordSpecs_ok R S run input
    (S.discoverSpecs input snapshot) 0 ledger
  have hrun : recordSpecs R S run input 0 (S.discoverSpecs input snapshot) ledger
      = ((recordSpecs R S run input 0 (S.discoverSpecs input snapshot) ledger).1, .ok counts) :=
    Prod.ext rfl hcounts
  rw [recordCycle, Prog.run_bind_of_ok hrun]
  exact ⟨_, Prod.ext (List.append_nil _) rfl⟩

/-- **Cycle.** When the snapshot was collected and no settlement raises, the cycle settles all
    pending trials, then records the discovered specs, and completes. -/
theorem runEvidenceCycle_final {snapshot : ScanSnapshot} {ledger : MechanismLedger}
    (hcollected : input.collected = .ok snapshot)
    (hsettles : Settles S input.evidence (ledger.pending snapshot.completedAt)) :
    (runEvidenceCycle R S run input).final ledger
        = (recordSpecs R S run input 0 (S.discoverSpecs input snapshot)).final
          (afterSettlement S input.evidence (ledger.pending snapshot.completedAt) ledger)
      ∧ ∃ cycle, (runEvidenceCycle R S run input ledger).2 = .ok cycle := by
  -- all pending trials are tried, as none raises
  obtain ⟨settled, -, hwrites, hok, -⟩ := settlePending_eq S input.evidence
    (ledger.pending snapshot.completedAt) ledger
  obtain ⟨rfl, matured, hmatured⟩ := hok hsettles
  have hlift : (Prog.lift input.collected : MechanismProg ScanSnapshot) ledger
      = ([], .ok snapshot) := by
    rw [hcollected]
    rfl
  obtain ⟨cycle, hcycle⟩ := recordCycle_eq R S run input snapshot matured
    (afterSettlement S input.evidence (ledger.pending snapshot.completedAt) ledger)
  -- the writes are the outcomes in order, and then those of the specs
  have hrun : runEvidenceCycle R S run input ledger
      = (((ledger.pending snapshot.completedAt).filterMap
            (settledOutcome? S input.evidence)).map MechanismWrite.outcome
          ++ (recordSpecs R S run input 0 (S.discoverSpecs input snapshot)
            (afterSettlement S input.evidence (ledger.pending snapshot.completedAt) ledger)).1,
        .ok cycle) := by
    rw [runEvidenceCycle, Prog.run_bind_of_silent hlift, Prog.run_get_bind,
      Prog.run_bind_of_ok (Prod.ext hwrites hmatured)]
    rw [afterSettlement] at hcycle ⊢
    rw [hcycle]
  refine ⟨?_, cycle, by rw [hrun]⟩
  rw [Prog.final, hrun, commitAll_append]
  rfl

end Cycle

end InefficiencyEngine.Mechanism
