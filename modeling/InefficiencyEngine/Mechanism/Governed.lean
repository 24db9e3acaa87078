import InefficiencyEngine.Mechanism.Cycle
import InefficiencyEngine.Mechanism.ExecutableLanes
import InefficiencyEngine.Mechanism.Positions

namespace InefficiencyEngine.Mechanism

open Portfolio Durable

/-!
# The governed services

`GovernedMechanismExecutionService` admits a discovered spec to a forward trial once its lane
has complete evidence from one source, stamps that decision onto it, and makes a candidate
only where two independent sources agree.  Liquidation outcomes whose capture was modelled do
not count for its qualification.  `EvidenceVelocityLaneSuccessMechanismExecutionService` adds
feedback records of its own and is otherwise the same service: `governedService`.

`YieldResearchShadowMechanismExecutionService` lets the yield lane through that gate for
research only: it stamps its specs as shadows, labels their outcomes, and never qualifies a
yield cohort: `yieldShadowService`.

The allocator reads candidates through the governed service, the research process through the
yield shadow service: `promotedCandidates` and `shadowPromotedCandidates`.
-/

section Governed

variable (R : MechanismRuntime)

/-! ### Discovery -/

/-- The `source_evidence_gate` stamped onto a spec that passed a gate. -/
def CandidateSourceSufficiency.gate (gate : CandidateSourceSufficiency) : SourceEvidenceGate where
  researchEligible := gate.researchEligible
  forwardTestEligible := gate.forwardTestEligible
  allocationSourceQualified := gate.allocationSourceQualified
  coveredEvidenceClasses := gate.coveredEvidenceClasses
  missingEvidenceClasses := gate.missingEvidenceClasses
  admittedSourceGroups := gate.admittedSourceGroups
  primarySourceGroups := gate.primarySourceGroups
  semanticEconomicsComplete := true

/-- What the governed service makes of a discovered spec; `ready` is the service's
    `_semantic_economics_ready`. -/
def governedSpec? (ready : MechanismId → LaneSourceCoverage → Bool) (input : MechanismInput)
    (snapshot : ScanSnapshot) (raw : MechanismTrialSpec) : Option MechanismTrialSpec :=
  match capacityBoundedVolatilitySpec? R input.optionCapacity snapshot.completedAt raw with
  | none => none
  | some row =>
    match input.coverage.lane? row.mechanismId, sourceGate R input.coverage row.mechanismId row.venues with
    | some lane, some gate =>
      if !gate.forwardTestEligible || !ready row.mechanismId lane then none
      else some { row with stamps := { row.stamps with sourceEvidenceGate := some gate.gate } }
    | _, _ => none

/-- `GovernedMechanismExecutionService.discover_specs`. -/
def governedSpecs (ready : MechanismId → LaneSourceCoverage → Bool) (input : MechanismInput)
    (snapshot : ScanSnapshot) : List MechanismTrialSpec :=
  (executableSpecs R input.evidence input.totalCapitalUsd snapshot).filterMap
    (governedSpec? R ready input snapshot)

/-- `YieldResearchShadowMechanismExecutionService._semantic_economics_ready`. -/
def shadowEconomicsReady (mechanismId : MechanismId) (lane : LaneSourceCoverage) : Bool :=
  mechanismId = .yield || semanticEconomicsReady mechanismId lane

/-- A gate of which nothing was recorded. -/
def SourceEvidenceGate.absent : SourceEvidenceGate :=
  ⟨false, false, false, [], [], [], [], false, false⟩

/-- The research stamp of a yield spec. -/
def shadowSpec (spec : MechanismTrialSpec) : MechanismTrialSpec :=
  if spec.mechanismId ≠ .yield then spec
  else
    let gate := spec.stamps.sourceEvidenceGate.getD .absent
    { spec with stamps := {
        sourceEvidenceGate := some { gate with
          semanticEconomicsComplete := false
          researchShadowOnly := true }
        yieldResearchShadow := true } }

/-- `YieldResearchShadowMechanismExecutionService.discover_specs`. -/
def shadowSpecs (input : MechanismInput) (snapshot : ScanSnapshot) : List MechanismTrialSpec :=
  (governedSpecs R shadowEconomicsReady input snapshot).map shadowSpec

/-! ### Outcomes -/

/-- `YieldResearchShadowMechanismExecutionService._outcome`. The outcome of a shadow is stamped
    as research, so that no allocation counts it. -/
def shadowOutcome (trial : MechanismForwardTrial) (settlement : MechanismSettlementResult) :
    MechanismForwardOutcome :=
  let outcome := trial.outcome settlement
  if trial.mechanismId ≠ .yield ∨ ¬ trial.stamps.yieldResearchShadow then outcome
  else { outcome with
    settlementEvidenceComplete := false
    detail := { outcome.detail with
      yieldResearchShadow := true
      protocolRiskCalibrationComplete := false
      allocationGrade := false } }

/-- `_liquidation_outcome_is_allocation_grade`. The evidence of the outcome is complete, its
    capture was not modelled, and its method is none of the two for research. -/
def liquidationAllocationGrade (row : MechanismForwardOutcome) : Bool :=
  row.settlementEvidenceComplete
    && !row.detail.paperCaptureProbabilityModel
    && row.detail.captureAssumed ≠ some false
    && row.settlementMethod ≠ "observed_liquidation_price_to_recovery_mark"
    && row.settlementMethod ≠ "latency_adjusted_capture_probability_recovery_shadow"

/-- `_yield_outcome_is_allocation_grade`. -/
def yieldAllocationGrade (row : MechanismForwardOutcome) : Bool :=
  row.settlementEvidenceComplete
    && !row.detail.yieldResearchShadow
    && row.detail.protocolRiskCalibrationComplete
    && row.detail.allocationGrade

/-- `_GovernedMechanismLedgerView.outcomes` of a lane. -/
def governedOutcomes (ledger : MechanismLedger) (mechanismId : MechanismId) :
    List MechanismForwardOutcome :=
  let rows := ledger.laneOutcomes mechanismId
  if mechanismId = .liquidationDistress then rows.filter liquidationAllocationGrade else rows

/-- `allocation_grade_outcomes` of a lane, as the yield shadow service reads them. -/
def allocationGradeOutcomes (ledger : MechanismLedger) (mechanismId : MechanismId) :
    List MechanismForwardOutcome :=
  let rows := ledger.laneOutcomes mechanismId
  if mechanismId = .yield then rows.filter yieldAllocationGrade
  else if mechanismId = .liquidationDistress then rows.filter liquidationAllocationGrade
  else rows

/-! ### Qualification -/

/-- The returns of a liquidation cohort that are allocation grade. -/
def liquidationReturns (ledger : MechanismLedger) (cohortKey : String) : List ℚ :=
  (((ledger.laneOutcomes .liquidationDistress).filter (fun o => o.cohortKey = cohortKey)).filter
    liquidationAllocationGrade).map MechanismForwardOutcome.realizedNetReturn

/-- `GovernedMechanismExecutionService.qualification`. The liquidation lane counts the outcomes
    of allocation grade only. -/
def governedQualification (ledger : MechanismLedger) (cohortKey : String)
    (mechanismId : MechanismId) : MechanismQualification :=
  if mechanismId ≠ .liquidationDistress then qualification R ledger cohortKey
  else
    let values := liquidationReturns ledger cohortKey
    qualificationOf R "fewer than three independent allocation-grade forward outcomes"
      (if values.isEmpty then
        ["liquidation recovery shadows are research-only until empirical capture/selection and settlement evidence is connected"]
      else []) values

/-- The qualification of a yield cohort: its statistics, and no authority. Its first blocker
    stands whatever the outcomes are, as the losses of protocols are not calibrated. -/
def yieldQualification (ledger : MechanismLedger) (cohortKey : String) : MechanismQualification :=
  let values := ((ledger.laneOutcomes .yield).filter (fun o => o.cohortKey = cohortKey)).map
    MechanismForwardOutcome.realizedNetReturn
  let positive := (values.filter (fun value => 0 < value)).length
  let hit : Option ℚ := if values.isEmpty then none else some (positive / values.length)
  let mean := if values.isEmpty then none else some (fmean values)
  let lower := meanLower R values
  let drawdown := if values.isEmpty then none else some (maxDrawdown values)
  { sampleCount := values.length
    positiveCount := positive
    hitRate := hit
    meanNetReturn := mean
    meanNetReturnCiLower := lower
    maxDrawdown := drawdown
    allocationFraction := 0
    incrementalEligible := false
    fullyStatisticallyQualified := false
    blockers :=
      ["yield forward outcomes are research-only until empirical protocol-loss economics are calibrated"]
      ++ (if values.length < minForwardStart then
          ["fewer than three independent yield research-shadow outcomes"] else [])
      ++ (if mean.all (· ≤ 0) then ["mean research-shadow net return is non-positive"] else [])
      ++ (if hit.all (· < minHitRate) then ["research-shadow forward hit rate is below 55%"] else [])
      ++ (if drawdown.all (maxIncrementalDrawdown < ·) then
          ["research-shadow drawdown exceeds mechanism paper-risk limit"] else [])
      ++ (if fullForwardTarget ≤ values.length && lower.all (· ≤ 0) then
          ["30-outcome research-shadow confidence lower bound is non-positive"] else []) }

/-- `YieldResearchShadowMechanismExecutionService.qualification`. -/
def shadowQualification (ledger : MechanismLedger) (cohortKey : String)
    (mechanismId : MechanismId) : MechanismQualification :=
  if mechanismId ≠ .yield then governedQualification R ledger cohortKey mechanismId
  else yieldQualification R ledger cohortKey

/-! ### Candidates -/

/-- Whether the sources of a spec allow a candidate: its stamp decides, and a spec without a
    stamp is asked about again. -/
def allocationQualified (input : MechanismInput) (spec : MechanismTrialSpec) : Bool :=
  match spec.stamps.sourceEvidenceGate with
  | some gate => gate.allocationSourceQualified && gate.semanticEconomicsComplete
  | none => (sourceGate R input.coverage spec.mechanismId spec.venues).any
      CandidateSourceSufficiency.allocationSourceQualified

/-- `GovernedMechanismExecutionService._candidate_from_spec`, on the qualification of the
    service. -/
def governedCandidate? (qualify : MechanismLedger → String → MechanismId → MechanismQualification)
    (input : MechanismInput) (ledger : MechanismLedger) (spec : MechanismTrialSpec) :
    Option MechanismPaperCandidate :=
  if allocationQualified R input spec then
    candidateOf? R (qualify ledger spec.cohortKey spec.mechanismId) spec
  else none

/-- Whether a stamp lets a yield row out of research. -/
def yieldGateOpen (stamps : PayloadStamps) : Bool :=
  match stamps.sourceEvidenceGate with
  | some gate => gate.semanticEconomicsComplete && !gate.researchShadowOnly
  | none => false

/-- `YieldResearchShadowMechanismExecutionService._candidate_from_spec`. -/
def shadowCandidate? (input : MechanismInput) (ledger : MechanismLedger)
    (spec : MechanismTrialSpec) : Option MechanismPaperCandidate :=
  if spec.mechanismId = .yield && !yieldGateOpen spec.stamps then none
  else governedCandidate? R (shadowQualification R) input ledger spec

/-! ### The services -/

/-- `EvidenceVelocityLaneSuccessMechanismExecutionService`. It settles on executable evidence,
    and counts and qualifies by the governed rules. -/
def governedService : MechanismService where
  settleTrial evidence trial := .ok (settleExecutable R evidence trial)
  outcome := MechanismForwardTrial.outcome
  discoverSpecs := governedSpecs R semanticEconomicsReady
  laneOutcomes := governedOutcomes
  qualification := governedQualification R
  candidateFromSpec? := governedCandidate? R (governedQualification R)
  outcome_trialId := MechanismForwardTrial.outcome_trialId
  outcome_cohortKey := MechanismForwardTrial.outcome_cohortKey
  outcome_mechanismId := MechanismForwardTrial.outcome_mechanismId

/-- The labels of a shadow outcome change neither its trial, nor its cohort, nor its lane. -/
theorem shadowOutcome_keys (trial : MechanismForwardTrial) (settlement : MechanismSettlementResult) :
    (shadowOutcome trial settlement).trialId = trial.trialId
      ∧ (shadowOutcome trial settlement).cohortKey = trial.cohortKey
      ∧ (shadowOutcome trial settlement).mechanismId = trial.mechanismId := by
  unfold shadowOutcome
  dsimp only
  split
  · exact ⟨rfl, rfl, rfl⟩
  · exact ⟨rfl, rfl, rfl⟩

/-- `YieldResearchShadowMechanismExecutionService`. -/
def yieldShadowService : MechanismService where
  settleTrial evidence trial := .ok (settleExecutable R evidence trial)
  outcome := shadowOutcome
  discoverSpecs := shadowSpecs R
  laneOutcomes := governedOutcomes
  qualification := shadowQualification R
  candidateFromSpec? := shadowCandidate? R
  outcome_trialId trial settlement := (shadowOutcome_keys trial settlement).1
  outcome_cohortKey trial settlement := (shadowOutcome_keys trial settlement).2.1
  outcome_mechanismId trial settlement := (shadowOutcome_keys trial settlement).2.2

/-- What a governed cycle adds to the summary of a research lane. -/
structure ShadowSummary where
  researchShadowOutcomeCount : ℕ
  allocationGradeOutcomeCount : ℕ
  modeledRecoveryShadowCount : ℕ

/-- The counts of a research lane. -/
def shadowSummary (ledger : MechanismLedger) (mechanismId : MechanismId) : ShadowSummary :=
  let raw := (ledger.laneOutcomes mechanismId).length
  let grade := (allocationGradeOutcomes ledger mechanismId).length
  ⟨raw, grade, raw - grade⟩

/-- `YieldResearchShadowMechanismExecutionService.run_evidence_cycle`; the counts are those of
    the liquidation and the yield lane. -/
def runShadowCycle (run : ℕ) (input : MechanismInput) :
    MechanismProg (MechanismEvidenceCycle × ShadowSummary × ShadowSummary) := do
  let cycle ← runEvidenceCycle R (yieldShadowService R) run input
  let ledger ← Prog.get
  return (cycle, shadowSummary ledger .liquidationDistress, shadowSummary ledger .yield)

/-! ### What the allocator reads -/

/-- `MechanismExecutionService.promoted_candidates`, on the qualification of a service. -/
def qualifiedCandidates (S : MechanismService) (ledger : MechanismLedger) (maxAgeHours : ℚ)
    (now : Instant) : List MechanismPaperCandidate :=
  (ledger.latestCandidates maxAgeHours now).filter (fun row =>
    let q := S.qualification ledger row.cohortKey row.mechanismId
    q.incrementalEligible || q.fullyStatisticallyQualified)

/-- `GovernedMechanismExecutionService.promoted_candidates`, on the qualification and the
    semantic check of a service. -/
def sourcedCandidates (S : MechanismService) (ready : MechanismId → LaneSourceCoverage → Bool)
    (coverage : SourceCoverageSnapshot) (ledger : MechanismLedger) (maxAgeHours : ℚ)
    (now : Instant) : List MechanismPaperCandidate :=
  (qualifiedCandidates S ledger maxAgeHours now).filter (fun row =>
    match coverage.lane? row.mechanismId, sourceGate R coverage row.mechanismId row.venues with
    | some lane, some gate => gate.allocationSourceQualified && ready row.mechanismId lane
    | _, _ => false)

/-- `promoted_candidates` of the governed service. -/
def promotedCandidates (coverage : SourceCoverageSnapshot) (ledger : MechanismLedger)
    (maxAgeHours : ℚ) (now : Instant) : List MechanismPaperCandidate :=
  sourcedCandidates R (governedService R) semanticEconomicsReady coverage ledger maxAgeHours now

/-- `promoted_candidates` of the yield shadow service. -/
def shadowPromotedCandidates (coverage : SourceCoverageSnapshot) (ledger : MechanismLedger)
    (maxAgeHours : ℚ) (now : Instant) : List MechanismPaperCandidate :=
  (sourcedCandidates R (yieldShadowService R) shadowEconomicsReady coverage ledger maxAgeHours
    now).filter (fun row => row.mechanismId ≠ .yield || yieldGateOpen row.stamps)

/-- `promoted_proxy_candidates`, from the candidates promoted within a day. -/
def promotedProxyCandidates (totalCapitalUsd : Positive)
    (promoted : List MechanismPaperCandidate) : List UnifiedPaperCandidate :=
  promoted.filterMap (promotedProxy? R totalCapitalUsd)

end Governed

end InefficiencyEngine.Mechanism
