import InefficiencyEngine.Lib.Durable
import InefficiencyEngine.Mechanism.Evidence

namespace InefficiencyEngine.Mechanism

open Portfolio Durable

/-!
# The mechanism ledger — trials, outcomes and promoted candidates

`MechanismExecutionLedger` of `mechanism_execution.py`.  A spec is what a lane found on
its evidence; a trial is a spec with an identity and a horizon; an outcome is the
settlement of a trial.  The settlement payload of a spec determines its lane, so a trial
whose payload another lane wrote cannot be built.

The tables only grow, and a trial has at most one row in each.
-/

/-! ### Payloads -/

/-- `MechanismId`. The mechanisms that have a lane. -/
inductive MechanismId
  | yield
  | liquidityProvision
  | volatility
  | liquidationDistress
  | capitalLocationSettlement
  deriving DecidableEq

/-- The text of a lane. -/
def MechanismId.value : MechanismId → String
  | .yield => "yield"
  | .liquidityProvision => "liquidity_provision"
  | .volatility => "volatility"
  | .liquidationDistress => "liquidation_distress"
  | .capitalLocationSettlement => "capital_location_settlement"

/-- What a yield trial settles with. -/
structure YieldPayload where
  observationId : String
  protocol : String
  asset : String
  kind : YieldKind
  entryNetApy : ℚ
  entryExitCostBps : ℚ≥0
  capacityUsd : Positive

/-- The visible queue a maker order waits in. -/
structure VisibleQueue where
  bidQueueAheadUsd : ℚ
  askQueueAheadUsd : ℚ
  orderNotionalUsd : ℚ

/-- What a maker trial settles with; a trial of the older service has no queue. -/
structure MakerPayload where
  venue : String
  asset : String
  symbol : String
  marketKind : MarketKind
  bid : ℚ
  ask : ℚ
  mid : ℚ
  quantity : ℚ
  estimatedFillProbability : ℚ
  queue : Option VisibleQueue

/-- The direction of a volatility candidate. -/
inductive VolatilityDirection
  | longVolatility
  | shortVolatility
  deriving DecidableEq

/-- The text of a direction. -/
def VolatilityDirection.value : VolatilityDirection → String
  | .longVolatility => "long_volatility"
  | .shortVolatility => "short_volatility"

/-- The contract of an option. -/
structure OptionContract where
  venue : String
  underlying : String
  expiry : Instant
  strike : ℚ
  optionType : OptionType

/-- What a volatility trial on one option settles with. -/
structure VolatilityPayload where
  contract : OptionContract
  entryMid : ℚ
  entryDelta : ℚ
  entryGamma : ℚ
  underlyingEntryPrice : ℚ
  direction : VolatilityDirection
  spreadFraction : ℚ
  hedgeCostReturn : ℚ

/-- A leg of an option surface trade. -/
structure SurfaceLeg where
  contract : OptionContract
  entryMid : ℚ
  entryDelta : ℚ
  entryGamma : ℚ
  directionSign : ℚ

/-- What a skew or term-structure trial settles with. -/
structure SurfacePayload where
  legs : List SurfaceLeg
  underlyingEntryPrice : ℚ
  spreadFraction : ℚ
  hedgeCostReturn : ℚ

/-- What a liquidation trial settles with; a trial of the older service has neither the
    time of the observation nor a capture probability. -/
structure LiquidationPayload where
  eventId : String
  venue : String
  asset : String
  symbol : String
  entryPrice : ℚ
  direction : Side
  quantity : ℚ
  costReturn : ℚ
  observedAt : Option Instant
  captureProbability : Option ℚ

/-- What a capital-location trial settles with. -/
structure LocationPayload where
  venue : String
  asset : String
  historicalOpportunityCount : ℕ
  historicalMeanAnnualizedReturn : ℚ
  transferCostUsd : ℚ≥0
  transferLatencySeconds : ℚ≥0

/-- `settlement_payload`. What a settlement needs to know of the entry, lane by lane; in the
    source it is a dictionary. -/
inductive SettlementPayload
  | yield (payload : YieldPayload)
  | maker (payload : MakerPayload)
  | volatility (payload : VolatilityPayload)
  | surface (payload : SurfacePayload)
  | liquidation (payload : LiquidationPayload)
  | location (payload : LocationPayload)

/-- The lane that writes a payload. -/
def SettlementPayload.mechanismId : SettlementPayload → MechanismId
  | .yield _ => .yield
  | .maker _ => .liquidityProvision
  | .volatility _ => .volatility
  | .surface _ => .volatility
  | .liquidation _ => .liquidationDistress
  | .location _ => .capitalLocationSettlement

/-! ### What the governed services add to a payload -/

/-- `source_evidence_gate`; without the entry `research_shadow_only` a spec is no shadow. -/
structure SourceEvidenceGate where
  researchEligible : Bool
  forwardTestEligible : Bool
  allocationSourceQualified : Bool
  coveredEvidenceClasses : List String
  missingEvidenceClasses : List String
  admittedSourceGroups : List String
  primarySourceGroups : List String
  semanticEconomicsComplete : Bool
  researchShadowOnly : Bool := false

/-- The entries a governed service stamps onto a settlement payload. -/
structure PayloadStamps where
  sourceEvidenceGate : Option SourceEvidenceGate := none
  yieldResearchShadow : Bool := false

/-! ### Specs, trials, outcomes, candidates -/

/-- `MechanismTrialSpec`. What a lane found: a trial before it has an id. -/
structure MechanismTrialSpec where
  cohortKey : String
  asset : String
  venues : List String
  sourceObservedAt : Instant
  holdingHours : Positive
  capitalUsd : Positive
  predictedNetReturn : ℚ
  settlementPayload : SettlementPayload
  conflictKeys : List String
  stamps : PayloadStamps := {}

/-- `mechanism_id`. -/
def MechanismTrialSpec.mechanismId (spec : MechanismTrialSpec) : MechanismId :=
  spec.settlementPayload.mechanismId

/-- The horizon of a spec: `source_observed_at + timedelta(hours=holding_hours)`. -/
def MechanismTrialSpec.dueAt (spec : MechanismTrialSpec) : Instant :=
  spec.sourceObservedAt + timedeltaHours spec.holdingHours

/-- `MechanismForwardTrial`. A trial under way, whose due time is the holding time after its
    source. -/
structure MechanismForwardTrial where
  trialId : Uuid
  cohortKey : String
  asset : String
  venues : List String
  sourceObservedAt : Instant
  dueAt : Instant
  capitalUsd : Positive
  predictedNetReturn : ℚ
  predictedProfitUsd : ℚ
  settlementPayload : SettlementPayload
  conflictKeys : List String
  stamps : PayloadStamps := {}

/-- `mechanism_id`. -/
def MechanismForwardTrial.mechanismId (trial : MechanismForwardTrial) : MechanismId :=
  trial.settlementPayload.mechanismId

/-- The trial recorded for a spec. -/
def MechanismTrialSpec.trial (spec : MechanismTrialSpec) (trialId : Uuid) :
    MechanismForwardTrial where
  trialId := trialId
  cohortKey := spec.cohortKey
  asset := spec.asset
  venues := spec.venues
  sourceObservedAt := spec.sourceObservedAt
  dueAt := spec.dueAt
  capitalUsd := spec.capitalUsd
  predictedNetReturn := spec.predictedNetReturn
  predictedProfitUsd := spec.capitalUsd * spec.predictedNetReturn
  settlementPayload := spec.settlementPayload
  conflictKeys := spec.conflictKeys
  stamps := spec.stamps

/-- The entries of a settlement's `detail` that decide what the outcome counts for. -/
structure SettlementDetail where
  paperCaptureProbabilityModel : Bool := false
  captureAssumed : Option Bool := none
  yieldResearchShadow : Bool := false
  protocolRiskCalibrationComplete : Bool := false
  allocationGrade : Bool := false

/-- `MechanismSettlementResult`. What settling a trial gives, before the outcome is built from
    it. -/
structure MechanismSettlementResult where
  maturedAt : Instant
  grossReturn : ℚ
  netReturn : ℚ
  settlementMethod : String
  detail : SettlementDetail := {}

/-- `MechanismForwardOutcome`. What became of a trial, with the predictions it was recorded
    under. -/
structure MechanismForwardOutcome where
  trialId : Uuid
  mechanismId : MechanismId
  cohortKey : String
  asset : String
  maturedAt : Instant
  dueAt : Instant
  predictedNetReturn : ℚ
  realizedGrossReturn : ℚ
  realizedNetReturn : ℚ
  realizedProfitUsd : ℚ
  profitable : Bool
  settlementMethod : String
  settlementEvidenceComplete : Bool := true
  detail : SettlementDetail := {}

/-- `_outcome`. The outcome of a trial takes its times and returns from the settlement and the
    rest from the trial. -/
def MechanismForwardTrial.outcome (trial : MechanismForwardTrial)
    (settlement : MechanismSettlementResult) : MechanismForwardOutcome :=
  let realizedProfit : ℚ := trial.capitalUsd * settlement.netReturn
  { trialId := trial.trialId
    mechanismId := trial.mechanismId
    cohortKey := trial.cohortKey
    asset := trial.asset
    maturedAt := settlement.maturedAt
    dueAt := trial.dueAt
    predictedNetReturn := trial.predictedNetReturn
    realizedGrossReturn := settlement.grossReturn
    realizedNetReturn := settlement.netReturn
    realizedProfitUsd := realizedProfit
    profitable := 0 < realizedProfit
    settlementMethod := settlement.settlementMethod
    detail := settlement.detail }

/-! What an outcome keeps of its trial. -/

theorem MechanismForwardTrial.outcome_trialId (trial : MechanismForwardTrial)
    (settlement : MechanismSettlementResult) :
    (trial.outcome settlement).trialId = trial.trialId := rfl

theorem MechanismForwardTrial.outcome_cohortKey (trial : MechanismForwardTrial)
    (settlement : MechanismSettlementResult) :
    (trial.outcome settlement).cohortKey = trial.cohortKey := rfl

theorem MechanismForwardTrial.outcome_mechanismId (trial : MechanismForwardTrial)
    (settlement : MechanismSettlementResult) :
    (trial.outcome settlement).mechanismId = trial.mechanismId := rfl

/-- `MechanismPaperCandidate`. A cohort that has earned an allocation, with the evidence that it
    rests on. -/
structure MechanismPaperCandidate where
  candidateId : String
  cohortKey : String
  asset : String
  venues : List String
  observedAt : Instant
  holdingHours : Positive
  capitalUsd : Positive
  expectedNetReturn : ℚ
  expectedProfitUsd : ℚ
  evidenceSampleCount : ℕ
  evidenceAllocationFraction : ℚ
  settlementPayload : SettlementPayload
  conflictKeys : List String
  stamps : PayloadStamps := {}

/-- `mechanism_id`. -/
def MechanismPaperCandidate.mechanismId (candidate : MechanismPaperCandidate) : MechanismId :=
  candidate.settlementPayload.mechanismId

/-! ### The ledger -/

/-- The tables of `MechanismExecutionLedger`, in row order. -/
structure MechanismLedger where
  trials : List MechanismForwardTrial
  outcomes : List MechanismForwardOutcome
  candidates : List MechanismPaperCandidate

/-- A row a recording function is given. -/
inductive MechanismWrite
  | trial (row : MechanismForwardTrial)
  | outcome (row : MechanismForwardOutcome)
  | candidate (row : MechanismPaperCandidate)

namespace MechanismLedger

/-- The tables before anything was recorded. -/
def empty : MechanismLedger := ⟨[], [], []⟩

variable (ledger : MechanismLedger)

/-- `record_trial`, `record_outcome` and `record_candidate`: the first row of an id stays. -/
def commit : MechanismWrite → MechanismLedger
  | .trial row =>
    if ledger.trials.any (fun t => t.trialId = row.trialId) then ledger
    else { ledger with trials := ledger.trials ++ [row] }
  | .outcome row =>
    if ledger.outcomes.any (fun o => o.trialId = row.trialId) then ledger
    else { ledger with outcomes := ledger.outcomes ++ [row] }
  | .candidate row =>
    if ledger.candidates.any (fun c => c.candidateId = row.candidateId) then ledger
    else { ledger with candidates := ledger.candidates ++ [row] }

instance : Durable MechanismLedger MechanismWrite := ⟨commit⟩

/-- The trial ids of the outcome rows. -/
def completed : List Uuid := ledger.outcomes.map MechanismForwardOutcome.trialId

/-- The trial rows due at an instant. -/
def dueTrials (now : Instant) : List MechanismForwardTrial :=
  ledger.trials.filter (fun trial => trial.dueAt ≤ now)

/-- The limit of the query of `pending`. -/
def pendingLimit : ℕ := 1000

/-- `pending`: of the first thousand due rows, those without an outcome. -/
def pending (now : Instant) : List MechanismForwardTrial :=
  ((ledger.dueTrials now).take pendingLimit).filter
    (fun trial => trial.trialId ∉ ledger.completed)

/-- `has_open_cohort`. -/
def hasOpenCohort (cohortKey : String) : Bool :=
  ((ledger.trials.filter (fun trial => trial.cohortKey = cohortKey)).map
    MechanismForwardTrial.trialId).any (fun trialId => trialId ∉ ledger.completed)

/-- `outcomes` of a cohort. -/
def cohortOutcomes (cohortKey : String) : List MechanismForwardOutcome :=
  ledger.outcomes.filter (fun o => o.cohortKey = cohortKey)

/-- `outcomes` of a lane. -/
def laneOutcomes (mechanismId : MechanismId) : List MechanismForwardOutcome :=
  ledger.outcomes.filter (fun o => o.mechanismId = mechanismId)

/-- `latest_candidates`: of the newest five hundred rows of a window, the newest of each
    cohort. -/
def latestCandidates (maxAgeHours : ℚ) (now : Instant) : List MechanismPaperCandidate :=
  let cutoff := now - timedeltaHours (max (1 / 100) maxAgeHours)
  (((ledger.candidates.filter (fun row => cutoff ≤ row.observedAt)).reverse.take 500).foldl
    (fun latest row =>
      if latest.any (fun other => other.cohortKey = row.cohortKey) then latest
      else latest ++ [row]) [])

/-- `candidate`. -/
def candidate? (candidateId : String) : Option MechanismPaperCandidate :=
  ledger.candidates.find? (fun c => c.candidateId = candidateId)

variable {ledger}

/-- A latest candidate is one of the table. -/
theorem mem_of_mem_latestCandidates {maxAgeHours : ℚ} {now : Instant}
    {row : MechanismPaperCandidate} (h : row ∈ ledger.latestCandidates maxAgeHours now) :
    row ∈ ledger.candidates := by
  have hfold : ∀ (rows latest : List MechanismPaperCandidate), row ∈ rows.foldl
      (fun latest row => if latest.any (fun other => other.cohortKey = row.cohortKey) then latest
        else latest ++ [row]) latest → row ∈ latest ∨ row ∈ rows := by
    intro rows
    induction rows with
    | nil => exact fun latest h => Or.inl h
    | cons head rest ih =>
      intro latest h
      rw [List.foldl_cons] at h
      rcases ih _ h with h | h
      · split at h
        · exact Or.inl h
        · rcases List.mem_append.mp h with h | h
          · exact Or.inl h
          · exact Or.inr (List.mem_cons.mpr (Or.inl (List.mem_singleton.mp h)))
      · exact Or.inr (List.mem_cons_of_mem _ h)
  rcases hfold _ _ h with h | h
  · cases h
  · exact (List.mem_filter.mp (List.mem_reverse.mp (List.mem_of_mem_take h))).1

/-- A trial under a new id is added. -/
theorem commit_trial {row : MechanismForwardTrial}
    (h : ∀ trial ∈ ledger.trials, trial.trialId ≠ row.trialId) :
    ledger.commit (.trial row) = { ledger with trials := ledger.trials ++ [row] } := by
  have hany : ¬ ledger.trials.any (fun t => t.trialId = row.trialId) = true := by
    rw [List.any_eq_true]
    rintro ⟨trial, hmem, hid⟩
    exact h trial hmem (of_decide_eq_true hid)
  rw [commit, if_neg hany]

/-- An outcome of a completed trial is dropped. -/
theorem commit_outcome_of_completed {row : MechanismForwardOutcome}
    (h : row.trialId ∈ ledger.completed) : ledger.commit (.outcome row) = ledger := by
  obtain ⟨o, ho, hid⟩ := List.mem_map.mp h
  have hany : ledger.outcomes.any (fun o => o.trialId = row.trialId) = true :=
    List.any_eq_true.mpr ⟨o, ho, decide_eq_true hid⟩
  rw [commit, if_pos hany]

/-- An outcome of another trial is added. -/
theorem commit_outcome_of_open {row : MechanismForwardOutcome}
    (h : row.trialId ∉ ledger.completed) :
    ledger.commit (.outcome row) = { ledger with outcomes := ledger.outcomes ++ [row] } := by
  have hany : ¬ ledger.outcomes.any (fun o => o.trialId = row.trialId) = true := by
    rw [List.any_eq_true]
    rintro ⟨o, ho, hid⟩
    exact h (List.mem_map.mpr ⟨o, ho, of_decide_eq_true hid⟩)
  rw [commit, if_neg hany]

/-- A candidate changes neither the trials nor the outcomes. -/
theorem commit_candidate (row : MechanismPaperCandidate) :
    (ledger.commit (.candidate row)).trials = ledger.trials
      ∧ (ledger.commit (.candidate row)).outcomes = ledger.outcomes := by
  rw [commit]
  by_cases hany : ledger.candidates.any (fun c => c.candidateId = row.candidateId) = true
  · rw [if_pos hany]
    exact ⟨rfl, rfl⟩
  · rw [if_neg hany]
    exact ⟨rfl, rfl⟩

/-- No write loses a trial. -/
theorem mem_trials_commit {trial : MechanismForwardTrial} (h : trial ∈ ledger.trials)
    (w : MechanismWrite) : trial ∈ (ledger.commit w).trials := by
  cases w with
  | trial row =>
    rw [commit]
    split
    · exact h
    · exact List.mem_append_left _ h
  | outcome row =>
    rw [commit]
    split
    · exact h
    · exact h
  | candidate row =>
    rw [(ledger.commit_candidate row).1]
    exact h

/-- A row of the tables after a write was there before or is the row written. -/
theorem of_mem_commit (w : MechanismWrite) :
    (∀ trial ∈ (ledger.commit w).trials, trial ∈ ledger.trials ∨ w = .trial trial)
      ∧ (∀ o ∈ (ledger.commit w).outcomes, o ∈ ledger.outcomes ∨ w = .outcome o)
      ∧ ∀ c ∈ (ledger.commit w).candidates, c ∈ ledger.candidates ∨ w = .candidate c := by
  -- an insert whose id is stored is ignored, and any other appends its row
  cases w with
  | trial row =>
    rw [commit]
    split
    · exact ⟨fun _ h => Or.inl h, fun _ h => Or.inl h, fun _ h => Or.inl h⟩
    · refine ⟨fun trial h => ?_, fun _ h => Or.inl h, fun _ h => Or.inl h⟩
      rcases List.mem_append.mp h with h | h
      · exact Or.inl h
      · exact Or.inr (by rw [List.mem_singleton.mp h])
  | outcome row =>
    rw [commit]
    split
    · exact ⟨fun _ h => Or.inl h, fun _ h => Or.inl h, fun _ h => Or.inl h⟩
    · refine ⟨fun _ h => Or.inl h, fun o h => ?_, fun _ h => Or.inl h⟩
      rcases List.mem_append.mp h with h | h
      · exact Or.inl h
      · exact Or.inr (by rw [List.mem_singleton.mp h])
  | candidate row =>
    rw [commit]
    split
    · exact ⟨fun _ h => Or.inl h, fun _ h => Or.inl h, fun _ h => Or.inl h⟩
    · refine ⟨fun _ h => Or.inl h, fun _ h => Or.inl h, fun c h => ?_⟩
      rcases List.mem_append.mp h with h | h
      · exact Or.inl h
      · exact Or.inr (by rw [List.mem_singleton.mp h])

/-- A pending trial is a due row of the table without an outcome. -/
theorem of_mem_pending {now : Instant} {trial : MechanismForwardTrial}
    (h : trial ∈ ledger.pending now) :
    trial ∈ ledger.trials ∧ trial.dueAt ≤ now ∧ trial.trialId ∉ ledger.completed := by
  obtain ⟨hmem, hopen⟩ := List.mem_filter.mp h
  obtain ⟨htrial, hdue⟩ := List.mem_filter.mp (List.mem_of_mem_take hmem)
  exact ⟨htrial, of_decide_eq_true hdue, of_decide_eq_true hopen⟩

/-- A cohort is open exactly when one of its trials has no outcome. -/
theorem hasOpenCohort_iff {cohortKey : String} :
    ledger.hasOpenCohort cohortKey = true
      ↔ ∃ trial ∈ ledger.trials, trial.cohortKey = cohortKey
          ∧ trial.trialId ∉ ledger.completed := by
  simp only [hasOpenCohort, List.any_eq_true, List.mem_map, List.mem_filter, decide_eq_true_eq]
  constructor
  · rintro ⟨_, ⟨trial, ⟨hmem, hcohort⟩, rfl⟩, hopen⟩
    exact ⟨trial, hmem, hcohort, hopen⟩
  · rintro ⟨trial, hmem, hcohort, hopen⟩
    exact ⟨_, ⟨trial, ⟨hmem, hcohort⟩, rfl⟩, hopen⟩

/-- With more trials and the same outcomes an open cohort stays open. -/
theorem hasOpenCohort_mono {later : MechanismLedger} {cohortKey : String}
    (htrials : ∀ trial ∈ ledger.trials, trial ∈ later.trials)
    (hcompleted : later.completed = ledger.completed) (h : ledger.hasOpenCohort cohortKey = true) :
    later.hasOpenCohort cohortKey = true := by
  obtain ⟨trial, hmem, hcohort, hopen⟩ := hasOpenCohort_iff.mp h
  exact hasOpenCohort_iff.mpr ⟨trial, htrials trial hmem, hcohort, hcompleted ▸ hopen⟩

end MechanismLedger

/-- A step of the mechanism service. -/
abbrev MechanismProg := Prog MechanismLedger MechanismWrite Raised

end InefficiencyEngine.Mechanism
