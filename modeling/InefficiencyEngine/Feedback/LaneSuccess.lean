import InefficiencyEngine.Portfolio.Settlement
import InefficiencyEngine.Portfolio.Store
import Mathlib.Algebra.BigOperators.Group.List.Basic
import Mathlib.Data.List.Sort

namespace InefficiencyEngine.Feedback

open Portfolio

/-!
# The lane-success history

`LaneSuccessLedger` appends an outcome event for every settlement, under an event id that is
the hash of a key; a second event under the same id is dropped.  `LaneSuccessController.profile`
computes the calibration of a lane from the latest outcome events of its strategy.

Numbers are rational.  The event id is represented by its key, and the regime of an event is the
one `market_regime` returned.  A row of the history also has the trial it is about, which the
source does not store: nothing computed here reads it.
-/

/-! ### Constants -/

/-- `MIN_CALIBRATION_SAMPLES`. -/
def minCalibrationSamples : ℕ := 5

/-- `MIN_REGIME_SAMPLES`. -/
def minRegimeSamples : ℕ := 5

/-- `RECENT_HEALTH_WINDOW`. -/
def recentHealthWindow : ℕ := 8

/-- `MAX_TRAILING_LOSSES`. -/
def maxTrailingLosses : ℕ := 4

/-- `_clamp`. -/
def clamp (value lower upper : ℚ) : ℚ := max lower (min upper value)

/-- The lanes whose name is their strategy key. -/
def mechanismLanes : List String :=
  ["yield", "liquidity_provision", "volatility", "liquidation_distress",
    "capital_location_settlement"]

/-- `_strategy_key`. The outcomes of a mechanism are counted together under its lane, and those
    of another strategy under its own name. -/
def strategyKey (strategy : String) (opportunityId : Option String) : String :=
  match opportunityId.filter (fun lane => lane ∈ mechanismLanes) with
  | some lane => "mechanism:" ++ lane
  | none =>
    if "mechanism:".toList <+: strategy.toList then
      String.ofList ([':'].intercalate ((strategy.toList.splitOn ':').take 2))
    else strategy

/-! ### Outcome events -/

/-- The library functions of the feedback plane. -/
structure FeedbackRuntime extends Portfolio.Runtime where
  /-- `str.lower`. -/
  lower : String → String
  /-- `repr` of a text. -/
  repr : String → String

/-- What an outcome event is keyed by. -/
inductive OutcomeKey
  /-- `allocation|{outcome_id}`. -/
  | allocation (outcomeId : Uuid)
  /-- `mechanism|{trial_id}`. -/
  | mechanism (trialId : String)
deriving DecidableEq

/-- An outcome event of `lane_success_events`. -/
structure LaneOutcome where
  outcomeKey : OutcomeKey
  strategy : String
  asset : String
  regime : String
  observedAt : Instant
  candidateId : String
  predictedReturn : ℚ
  realizedReturn : ℚ
  predictedProfitUsd : ℚ
  realizedProfitUsd : ℚ
  capitalUsd : ℚ
  holdingHours : Option ℚ
  venues : List String
  settlementMethod : String
  failureAttribution : List String
  /-- The allocation trial the event is about, if it is about one. -/
  trialId? : Option Uuid

/-- `capture_ratio` of the payload. -/
def LaneOutcome.captureRatio (row : LaneOutcome) : Option ℚ :=
  if 1 / 10 ^ 12 < row.predictedReturn then some (row.realizedReturn / row.predictedReturn) else none

/-- `failure_attribution` of an outcome without a settlement detail; no category comes twice. -/
def failureAttribution (lower : String → String) (predictedReturn realizedReturn : ℚ)
    (settlementMethod : String) : List String :=
  let capture : Option ℚ :=
    if 1 / 10 ^ 12 < predictedReturn then some (realizedReturn / predictedReturn) else none
  let method := (lower settlementMethod).toList
  (if 0 < predictedReturn ∧ capture.all (fun ratio => ratio < 1 / 2) then ["forecast_error"]
    else [])
  ++ (if "funding".toList <:+: method ∧ realizedReturn < predictedReturn then ["funding_change"]
    else [])
  ++ (if "transfer".toList <:+: method ∧ realizedReturn < predictedReturn then
      ["transfer_or_settlement_delay"] else [])
  ++ (if realizedReturn ≤ 0 ∧ 0 < predictedReturn then ["model_overconfidence"] else [])

/-- The event of `record_allocation_outcome`. Its key is that of the outcome, so the same
    outcome recorded twice is one event. -/
def allocationEvent (R : FeedbackRuntime) (regime : String) (trial : PaperAllocationTrial)
    (outcome : PaperAllocationOutcome) : LaneOutcome where
  outcomeKey := .allocation outcome.outcomeId
  strategy := strategyKey trial.strategy none
  asset := R.upper trial.asset
  regime := regime
  observedAt := outcome.maturedAt
  candidateId := trial.candidateId
  predictedReturn := trial.predictedReturnOnReservedCapital
  realizedReturn := outcome.realizedNetReturn
  predictedProfitUsd := trial.predictedProfitUsd
  realizedProfitUsd := outcome.realizedProfitUsd
  capitalUsd := trial.capitalRequiredUsd
  holdingHours := some (max 0 ((outcome.maturedAt - trial.planObservedAt : ℤ) / 3600000000))
  venues := trial.venues
  settlementMethod := outcome.settlementMethod
  failureAttribution := failureAttribution R.lower trial.predictedReturnOnReservedCapital
    outcome.realizedNetReturn outcome.settlementMethod
  trialId? := some trial.trialId

/-- `_record`: an event under a known id is dropped. -/
def recordEvent (history : List LaneOutcome) (row : LaneOutcome) : List LaneOutcome :=
  if history.any (fun r => r.outcomeKey = row.outcomeKey) then history else history ++ [row]

/-- `outcomes` of a strategy. -/
def outcomes (history : List LaneOutcome) (strategy : String) (limit : ℕ) : List LaneOutcome :=
  let rows := history.filter (fun row => row.strategy = strategy)
  rows.drop (rows.length - max 1 (min 5000 limit))

/-! ### Profiles -/

/-- `statistics.fmean` of a list that is not empty. -/
def fmean (values : List ℚ) : ℚ := values.sum / values.length

/-- `statistics.median` of a list that is not empty. -/
def median (values : List ℚ) : ℚ :=
  let sorted := values.insertionSort (· ≤ ·)
  let n := sorted.length
  if n % 2 = 1 then sorted.getD (n / 2) 0
  else (sorted.getD (n / 2 - 1) 0 + sorted.getD (n / 2) 0) / 2

/-- `_loss_streak`. -/
def lossStreak (values : List ℚ) : ℕ := (values.reverse.takeWhile (fun value => value < 0)).length

/-- The latest values of a list. -/
def recent (values : List ℚ) : List ℚ := values.drop (values.length - recentHealthWindow)

/-- `LaneSuccessProfile`. What the outcomes of a strategy say, overall and in one regime. -/
structure LaneSuccessProfile where
  strategy : String
  regime : Option String
  sampleCount : ℕ
  recentSampleCount : ℕ
  meanRealizedReturn : Option ℚ
  recentMeanRealizedReturn : Option ℚ
  medianCaptureRatio : Option ℚ
  recentHitRate : Option ℚ
  trailingLossStreak : ℕ
  calibrationMultiplier : ℚ
  regimeMultiplier : ℚ
  healthMultiplier : ℚ
  combinedMultiplier : ℚ
  state : String
  blockers : List String

/-- The health of a lane from its realized returns and capture ratios. A lane is suspended by
    any blocker, weakened by the decay of its recent mean, and learning while it has too few
    outcomes. -/
def laneHealth (values captures : List ℚ) : ℚ × String × List String :=
  if (recent values).length < minCalibrationSamples then (1, "learning", [])
  else
    let longMean := fmean values
    let recentMean := fmean (recent values)
    let blockers :=
      (if recentMean ≤ 0 then ["recent realized mean return is non-positive"] else [])
      ++ (if maxTrailingLosses ≤ lossStreak values then
          ["trailing loss streak exceeds lane-success limit"] else [])
      ++ (if captures ≠ [] ∧ median (recent captures) < 1 / 4 then
          ["recent realized-to-predicted capture has collapsed"] else [])
    let decay := clamp (recentMean / longMean) (1 / 4) 1
    -- the decay is taken only of a lane that earned something in the long run
    let decays : Bool := blockers.isEmpty && 1 / 10 ^ 12 < longMean
    let health : ℚ := if blockers ≠ [] then 0 else if decays then min 1 decay else 1
    let state :=
      if 4 / 5 ≤ health then "healthy" else if 2 / 5 ≤ health then "weakening"
      else if 0 < health then "probation" else "suspended"
    (health, state, blockers ++ (if decays && decide (decay < 3 / 4) then
      ["recent edge has weakened versus long-run realized evidence"] else []))

/-- The multiplier of the current regime from its realized returns and capture ratios. -/
def regimeMultiplier (values captures : List ℚ) : ℚ :=
  if values.length < minRegimeSamples then 1
  else if fmean values ≤ 0 then 0
  else if captures = [] then 1
  else clamp (median captures) 0 1

/-- `profile`. Three multipliers are taken from the history: how much of the predicted profit
    was captured, how the regime fared and how healthy the recent outcomes are. -/
def profile (repr : String → String) (history : List LaneOutcome) (strategy : String)
    (regime : Option String) : LaneSuccessProfile :=
  let key := strategyKey strategy none
  let allRows := outcomes history key 500
  let regimeRows := if truthy regime then allRows.filter (fun row => some row.regime = regime)
    else []
  let values := allRows.map LaneOutcome.realizedReturn
  let captures := allRows.filterMap LaneOutcome.captureRatio
  let recentValues := recent values
  -- too few captures leave the prediction as it is
  let calibration :=
    if minCalibrationSamples ≤ captures.length then clamp (median captures) 0 1 else 1
  let ofRegime := regimeMultiplier (regimeRows.map LaneOutcome.realizedReturn)
    (regimeRows.filterMap LaneOutcome.captureRatio)
  let health := laneHealth values captures
  { strategy := key
    regime := regime
    sampleCount := values.length
    recentSampleCount := recentValues.length
    meanRealizedReturn := if values = [] then none else some (fmean values)
    recentMeanRealizedReturn := if recentValues = [] then none else some (fmean recentValues)
    medianCaptureRatio := if captures = [] then none else some (median captures)
    recentHitRate := if recentValues = [] then none
      else some ((recentValues.filter (fun value => 0 < value)).length / recentValues.length)
    trailingLossStreak := lossStreak values
    calibrationMultiplier := calibration
    regimeMultiplier := ofRegime
    healthMultiplier := health.1
    -- the strictest of the three multipliers counts
    combinedMultiplier := min calibration (min ofRegime health.1)
    state := if ofRegime = 0 then "suspended" else health.2.1
    blockers := health.2.2 ++ (if ofRegime = 0 then
      ["current regime " ++ (regime.elim "None" repr) ++ " has non-qualifying realized evidence"]
      else []) }

end InefficiencyEngine.Feedback
