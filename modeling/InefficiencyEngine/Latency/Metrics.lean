import InefficiencyEngine.Lib.Clusters
import InefficiencyEngine.Lib.Wilson
import Mathlib.Data.List.Sort

namespace InefficiencyEngine.Latency

/-!
# Metrics of shadow observations

The observations of one detected event, at several capital tiers, are correlated: `_metrics` puts
them into one cluster, and counts a cluster as a success only if all its observations are (as a
risk if one of them is).  Rates are exact; the Wilson bounds are real numbers.
-/

/-- What the metrics read of a `ShadowObservation`. -/
structure ShadowObservation where
  initialScanId : String
  opportunitySignature : String
  survived : Bool
  pairFillable : Option Bool
  pairFillableWithReserve : Option Bool
  hedgeRecoveryRequired : Option Bool
  pairFillFraction : Option (Set.Icc (0 : ℚ) 1)
  unhedgedFraction : Option (Set.Icc (0 : ℚ) 1)
  partialFillState : Option Bool
  hedgeRecoveryLossProxyBps : Option ℚ≥0
  /-- `adverse_selection_bps` of each entry of `leg_attribution`. -/
  legAttribution : List (Option ℚ)

/-! ### Clusters -/

/-- `_cluster_key`. -/
def clusterKey (row : ShadowObservation) : String × String :=
  (row.initialScanId, row.opportunitySignature)

/-- `_clusters`. -/
def clusters (rows : List ShadowObservation) : Dict (String × String) (List ShadowObservation) :=
  Dict.group clusterKey rows

/-! ### Probabilities -/

/-- `_wilson`: the lower and the upper bound. -/
noncomputable def wilson (successes n : ℕ) (confidence : ℝ) : Option ℝ × Option ℝ :=
  if n = 0 then
    (none, none)
  else
    let confidence := min 0.999999 (max 0.500001 confidence)
    let z := normalInvCdf ((1 + confidence) / 2)
    let phat : ℝ := successes / n
    let center := wilsonCenter z n phat
    let margin := wilsonMargin z n phat
    (some (max 0 (center - margin)), some (min 1 (center + margin)))

/-- The values `_cluster_probability` returns. -/
structure ClusterProbability where
  probability : Option ℚ
  lower : Option ℝ
  upper : Option ℝ
  count : ℕ

/-- Whether a cluster counts: as a risk if one of its rows does, else if all of them do. -/
def clusterOutcome (predicate : ShadowObservation → Bool) (risk : Bool)
    (clusterRows : List ShadowObservation) : Bool :=
  if risk then clusterRows.any predicate else clusterRows.all predicate

/-- `_cluster_probability`. The share of clusters that show the predicate, with its interval;
    the whole cluster counts once. -/
noncomputable def clusterProbability (rows : List ShadowObservation)
    (predicate : ShadowObservation → Bool) (risk : Bool) (confidence : ℝ) : ClusterProbability :=
  let outcomes := (clusters rows).values.map (clusterOutcome predicate risk)
  if outcomes = [] then
    ⟨none, none, none, 0⟩
  else
    let successes := outcomes.count true
    let (lower, upper) := wilson successes outcomes.length confidence
    ⟨some (successes / outcomes.length), lower, upper, outcomes.length⟩

/-! ### Quantities -/

/-- `_cluster_numeric`: the worst value of each cluster. -/
def clusterNumeric (rows : List ShadowObservation) (extractor : ShadowObservation → Option ℚ)
    (risk : Bool) : List ℚ :=
  (clusters rows).values.filterMap (fun clusterRows =>
    let values := clusterRows.filterMap extractor
    if risk then values.max? else values.min?)

/-- `_quantile`. The linear interpolation between the two ranks around the position. -/
def quantile (values : List ℚ) (q : ℚ) : Option ℚ :=
  let ordered := values.insertionSort (· ≤ ·)
  if ordered = [] then
    none
  else
    let q := min 1 (max 0 q)
    let position := (ordered.length - 1) * q
    let lower := ⌊position⌋.toNat
    let upper := min (lower + 1) (ordered.length - 1)
    let fraction := position - lower
    some (ordered.getD lower 0 + (ordered.getD upper 0 - ordered.getD lower 0) * fraction)

/-- `_pair_adverse_selection_bps`. -/
def pairAdverseSelectionBps (observation : ShadowObservation) : Option ℚ :=
  let values := (observation.legAttribution.filterMap id).map (max 0)
  if values = [] then none else some values.sum

/-! ### All metrics -/

/-- The pair was fillable. -/
def isPairFillable (row : ShadowObservation) : Bool := row.pairFillable.getD false

/-- The pair was fillable with its reserve. -/
def isReserveFillable (row : ShadowObservation) : Bool := row.pairFillableWithReserve.getD false

/-- The opportunity could have been captured. -/
def isCapturable (row : ShadowObservation) : Bool := isReserveFillable row && row.survived

/-- A hedge had to be recovered. -/
def isRecoveryRequired (row : ShadowObservation) : Bool := row.hedgeRecoveryRequired.getD false

/-- The fill was partial; without a state, if the pair was not fillable. -/
def isPartialFill (row : ShadowObservation) : Bool :=
  row.partialFillState.getD (!isPairFillable row)

/-- The fraction of the pair that was filled. -/
def filledFraction (row : ShadowObservation) : Option ℚ :=
  some (match row.pairFillFraction with
    | some fraction => fraction
    | none => if isPairFillable row then 1 else 0)

/-- The dictionary `_metrics` returns. -/
structure LatencyMetrics where
  count : ℕ
  effectiveCount : ℕ
  adverseCount : ℕ
  recoveryLossCount : ℕ
  maxCiWidth : Option ℝ
  pairFill : ClusterProbability
  reserveFill : ClusterProbability
  capture : ClusterProbability
  hedgeRecovery : ClusterProbability
  partialFill : Option ℚ
  pairFractionP10 : Option ℚ
  pairFractionP50 : Option ℚ
  unhedgedP50 : Option ℚ
  unhedgedP90 : Option ℚ
  unhedgedP95 : Option ℚ
  recoveryLossP50 : Option ℚ
  recoveryLossP90 : Option ℚ
  recoveryLossP95 : Option ℚ
  adverseP50 : Option ℚ
  adverseP90 : Option ℚ
  adverseP95 : Option ℚ

/-- The width of an interval. -/
noncomputable def ClusterProbability.width (estimate : ClusterProbability) : Option ℝ :=
  match estimate.lower, estimate.upper with
  | some lower, some upper => some (upper - lower)
  | _, _ => none

/-- `_metrics`. The figures of one group of observations, each over its clusters and not over
    its rows. -/
noncomputable def metrics (rows : List ShadowObservation) (confidence : ℝ) : LatencyMetrics :=
  let pairFill := clusterProbability rows isPairFillable false confidence
  let reserveFill := clusterProbability rows isReserveFillable false confidence
  let capture := clusterProbability rows isCapturable false confidence
  let recovery := clusterProbability rows isRecoveryRequired true confidence
  let partialFill := clusterProbability rows isPartialFill true confidence
  let adverse := clusterNumeric rows pairAdverseSelectionBps true
  let pairFraction := clusterNumeric rows filledFraction false
  let unhedged := clusterNumeric rows
    (fun row => row.unhedgedFraction.map (fun fraction => (fraction : ℚ))) true
  let recoveryLoss := clusterNumeric rows
    (fun row => row.hedgeRecoveryLossProxyBps.map (fun loss => (loss : ℚ))) true
  let widths := [pairFill, reserveFill, capture].filterMap ClusterProbability.width
  { count := rows.length
    effectiveCount := pairFill.count
    adverseCount := adverse.length
    recoveryLossCount := recoveryLoss.length
    maxCiWidth := widths.max?
    pairFill := pairFill
    reserveFill := reserveFill
    capture := capture
    hedgeRecovery := recovery
    partialFill := partialFill.probability
    pairFractionP10 := quantile pairFraction (1 / 10)
    pairFractionP50 := quantile pairFraction (1 / 2)
    unhedgedP50 := quantile unhedged (1 / 2)
    unhedgedP90 := quantile unhedged (9 / 10)
    unhedgedP95 := quantile unhedged (19 / 20)
    recoveryLossP50 := quantile recoveryLoss (1 / 2)
    recoveryLossP90 := quantile recoveryLoss (9 / 10)
    recoveryLossP95 := quantile recoveryLoss (19 / 20)
    adverseP50 := quantile adverse (1 / 2)
    adverseP90 := quantile adverse (9 / 10)
    adverseP95 := quantile adverse (19 / 20) }

end InefficiencyEngine.Latency
