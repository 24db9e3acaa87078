import InefficiencyEngine.Lib.DisjointWindows
import InefficiencyEngine.Lib.StableSort
import InefficiencyEngine.Research.AlphaFactory
import Mathlib.Data.Int.Order.Basic
import Mathlib.Data.Prod.Lex
import Mathlib.Data.Rat.Floor
import Mathlib.Tactic.Linarith
import Mathlib.Tactic.Positivity

namespace InefficiencyEngine.Research

open Portfolio

/-!
# The alpha factories — independent outcomes and the effective sample

Overlapping forward windows see the same prices, so `_independent_outcomes` keeps a sequence of
disjoint ones: it sorts the outcomes and selects each that starts when the last selected one has
ended.  `_pooled_independent_outcomes` does so for every asset of a strategy and direction, and
`qualification` counts the windows of the candidate's own asset in full and those of the other
assets at a weight.

* `independentOutcomes_eq_of_stable` — what is selected depends on the set of outcomes alone, up
  to the order of those that share start, end and signal id.
* `independentOutcomes_insert` — an outcome that starts inside a selected window changes nothing.
* `independentOutcomes_laws` — these laws, and what they make of the effective sample.
-/

/-- What the factories take from the platform. -/
structure AlphaRuntime where
  /-- `str.upper`. -/
  upper : String → String
  /-- `math.sqrt`. -/
  sqrt : ℚ → ℚ
  /-- `math.log`. -/
  log : ℚ → ℚ

/-! ### Disjoint windows -/

/-- `(item.observed_at, item.due_at, item.signal_id)`, compared from left to right. -/
def AlphaForwardOutcome.sortKey (outcome : AlphaForwardOutcome) : Instant ×ₗ Instant ×ₗ String :=
  toLex (outcome.observedAt, toLex (outcome.dueAt, outcome.signalId))

/-- `_independent_outcomes`. -/
def independentOutcomes (outcomes : List AlphaForwardOutcome) : List AlphaForwardOutcome :=
  sweep AlphaForwardOutcome.observedAt AlphaForwardOutcome.dueAt none
    (sortOn AlphaForwardOutcome.sortKey outcomes)

/-- `outcomes`, of a strategy and a direction. -/
def AlphaEvidenceLedger.outcomesWhere (ledger : AlphaEvidenceLedger) (strategyId : String)
    (direction : AlphaDirection) : List AlphaForwardOutcome :=
  ledger.outcomes.filter (fun row => row.strategyId = strategyId ∧ row.direction = direction)

/-- `_outcomes_for`. -/
def outcomesFor (ledger : AlphaEvidenceLedger) (candidate : AlphaCandidate) :
    List AlphaForwardOutcome :=
  independentOutcomes ((ledger.outcomesWhere candidate.strategyId candidate.direction).filter
    (fun row => row.asset = candidate.asset))

/-! ### The pooled sample -/

/-- What `_pooled_independent_outcomes` returns. -/
structure PooledOutcomes where
  own : List AlphaForwardOutcome
  other : List AlphaForwardOutcome
  assetCount : ℕ

/-- `_pooled_independent_outcomes`. The outcomes of the candidate's own asset and those of the
    other assets, each thinned out to independent ones. -/
def pooledIndependentOutcomes (R : AlphaRuntime) (ledger : AlphaEvidenceLedger)
    (candidate : AlphaCandidate) : PooledOutcomes :=
  let own := outcomesFor ledger candidate
  let allRows := ledger.outcomesWhere candidate.strategyId candidate.direction
  let byAsset := Dict.group (fun row => R.upper row.asset) allRows
  let ownAsset := R.upper candidate.asset
  { own := ((byAsset.get? ownAsset).map independentOutcomes).getD own
    other := (byAsset.items.filter (fun item => item.1 ≠ ownAsset)).flatMap
      (fun item => independentOutcomes item.2)
    assetCount := byAsset.items.length }

/-- The settings that `qualification` reads. -/
structure AlphaSettings where
  alphaCrossAssetEvidenceWeight : ℚ
  alphaCrossAssetMinLocalSamples : ℤ
  alphaMinForwardSamples : ℤ
  alphaMinForwardMeanReturn : ℚ
  alphaMultipleTestingPenaltyReturn : ℚ
  alphaMinHitRateLowerBound : ℚ
  alphaMinRegimes : ℤ
  alphaMinRegimeMeanReturn : ℚ

/-- The weight of an outcome of another asset. -/
def AlphaSettings.weight (settings : AlphaSettings) : ℚ :=
  max 0 (min (1 / 2) settings.alphaCrossAssetEvidenceWeight)

/-- `weighted`: the outcomes that count, each with its weight. -/
def PooledOutcomes.weighted (pooled : PooledOutcomes) (weight : ℚ) :
    List (AlphaForwardOutcome × ℚ) :=
  pooled.own.map (fun row => (row, 1))
    ++ (if 2 ≤ pooled.assetCount ∧ 0 < weight then pooled.other.map (fun row => (row, weight))
      else [])

/-- `total_weight`. -/
def totalWeight (weighted : List (AlphaForwardOutcome × ℚ)) : ℚ := (weighted.map Prod.snd).sum

/-- `effective_n_float`. -/
def PooledOutcomes.effectiveNFloat (pooled : PooledOutcomes) (weight : ℚ) : ℚ :=
  min (totalWeight (pooled.weighted weight)) (pooled.own.length + weight * pooled.other.length)

/-- `effective_n`: the tolerance stands for the rounding of the sum. -/
def PooledOutcomes.effectiveN (pooled : PooledOutcomes) (weight : ℚ) : ℕ :=
  ⌊pooled.effectiveNFloat weight + 1 / 10 ^ 9⌋.toNat

/-! ### Qualification -/

/-- `AlphaQualification`. -/
structure AlphaQualification where
  strategyId : String
  family : String
  asset : String
  direction : AlphaDirection
  sampleCount : ℕ
  positiveCount : ℤ
  hitRate : Option ℚ
  hitRateCiLower : Option ℚ
  meanRealizedNetReturn : Option ℚ
  meanRealizedNetReturnCiLower : Option ℚ
  p10RealizedNetReturn : Option ℚ
  worstRealizedNetReturn : Option ℚ
  regimeCount : ℕ
  regimeMeans : List (AlphaRegime × ℚ)
  multipleTestingPenaltyReturn : ℚ
  requiredMeanLowerBound : ℚ
  statisticallyQualified : Bool
  blockers : List String
  paperAllocationAuthority : Bool

/-- `_quantile`. -/
def quantile (values : List ℚ) (q : ℚ) : Option ℚ :=
  let ordered := values.insertionSort (· ≤ ·)
  match ordered with
  | [] => none
  | [value] => some value
  | ordered =>
    let position := max 0 (min 1 q) * (ordered.length - 1)
    let lower := ⌊position⌋.toNat
    let upper := ⌈position⌉.toNat
    if lower = upper then ordered[lower]?
    else
      let weight := position - lower
      some (ordered.getD lower 0 * (1 - weight) + ordered.getD upper 0 * weight)

/-- `_continuous_wilson_lower` at `z = 1.96`. -/
def continuousWilsonLower (R : AlphaRuntime) (rate total : ℚ) : Option ℚ :=
  if total ≤ 0 then none
  else
    let z : ℚ := 196 / 100
    let p := max 0 (min 1 rate)
    let denominator := 1 + z * z / total
    let center := p + z * z / (2 * total)
    let margin := z * R.sqrt ((p * (1 - p) + z * z / (4 * total)) / total)
    some (max 0 ((center - margin) / denominator))

/-- The sum of the values, each times its weight. -/
def weightedSum (values : List (ℚ × ℚ)) : ℚ := (values.map (fun v => v.1 * v.2)).sum

/-- `_weighted_mean_lower`. -/
def weightedMeanLower (R : AlphaRuntime) (values : List (ℚ × ℚ)) (effectiveN : ℚ) : Option ℚ :=
  let total := (values.map Prod.snd).sum
  if values = [] ∨ effectiveN ≤ 0 ∨ total ≤ 0 then none
  else
    let mean := weightedSum values / total
    if effectiveN < 2 then some mean
    else
      let variance := (values.map (fun v => v.2 * (v.1 - mean) ^ 2)).sum / total
      some (mean - 196 / 100 * R.sqrt (max 0 variance / effectiveN))

/-- `CROSS_ASSET_LOCAL_SAMPLE_MINIMUM`. -/
def crossAssetLocalSampleMinimum : ℤ := 3

/-- `regime_means`. The weighted mean of each regime that has a weight. -/
def regimeMeans (weighted : List (AlphaForwardOutcome × ℚ)) : List (AlphaRegime × ℚ) :=
  (Dict.group (fun item : AlphaForwardOutcome × ℚ => item.1.regime) weighted).items.filterMap
    (fun item =>
      let rows := item.2.map (fun row => (row.1.realizedNetReturn, row.2))
      let total := (rows.map Prod.snd).sum
      if 0 < total then some (item.1, weightedSum rows / total) else none)

/-- `blockers` of `qualification`. -/
def qualificationBlockers (settings : AlphaSettings) (required : ℚ) (ownCount effectiveN : ℕ)
    (meanLower hitLower : Option ℚ) (regimeMeans : List (AlphaRegime × ℚ)) : List String :=
  let localMinimum := max crossAssetLocalSampleMinimum settings.alphaCrossAssetMinLocalSamples
  (if (ownCount : ℤ) < localMinimum then
    ["insufficient candidate-specific forward samples for cross-asset pooling"] else [])
  ++ (if (effectiveN : ℤ) < settings.alphaMinForwardSamples then
    ["insufficient correlation-adjusted independent forward samples"] else [])
  ++ (if meanLower.all (fun lower => lower ≤ required) then
    ["forward net-return confidence lower bound is below hurdle"] else [])
  ++ (if hitLower.all (fun lower => lower < settings.alphaMinHitRateLowerBound) then
    ["forward hit-rate confidence lower bound is below hurdle"] else [])
  ++ (if (regimeMeans.length : ℤ) < settings.alphaMinRegimes then
      ["insufficient regime coverage"]
    else if regimeMeans.any (fun item => item.2 ≤ settings.alphaMinRegimeMeanReturn) then
      ["one or more observed regimes have non-qualifying mean return"]
    else [])

/-- `qualification`, for a registry with a number of strategies. The outcomes are pooled over
    related assets, each with the weight that the settings give it, and the effective number of
    samples is that of the weights. -/
def qualification (R : AlphaRuntime) (settings : AlphaSettings) (manifests : ℕ)
    (ledger : AlphaEvidenceLedger) (candidate : AlphaCandidate) : AlphaQualification :=
  let pooled := pooledIndependentOutcomes R ledger candidate
  let weighted := pooled.weighted settings.weight
  let total := totalWeight weighted
  let effectiveNFloat := pooled.effectiveNFloat settings.weight
  let effectiveN := pooled.effectiveN settings.weight
  let values := weighted.map (fun row => (row.1.realizedNetReturn, row.2))
  let mean := if 0 < total then some (weightedSum values / total) else none
  let positiveWeight :=
    totalWeight (weighted.filter (fun row => 0 < row.1.realizedNetReturn))
  let hitRate := if 0 < total then some (positiveWeight / total) else none
  let hitLower := hitRate.bind (fun rate => continuousWilsonLower R rate effectiveNFloat)
  let meanLower := weightedMeanLower R values effectiveNFloat
  let means := regimeMeans weighted
  -- the more strategies are tried, the higher the mean that is asked for
  let penalty := settings.alphaMultipleTestingPenaltyReturn
    * R.sqrt (R.log (max 1 manifests + 1))
  let required := settings.alphaMinForwardMeanReturn + penalty
  let blockers := qualificationBlockers settings required pooled.own.length effectiveN meanLower
    hitLower means
  let rawValues := weighted.map (fun row => row.1.realizedNetReturn)
  { strategyId := candidate.strategyId
    family := candidate.family
    asset := candidate.asset
    direction := candidate.direction
    sampleCount := effectiveN
    -- the positive count is the hit rate times the effective number, rounded down
    positiveCount := if 0 < effectiveN then
        min effectiveN ⌊hitRate.getD 0 * effectiveN + 1 / 10 ^ 9⌋ else 0
    hitRate := hitRate
    hitRateCiLower := hitLower
    meanRealizedNetReturn := mean
    meanRealizedNetReturnCiLower := meanLower
    p10RealizedNetReturn := quantile rawValues (1 / 10)
    worstRealizedNetReturn := rawValues.min?
    regimeCount := means.length
    regimeMeans := means
    multipleTestingPenaltyReturn := penalty
    requiredMeanLowerBound := required
    statisticallyQualified := blockers.isEmpty
    blockers := blockers
    paperAllocationAuthority := blockers.isEmpty }

/-! ### The laws of the selection -/

section Selection

variable {outcomes others before after : List AlphaForwardOutcome} {s o : AlphaForwardOutcome}

/-- The selected outcomes are among the outcomes. -/
theorem independentOutcomes_subperm (outcomes : List AlphaForwardOutcome) :
    (independentOutcomes outcomes).Subperm outcomes :=
  (sweep_sublist none _).subperm.trans (perm_sortOn outcomes).subperm

theorem mem_of_mem_independentOutcomes (h : s ∈ independentOutcomes outcomes) : s ∈ outcomes :=
  (independentOutcomes_subperm outcomes).subset h

/-- The selected windows are disjoint and in order. -/
theorem independentOutcomes_pairwise (hwindow : ∀ row ∈ outcomes, row.observedAt < row.dueAt) :
    (independentOutcomes outcomes).Pairwise (fun a b => a.dueAt ≤ b.observedAt) := by
  refine pairwise_sweep none (fun row hrow => ?_)
  exact (hwindow row (mem_sortOn.mp hrow)).le

/-- Selected outcomes are all selected again. -/
theorem independentOutcomes_idem (hwindow : ∀ row ∈ outcomes, row.observedAt < row.dueAt) :
    independentOutcomes (independentOutcomes outcomes) = independentOutcomes outcomes := by
  have hsorted : (independentOutcomes outcomes).Pairwise (fun a b => a.sortKey ≤ b.sortKey) := by
    refine List.Pairwise.sublist ?_ (pairwise_sortOn outcomes)
    rw [independentOutcomes]
    exact sweep_sublist none _
  have hnext : ∀ t, (none : Option Instant) = some t →
      ∀ row ∈ independentOutcomes outcomes, t ≤ row.observedAt := by simp
  rw [independentOutcomes, sortOn_of_pairwise hsorted]
  exact sweep_of_pairwise (independentOutcomes_pairwise hwindow) hnext

/-- **Order.** The selection is the same for every order of the outcomes that keeps the order of
    those with the same start, end and signal id. -/
theorem independentOutcomes_eq_of_stable
    (h : ∀ key, others.filter (fun row => row.sortKey = key)
      = outcomes.filter (fun row => row.sortKey = key)) :
    independentOutcomes others = independentOutcomes outcomes := by
  rw [independentOutcomes, sortOn_congr h]
  rfl

/-- The windows and signal ids that are selected are the same for every order. -/
theorem map_sortKey_independentOutcomes (h : others.Perm outcomes) :
    (independentOutcomes others).map AlphaForwardOutcome.sortKey
      = (independentOutcomes outcomes).map AlphaForwardOutcome.sortKey := by
  have hmap : ∀ rows : List AlphaForwardOutcome,
      (independentOutcomes rows).map AlphaForwardOutcome.sortKey
        = sweep (fun key : Instant ×ₗ Instant ×ₗ String => (ofLex key).1)
          (fun key => (ofLex (ofLex key).2).1) none
          ((sortOn AlphaForwardOutcome.sortKey rows).map AlphaForwardOutcome.sortKey) := by
    intro rows
    refine map_sweep AlphaForwardOutcome.observedAt AlphaForwardOutcome.dueAt
      AlphaForwardOutcome.sortKey _ _ (fun _ => ?_) (fun _ => ?_) none _
    · rfl
    · rfl
  rw [hmap, hmap, map_sortOn_eq_of_perm h]

/-- Outcomes in order of their keys are in order of their starts. -/
theorem AlphaForwardOutcome.observedAt_le_of_sortKey_le (h : o.sortKey ≤ s.sortKey) :
    o.observedAt ≤ s.observedAt := by
  rcases Prod.Lex.le_iff.mp h with hlt | ⟨heq, -⟩
  · exact le_of_lt hlt
  · exact le_of_eq heq

/-- **Overlaps.** An outcome that starts inside a selected window changes nothing. -/
theorem independentOutcomes_insert (hs : s ∈ independentOutcomes (before ++ after))
    (hlo : s.observedAt < o.observedAt) (hhi : o.observedAt < s.dueAt) :
    independentOutcomes (before ++ o :: after) = independentOutcomes (before ++ after) := by
  obtain ⟨before', after', hwith, hwithout⟩ : ∃ before' after',
      sortOn AlphaForwardOutcome.sortKey (before ++ o :: after) = before' ++ o :: after'
      ∧ sortOn AlphaForwardOutcome.sortKey (before ++ after) = before' ++ after' :=
    exists_sortOn_insert o before after
  have hsorted : (before' ++ o :: after').Pairwise (fun a b => a.observedAt ≤ b.observedAt) := by
    rw [← hwith]
    refine List.Pairwise.imp ?_ (pairwise_sortOn _)
    exact AlphaForwardOutcome.observedAt_le_of_sortKey_le
  rw [independentOutcomes, hwithout] at hs
  rw [independentOutcomes, independentOutcomes, hwith, hwithout]
  exact sweep_insert hsorted hs hlo hhi

end Selection

/-! ### The laws of the pooled sample -/

section Pooled

variable {R : AlphaRuntime} {ledger : AlphaEvidenceLedger} {candidate : AlphaCandidate}
  {row : AlphaForwardOutcome} {pooled : PooledOutcomes}

theorem mem_outcomes_of_mem_outcomesWhere {strategyId : String} {direction : AlphaDirection}
    (h : row ∈ ledger.outcomesWhere strategyId direction) : row ∈ ledger.outcomes :=
  List.mem_of_mem_filter h

/-- `own` are the disjoint windows of the candidate's asset, however its name is written. -/
theorem own_pooledIndependentOutcomes (R : AlphaRuntime) (ledger : AlphaEvidenceLedger)
    (candidate : AlphaCandidate) :
    (pooledIndependentOutcomes R ledger candidate).own
      = independentOutcomes ((ledger.outcomesWhere candidate.strategyId candidate.direction).filter
          (fun row => R.upper row.asset = R.upper candidate.asset)) := by
  simp only [pooledIndependentOutcomes, Dict.get?_group]
  by_cases hempty : (ledger.outcomesWhere candidate.strategyId candidate.direction).filter
      (fun row => R.upper row.asset = R.upper candidate.asset) = []
  · -- no outcome has the asset in any spelling, so none has the candidate's
    have hraw : (ledger.outcomesWhere candidate.strategyId candidate.direction).filter
        (fun row => row.asset = candidate.asset) = [] := by
      rw [List.filter_eq_nil_iff] at hempty ⊢
      intro row hrow hasset
      apply hempty row hrow
      simpa using congrArg R.upper (of_decide_eq_true hasset)
    rw [if_pos hempty, hempty]
    show outcomesFor ledger candidate = _
    rw [outcomesFor, hraw]
  · rw [if_neg hempty]
    rfl

theorem of_mem_own (h : row ∈ (pooledIndependentOutcomes R ledger candidate).own) :
    row ∈ ledger.outcomes ∧ R.upper row.asset = R.upper candidate.asset := by
  rw [own_pooledIndependentOutcomes] at h
  have hmem := List.mem_filter.mp (mem_of_mem_independentOutcomes h)
  exact ⟨mem_outcomes_of_mem_outcomesWhere hmem.1, of_decide_eq_true hmem.2⟩

theorem of_mem_other (h : row ∈ (pooledIndependentOutcomes R ledger candidate).other) :
    row ∈ ledger.outcomes ∧ R.upper row.asset ≠ R.upper candidate.asset := by
  obtain ⟨item, hitem, hrow⟩ := List.mem_flatMap.mp h
  obtain ⟨hitem, hne⟩ := List.mem_filter.mp hitem
  obtain ⟨hmem, hkey⟩ := (Dict.of_mem_items_group hitem).2 row (mem_of_mem_independentOutcomes hrow)
  refine ⟨mem_outcomes_of_mem_outcomesWhere hmem, ?_⟩
  rw [hkey]
  exact of_decide_eq_true hne

/-- **No window is counted twice.** Of the outcomes of one asset, each ends before the next one
    starts. -/
theorem pairwise_pooled (hwindow : ∀ row ∈ ledger.outcomes, row.observedAt < row.dueAt) :
    ((pooledIndependentOutcomes R ledger candidate).own
      ++ (pooledIndependentOutcomes R ledger candidate).other).Pairwise
        (fun a b => R.upper a.asset = R.upper b.asset → a.dueAt ≤ b.observedAt) := by
  have hrows : ∀ row ∈ ledger.outcomesWhere candidate.strategyId candidate.direction,
      row.observedAt < row.dueAt :=
    fun row hrow => hwindow row (mem_outcomes_of_mem_outcomesWhere hrow)
  rw [List.pairwise_append]
  refine ⟨?_, ?_, fun a ha b hb hasset => ?_⟩
  · rw [own_pooledIndependentOutcomes]
    refine List.Pairwise.imp ?_ (independentOutcomes_pairwise (fun row hrow => ?_))
    · exact fun h _ => h
    · exact hrows row (List.mem_of_mem_filter hrow)
  · -- within a group the windows are disjoint, and two groups have different assets
    show (List.flatMap _ _).Pairwise _
    rw [List.pairwise_flatMap]
    constructor
    · intro item hitem
      have hgroup := (Dict.of_mem_items_group (List.mem_of_mem_filter hitem)).2
      refine List.Pairwise.imp ?_ (independentOutcomes_pairwise (fun row hrow => ?_))
      · exact fun h _ => h
      · exact hrows row (hgroup row hrow).1
    · have hkeys := (Dict.group (fun row : AlphaForwardOutcome => R.upper row.asset)
        (ledger.outcomesWhere candidate.strategyId candidate.direction)).nodup_keys
      refine List.Pairwise.imp_of_mem ?_ ((List.pairwise_map.mp hkeys).filter _)
      intro item item' hitem hitem' hne a ha b hb hasset
      have ha' := (Dict.of_mem_items_group (List.mem_of_mem_filter hitem)).2 a
        (mem_of_mem_independentOutcomes ha)
      have hb' := (Dict.of_mem_items_group (List.mem_of_mem_filter hitem')).2 b
        (mem_of_mem_independentOutcomes hb)
      exact absurd (ha'.2.symm.trans (hasset.trans hb'.2)) hne
  · exact absurd (hasset.symm.trans (of_mem_own ha).2) (of_mem_other hb).2

/-- A signal whose outcomes agree on its asset and its window is counted at most once. -/
theorem nodup_signalId_pooled (hwindow : ∀ row ∈ ledger.outcomes, row.observedAt < row.dueAt)
    (hsignal : ∀ a ∈ ledger.outcomes, ∀ b ∈ ledger.outcomes, a.signalId = b.signalId →
      R.upper a.asset = R.upper b.asset ∧ a.observedAt = b.observedAt) :
    (((pooledIndependentOutcomes R ledger candidate).own
      ++ (pooledIndependentOutcomes R ledger candidate).other).map
        AlphaForwardOutcome.signalId).Nodup := by
  have hmem : ∀ row ∈ (pooledIndependentOutcomes R ledger candidate).own
      ++ (pooledIndependentOutcomes R ledger candidate).other, row ∈ ledger.outcomes := by
    intro row hrow
    rcases List.mem_append.mp hrow with h | h
    · exact (of_mem_own h).1
    · exact (of_mem_other h).1
  refine List.pairwise_map.mpr ((pairwise_pooled hwindow).imp_of_mem ?_)
  intro a b ha hb hdisjoint hid
  obtain ⟨hasset, hobserved⟩ := hsignal a (hmem a ha) b (hmem b hb) hid
  have hstart : a.observedAt < a.dueAt := hwindow a (hmem a ha)
  have hdue : a.dueAt ≤ b.observedAt := hdisjoint hasset
  rw [hobserved] at hstart
  exact absurd hdue (not_le.mpr hstart)

theorem AlphaSettings.weight_nonneg (settings : AlphaSettings) : 0 ≤ settings.weight :=
  le_max_left 0 _

/-- The effective size is at most the number of own windows and the weight of the others. -/
theorem PooledOutcomes.effectiveNFloat_le (pooled : PooledOutcomes) (weight : ℚ) :
    pooled.effectiveNFloat weight ≤ pooled.own.length + weight * pooled.other.length :=
  min_le_right _ _

/-- The whole number that is reported exceeds it by the tolerance at most. -/
theorem PooledOutcomes.effectiveN_le (pooled : PooledOutcomes) {weight : ℚ} (hweight : 0 ≤ weight) :
    (pooled.effectiveN weight : ℚ)
      ≤ pooled.own.length + weight * pooled.other.length + 1 / 10 ^ 9 := by
  have hbound := pooled.effectiveNFloat_le weight
  have hnonneg : 0 ≤ (pooled.own.length : ℚ) + weight * pooled.other.length := by positivity
  rw [PooledOutcomes.effectiveN]
  rcases le_total 0 ⌊pooled.effectiveNFloat weight + 1 / 10 ^ 9⌋ with hfloor | hfloor
  · have hcast : ((⌊pooled.effectiveNFloat weight + 1 / 10 ^ 9⌋.toNat : ℕ) : ℚ)
        = (⌊pooled.effectiveNFloat weight + 1 / 10 ^ 9⌋ : ℤ) := by
      exact_mod_cast Int.toNat_of_nonneg hfloor
    rw [hcast]
    have hle := Int.floor_le (pooled.effectiveNFloat weight + 1 / 10 ^ 9)
    linarith
  · rw [Int.toNat_of_nonpos hfloor]
    push_cast
    linarith

end Pooled

/-! ### The laws together -/

/-- **Disjoint windows.**  For outcomes that end after they start, `_independent_outcomes` selects
    some of them with disjoint windows in order, selects those again, is the same for every order
    of the outcomes up to the order of those with one start, end and signal id, and does not
    change with an outcome that starts inside a selected window.  In the pooled sample no two
    windows of an asset overlap, so a signal whose outcomes agree on asset and start is counted
    once; own and other outcomes are of different assets; and the effective size of a
    qualification is at most the own windows and the weight times the other windows, which the
    reported whole number exceeds by the tolerance at most. -/
theorem independentOutcomes_laws (R : AlphaRuntime) (settings : AlphaSettings) (manifests : ℕ)
    (ledger : AlphaEvidenceLedger) (candidate : AlphaCandidate)
    (outcomes : List AlphaForwardOutcome)
    (hwindow : ∀ row ∈ outcomes, row.observedAt < row.dueAt)
    (hledger : ∀ row ∈ ledger.outcomes, row.observedAt < row.dueAt) :
    let pooled := pooledIndependentOutcomes R ledger candidate
    -- the selection
    ((independentOutcomes outcomes).Subperm outcomes
      ∧ (independentOutcomes outcomes).Pairwise (fun a b => a.dueAt ≤ b.observedAt)
      ∧ independentOutcomes (independentOutcomes outcomes) = independentOutcomes outcomes
      ∧ (∀ others : List AlphaForwardOutcome, others.Perm outcomes →
          (independentOutcomes others).map AlphaForwardOutcome.sortKey
              = (independentOutcomes outcomes).map AlphaForwardOutcome.sortKey
          ∧ ((∀ key, others.filter (fun row => row.sortKey = key)
                = outcomes.filter (fun row => row.sortKey = key)) →
              independentOutcomes others = independentOutcomes outcomes))
      ∧ ∀ before after o s, before ++ after = outcomes → s ∈ independentOutcomes outcomes →
          s.observedAt < o.observedAt → o.observedAt < s.dueAt →
          independentOutcomes (before ++ o :: after) = independentOutcomes outcomes)
    -- the pooled sample
    ∧ (pooled.own
          = independentOutcomes
              ((ledger.outcomesWhere candidate.strategyId candidate.direction).filter
                (fun row => R.upper row.asset = R.upper candidate.asset))
      ∧ (pooled.own ++ pooled.other).Pairwise
          (fun a b => R.upper a.asset = R.upper b.asset → a.dueAt ≤ b.observedAt)
      ∧ ((∀ a ∈ ledger.outcomes, ∀ b ∈ ledger.outcomes, a.signalId = b.signalId →
            R.upper a.asset = R.upper b.asset ∧ a.observedAt = b.observedAt) →
          ((pooled.own ++ pooled.other).map AlphaForwardOutcome.signalId).Nodup)
      ∧ (∀ a ∈ pooled.own, ∀ b ∈ pooled.other, R.upper a.asset ≠ R.upper b.asset)
      ∧ pooled.effectiveNFloat settings.weight
          ≤ pooled.own.length + settings.weight * pooled.other.length
      ∧ ((qualification R settings manifests ledger candidate).sampleCount : ℚ)
          ≤ pooled.own.length + settings.weight * pooled.other.length + 1 / 10 ^ 9) := by
  refine ⟨⟨independentOutcomes_subperm outcomes, independentOutcomes_pairwise hwindow,
    independentOutcomes_idem hwindow, fun others hperm => ?_, ?_⟩, ?_⟩
  · exact ⟨map_sortKey_independentOutcomes hperm, independentOutcomes_eq_of_stable⟩
  · rintro before after o s rfl hs hlo hhi
    exact independentOutcomes_insert hs hlo hhi
  · refine ⟨own_pooledIndependentOutcomes R ledger candidate, pairwise_pooled hledger,
      nodup_signalId_pooled hledger, fun a ha b hb hasset => ?_,
      PooledOutcomes.effectiveNFloat_le _ _, PooledOutcomes.effectiveN_le _ settings.weight_nonneg⟩
    exact (of_mem_other hb).2 (hasset.symm.trans (of_mem_own ha).2)

/-! ### Sample outcomes -/

/-- An outcome of a strategy on BTC or on another asset. -/
def sampleOutcome (signalId asset : String) (observedAt dueAt : Instant) (net : ℚ) :
    AlphaForwardOutcome where
  signalId := signalId
  strategyId := "momentum"
  family := "time_series"
  asset := asset
  direction := .long
  venue := "okx"
  marketKind := .spot
  symbol := "pair"
  observedAt := observedAt
  dueAt := dueAt
  maturedAt := dueAt
  horizonHours := 1
  regime := .normal
  predictedNetReturn := net
  entryPrice := 1
  exitPrice := 1 + net
  realizedGrossReturn := net
  realizedNetReturn := net
  correctDirection := true

/-- A candidate of that strategy on BTC. -/
def sampleCandidate : AlphaCandidate where
  candidateId := "candidate"
  strategyId := "momentum"
  family := "time_series"
  asset := "BTC"
  direction := .long
  venue := "okx"
  marketKind := .spot
  symbol := "pair"
  observedAt := 100
  horizonHours := 1
  entryReferencePrice := 1
  estimatedCostReturn := 0
  expectedNetReturn := 0
  regime := .normal

/-- Settings with a weight of other assets. -/
def sampleSettings (weight : ℚ) : AlphaSettings where
  alphaCrossAssetEvidenceWeight := weight
  alphaCrossAssetMinLocalSamples := 3
  alphaMinForwardSamples := 30
  alphaMinForwardMeanReturn := 5 / 10000
  alphaMultipleTestingPenaltyReturn := 25 / 100000
  alphaMinHitRateLowerBound := 1 / 2
  alphaMinRegimes := 2
  alphaMinRegimeMeanReturn := 0

/-- A platform whose `upper` knows the ASCII letters. -/
def sampleRuntime : AlphaRuntime := ⟨String.toUpper, id, id⟩

/-- The laws for a ledger with overlapping windows and an asset in two spellings. -/
theorem independentOutcomes_laws_mixedCase :
    let ledger : AlphaEvidenceLedger := ⟨[.outcome (sampleOutcome "a" "BTC" 0 5 1),
      .outcome (sampleOutcome "b" "btc" 3 8 1), .outcome (sampleOutcome "c" "ETH" 0 5 1)]⟩
    (independentOutcomes ledger.outcomes).Pairwise (fun a b => a.dueAt ≤ b.observedAt)
    ∧ ((qualification sampleRuntime (sampleSettings (1 / 2)) 6 ledger sampleCandidate).sampleCount
        : ℚ) ≤ (pooledIndependentOutcomes sampleRuntime ledger sampleCandidate).own.length
          + (sampleSettings (1 / 2)).weight
            * (pooledIndependentOutcomes sampleRuntime ledger sampleCandidate).other.length
          + 1 / 10 ^ 9 := by
  intro ledger
  have hwindow : ∀ row ∈ ledger.outcomes, row.observedAt < row.dueAt := by decide
  have hlaws := independentOutcomes_laws sampleRuntime (sampleSettings (1 / 2)) 6 ledger
    sampleCandidate ledger.outcomes hwindow hwindow
  exact ⟨hlaws.1.2.1, hlaws.2.2.2.2.2.2⟩

/-- **Counterexample.**  Of two outcomes of one signal the first listed is selected; a signal id
    that is stored for two assets is counted for each; and three windows at a weight of
    0.333333333 are reported as one. -/
theorem not_independentOutcomes_laws :
    (∃ outcomes others : List AlphaForwardOutcome, others.Perm outcomes
      ∧ (∀ row ∈ outcomes, row.observedAt < row.dueAt)
      ∧ independentOutcomes others ≠ independentOutcomes outcomes)
    ∧ (∃ ledger : AlphaEvidenceLedger,
        (∀ row ∈ ledger.outcomes, row.observedAt < row.dueAt)
        ∧ ¬ (((pooledIndependentOutcomes sampleRuntime ledger sampleCandidate).own
            ++ (pooledIndependentOutcomes sampleRuntime ledger sampleCandidate).other).map
              AlphaForwardOutcome.signalId).Nodup)
    ∧ ∃ ledger : AlphaEvidenceLedger,
        (∀ row ∈ ledger.outcomes, row.observedAt < row.dueAt)
        ∧ (pooledIndependentOutcomes sampleRuntime ledger sampleCandidate).own.length
            + (sampleSettings (333333333 / 10 ^ 9)).weight
              * (pooledIndependentOutcomes sampleRuntime ledger sampleCandidate).other.length
          < ((qualification sampleRuntime (sampleSettings (333333333 / 10 ^ 9)) 6 ledger
              sampleCandidate).sampleCount : ℚ) := by
  refine ⟨⟨[sampleOutcome "a" "BTC" 0 5 1, sampleOutcome "a" "BTC" 0 5 2],
    [sampleOutcome "a" "BTC" 0 5 2, sampleOutcome "a" "BTC" 0 5 1], List.Perm.swap _ _ _,
    by decide, fun heq => ?_⟩, ⟨⟨[.outcome (sampleOutcome "a" "BTC" 0 5 1),
      .outcome (sampleOutcome "a" "ETH" 0 5 1)]⟩, by decide, by decide +kernel⟩,
    ⟨⟨[.outcome (sampleOutcome "a" "ETH" 0 5 1), .outcome (sampleOutcome "b" "ETH" 5 9 1),
      .outcome (sampleOutcome "c" "SOL" 0 5 1)]⟩, by decide, by decide +kernel⟩⟩
  have hmap := congrArg (List.map AlphaForwardOutcome.realizedNetReturn) heq
  revert hmap
  decide +kernel

end InefficiencyEngine.Research
