import InefficiencyEngine.Feedback.LaneSuccess
import InefficiencyEngine.Lib.Loop
import InefficiencyEngine.Lib.SortedDistinct
import Mathlib.Analysis.Real.Sqrt
import Mathlib.Data.List.Perm.Basic
import Mathlib.Data.String.Basic

namespace InefficiencyEngine.Feedback

open Portfolio

/-!
# Lane-success control of the candidates

`LaneSuccessController.adjust_and_diversify` goes over the candidates twice.  It first scales each
of them down by the calibration, regime and health of its strategy and drops those that are left
with nothing; then it takes the rest by capital velocity and drops every one that shares a risk
factor with a candidate already taken and whose returns are empirically correlated with it.

A correlation is a covariance over the root of a product.  It is compared with the threshold
through its square; `Correlation.value` is the number itself, and `Correlation.atLeast_iff` says
that the comparison is the one of the numbers.
-/

/-! ### Candidates -/

/-- A candidate: what the controller reads of it, and the other fields, which it passes on. -/
structure LaneCandidate (ρ : Type) where
  candidateId : String
  family : Option String
  strategy : String
  opportunityId : Option String
  asset : String
  venues : List String
  exposureKind : String
  capitalRequiredUsd : ℚ
  modeledHoldingHours : Option ℚ
  expectedReturnOnReservedCapital : ℚ
  expectedProfitUsdPerDeployment : ℚ
  sourceReturnMetric : String
  sourceReturnValue : ℚ
  rest : ρ

/-- `CandidateSuccessDecision`. The decision on one candidate, with every multiplier that went
    into it. -/
structure CandidateSuccessDecision where
  candidateId : String
  strategy : String
  regime : String
  accepted : Bool
  rawExpectedReturn : ℚ
  adjustedExpectedReturn : ℚ
  calibrationMultiplier : ℚ
  regimeMultiplier : ℚ
  healthMultiplier : ℚ
  combinedMultiplier : ℚ
  capitalVelocityScore : ℚ
  riskFactors : List String
  reason : Option String

section

variable {ρ : Type} (R : FeedbackRuntime) (history : List LaneOutcome)

/-- `_strategy_key` of a candidate; an empty opportunity id counts as none. -/
def LaneCandidate.key (candidate : LaneCandidate ρ) : String :=
  strategyKey candidate.strategy (candidate.opportunityId.filter (fun id => id ≠ ""))

/-- `text in lower`. -/
def contains (lower text : String) : Bool := decide (text.toList <:+: lower.toList)

/-- `risk_factors`. The factors are read off the asset, the venues, the exposure and the words
    in the key of a candidate, and two candidates that share one count as correlated. -/
def riskFactors (candidate : LaneCandidate ρ) : List String :=
  let lower := R.lower candidate.key
  sortedDistinct
    (["asset:" ++ R.upper candidate.asset]
      ++ candidate.venues.map ("venue:" ++ ·)
      ++ (if candidate.exposureKind ≠ "market_neutral" then
          ["crypto_beta", "direction:" ++ candidate.exposureKind] else [])
      ++ (if contains lower "carry" ∨ contains lower "funding" then ["funding"] else [])
      ++ (if contains lower "volatility" ∨ contains lower "option" then ["volatility"] else [])
      ++ (if contains lower "liquidity" ∨ contains lower "microstructure"
            ∨ contains lower "maker" then ["liquidity"] else [])
      ++ (if contains lower "yield" ∨ contains lower "onchain" ∨ contains lower "fundamental" then
          ["protocol_chain"] else [])
      ++ (if contains lower "liquidation" ∨ contains lower "distress" then
          ["liquidity", "deleveraging"] else [])
      ++ (if contains lower "cex_dex" ∨ contains lower "capital_location" then
          ["settlement_location"] else []))

/-! ### Adjustment -/

/-- `adjust_return`. -/
def adjustReturn (strategy : String) (rawExpectedReturn : ℚ) (regime : String) :
    ℚ × LaneSuccessProfile :=
  let profile := profile R.repr history strategy (some regime)
  let adjusted := max 0 rawExpectedReturn * profile.combinedMultiplier
  (min (max 0 rawExpectedReturn) adjusted, profile)

/-- `max(1e-9, candidate.capital_required_usd)`. -/
def LaneCandidate.capital (candidate : LaneCandidate ρ) : ℚ :=
  max (1 / 10 ^ 9) candidate.capitalRequiredUsd

/-- `max(0.25, candidate.modeled_holding_hours or 1.0)`. -/
def LaneCandidate.holding (candidate : LaneCandidate ρ) : ℚ :=
  let hours := candidate.modeledHoldingHours.getD 0
  max (1 / 4) (if hours = 0 then 1 else hours)

/-- `adjusted_return` of a candidate. -/
def adjustedReturn (candidate : LaneCandidate ρ) (regime : String) : ℚ :=
  (adjustReturn R history candidate.key (max 0 candidate.expectedReturnOnReservedCapital) regime).1

/-- `adjusted_profit` of a candidate. -/
def adjustedProfit (candidate : LaneCandidate ρ) (regime : String) : ℚ :=
  min (max 0 candidate.expectedProfitUsdPerDeployment)
    (candidate.capital * adjustedReturn R history candidate regime)

/-- The decision of `adjust_candidate`. -/
def candidateDecision (candidate : LaneCandidate ρ) (regime : String) : CandidateSuccessDecision :=
  let rawReturn := max 0 candidate.expectedReturnOnReservedCapital
  let (adjustedReturn, profile) := adjustReturn R history candidate.key rawReturn regime
  let accepted : Bool := 0 < adjustedReturn ∧ 0 < profile.combinedMultiplier
  let blockers := "; ".intercalate profile.blockers
  { candidateId := candidate.candidateId
    strategy := candidate.key
    regime := regime
    accepted := accepted
    rawExpectedReturn := rawReturn
    adjustedExpectedReturn := adjustedReturn
    calibrationMultiplier := profile.calibrationMultiplier
    regimeMultiplier := profile.regimeMultiplier
    healthMultiplier := profile.healthMultiplier
    combinedMultiplier := profile.combinedMultiplier
    capitalVelocityScore :=
      adjustedProfit R history candidate regime / candidate.capital / candidate.holding
    riskFactors := riskFactors R candidate
    reason := if accepted then none
      else if blockers = "" then
        some "lane-success calibration revoked current paper eligibility"
      else some blockers }

/-- `adjust_candidate`. A candidate that is not accepted is dropped; an accepted one has its
    return and its profit lowered to the calibrated ones. -/
def adjustCandidate (candidate : LaneCandidate ρ) (regime : String) :
    Option (LaneCandidate ρ) × CandidateSuccessDecision :=
  let decision := candidateDecision R history candidate regime
  let adjustedReturn := adjustedReturn R history candidate regime
  (if decision.accepted = false then none
    else
      some { candidate with
        expectedReturnOnReservedCapital := adjustedReturn
        expectedProfitUsdPerDeployment := adjustedProfit R history candidate regime
        sourceReturnMetric := candidate.sourceReturnMetric ++ "|lane_success_calibrated"
        sourceReturnValue :=
          if 0 ≤ candidate.sourceReturnValue then min candidate.sourceReturnValue adjustedReturn
          else candidate.sourceReturnValue },
    decision)

/-! ### Correlation -/

/-- `MIN_CORRELATION_SAMPLES`. -/
def minCorrelationSamples : ℕ := 8

/-- `HIGH_CORRELATION_THRESHOLD`. -/
def highCorrelationThreshold : ℚ := 8 / 10

/-- The six-hour bucket of an outcome. -/
def seriesBucket (row : LaneOutcome) : ℤ := row.observedAt / (6 * 3600 * 1000000)

/-- `_strategy_series`: the mean return of every bucket that has one. -/
def strategySeries (strategy : String) : List (ℤ × ℚ) :=
  let rows := outcomes history (strategyKey strategy none) 1000
  (rows.map seriesBucket).dedup.map (fun bucket =>
    (bucket, fmean ((rows.filter (fun row => seriesBucket row = bucket)).map
      LaneOutcome.realizedReturn)))

/-- The differences of the values from their mean. -/
def deviations (values : List ℚ) : List ℚ := values.map (· - fmean values)

/-- The sum of the products of two lists. -/
def dot (xs ys : List ℚ) : ℚ := (List.zipWith (· * ·) xs ys).sum

/-- A correlation: `covariance / math.sqrt(product)`. -/
structure Correlation where
  covariance : ℚ
  product : ℚ

/-- The correlation of two lists of values; the root of the product has to be above `1e-15`. -/
def correlationOf (xs ys : List ℚ) : Option Correlation :=
  let product := dot (deviations xs) (deviations xs) * dot (deviations ys) (deviations ys)
  -- the source compares the root with the root of this bound
  if product ≤ 1 / 10 ^ 30 then none else some ⟨dot (deviations xs) (deviations ys), product⟩

/-- `correlation`, and the number of common buckets. -/
def correlation (strategyA strategyB : String) : Option Correlation × ℕ :=
  let a := strategySeries history strategyA
  let b := strategySeries history strategyB
  let common := sortedDistinct ((a.map Prod.fst).filter (fun bucket => bucket ∈ b.map Prod.fst))
  if common.length < minCorrelationSamples then (none, common.length)
  else
    (correlationOf (common.map (fun bucket => (a.lookup bucket).getD 0))
      (common.map (fun bucket => (b.lookup bucket).getD 0)), common.length)

/-- A correlation is at or above a threshold that is not negative. -/
def Correlation.AtLeast (corr : Correlation) (threshold : ℚ) : Prop :=
  0 ≤ corr.covariance ∧ threshold ^ 2 * corr.product ≤ corr.covariance ^ 2

instance (corr : Correlation) (threshold : ℚ) : Decidable (corr.AtLeast threshold) :=
  inferInstanceAs (Decidable (_ ∧ _))

/-! ### The selection -/

/-- An entry of `adjusted`. -/
structure AdjustedCandidate (ρ : Type) where
  candidate : LaneCandidate ρ
  decision : CandidateSuccessDecision

/-- An entry of `skipped`. -/
inductive SkippedByLane
  | suspended (candidateId : String) (family : Option String) (reason : Option String)
      (regime : String)
  | correlated (candidateId : String) (family : Option String) (correlatedWith : String)
      (correlation : Correlation) (overlapSamples : ℕ) (sharedRiskFactors : List String)

/-- The candidate an entry of `skipped` is about: its id and its family. -/
def SkippedByLane.about : SkippedByLane → String × Option String
  | .suspended candidateId family _ _ => (candidateId, family)
  | .correlated candidateId family _ _ _ _ => (candidateId, family)

/-- The order of `adjusted.sort(key=..., reverse=True)`: by velocity, return and profit, from the
    largest down. -/
def AdjustedCandidate.Before (a b : AdjustedCandidate ρ) : Prop :=
  let x := a.decision.capitalVelocityScore
  let y := b.decision.capitalVelocityScore
  y < x ∨ y = x ∧
    (b.candidate.expectedReturnOnReservedCapital < a.candidate.expectedReturnOnReservedCapital
      ∨ b.candidate.expectedReturnOnReservedCapital = a.candidate.expectedReturnOnReservedCapital
        ∧ b.candidate.expectedProfitUsdPerDeployment ≤ a.candidate.expectedProfitUsdPerDeployment)

instance : DecidableRel (AdjustedCandidate.Before (ρ := ρ)) := fun _ _ =>
  inferInstanceAs (Decidable (_ ∨ _ ∧ (_ ∨ _ ∧ _)))

/-- The entry of `skipped` for a candidate that is correlated with one already taken. -/
def correlatedWith? (entry incumbent : AdjustedCandidate ρ) : Option SkippedByLane :=
  let overlap := entry.decision.riskFactors.filter
    (fun factor => factor ∈ incumbent.decision.riskFactors)
  if overlap = [] then none
  else
    match correlation history entry.decision.strategy incumbent.decision.strategy with
    | (some corr, samples) =>
      if corr.AtLeast highCorrelationThreshold then
        some (.correlated entry.decision.candidateId entry.candidate.family
          incumbent.candidate.candidateId corr samples (sortedDistinct overlap))
      else none
    | (none, _) => none

/-- One candidate of the second loop: the first incumbent it is correlated with rejects it. -/
def diversifyStep (state : List (AdjustedCandidate ρ) × List SkippedByLane)
    (entry : AdjustedCandidate ρ) : List (AdjustedCandidate ρ) × List SkippedByLane :=
  match state.1.findSome? (correlatedWith? history entry) with
  | some rejected => (state.1, state.2 ++ [rejected])
  | none => (state.1 ++ [entry], state.2)

/-- The entry of `adjusted` for a candidate, if it is not suspended. -/
def adjustedCandidate? (regime : String) (candidate : LaneCandidate ρ) :
    Option (AdjustedCandidate ρ) :=
  let (updated, decision) := adjustCandidate R history candidate regime
  updated.map (fun found => ⟨found, decision⟩)

/-- The entry of `skipped` for a suspended candidate. -/
def suspended? (regime : String) (candidate : LaneCandidate ρ) : Option SkippedByLane :=
  let (updated, decision) := adjustCandidate R history candidate regime
  if updated.isSome then none
  else some (.suspended decision.candidateId candidate.family decision.reason regime)

/-- `adjust_and_diversify`: what is selected, what is skipped, and the decisions. -/
def adjustAndDiversify (marketRegime : String) (candidates : List (LaneCandidate ρ))
    (regime : Option String) :
    List (LaneCandidate ρ) × List SkippedByLane × List CandidateSuccessDecision :=
  let currentRegime := (regime.filter (fun text => text ≠ "")).getD marketRegime
  let adjusted := (candidates.filterMap (adjustedCandidate? R history currentRegime)).insertionSort
    AdjustedCandidate.Before
  let skipped := candidates.filterMap (suspended? R history currentRegime)
  let (selected, skipped) := adjusted.foldl (diversifyStep history) ([], skipped)
  (selected.map AdjustedCandidate.candidate, skipped,
    candidates.map (fun candidate => (adjustCandidate R history candidate currentRegime).2))

end

/-! ### Correlations as numbers -/

/-- A correlation is the covariance over the root of the product. -/
noncomputable def Correlation.value (corr : Correlation) : ℝ :=
  (corr.covariance : ℝ) / Real.sqrt corr.product

/-- A correlation that is defined has a positive product. -/
theorem product_pos_of_correlation {history : List LaneOutcome} {a b : String}
    {corr : Correlation} (h : (correlation history a b).1 = some corr) : 0 < corr.product := by
  simp only [correlation, correlationOf] at h
  split at h
  · exact absurd h.symm (Option.some_ne_none _)
  · split at h
    · exact absurd h.symm (Option.some_ne_none _)
    · next hproduct =>
      obtain rfl := Option.some.inj h
      exact lt_trans (by norm_num) (lt_of_not_ge hproduct)

/-- **The comparison is that of the numbers.** -/
theorem Correlation.atLeast_iff {corr : Correlation} (hproduct : 0 < corr.product) {threshold : ℚ}
    (hthreshold : 0 ≤ threshold) : corr.AtLeast threshold ↔ (threshold : ℝ) ≤ corr.value := by
  have hproduct' : (0 : ℝ) < corr.product := Rat.cast_pos.mpr hproduct
  have hthreshold' : (0 : ℝ) ≤ threshold := Rat.cast_nonneg.mpr hthreshold
  have hroot : 0 < Real.sqrt corr.product := Real.sqrt_pos.mpr hproduct'
  have hscaled : (threshold : ℝ) * Real.sqrt corr.product
      = Real.sqrt ((threshold : ℝ) ^ 2 * corr.product) := by
    rw [Real.sqrt_mul (sq_nonneg _), Real.sqrt_sq hthreshold']
  rw [Correlation.value, le_div_iff₀ hroot, hscaled, Correlation.AtLeast]
  constructor
  · rintro ⟨hcov, hsquare⟩
    have hcov' : (0 : ℝ) ≤ corr.covariance := Rat.cast_nonneg.mpr hcov
    rw [Real.sqrt_le_left hcov']
    exact_mod_cast hsquare
  · intro h
    have hcov' : (0 : ℝ) ≤ corr.covariance := le_trans (Real.sqrt_nonneg _) h
    rw [Real.sqrt_le_left hcov'] at h
    exact ⟨Rat.cast_nonneg.mp hcov', by exact_mod_cast h⟩

theorem dot_comm (xs ys : List ℚ) : dot xs ys = dot ys xs := by
  rw [dot, dot, List.zipWith_comm_of_comm mul_comm]

theorem correlationOf_comm (xs ys : List ℚ) : correlationOf xs ys = correlationOf ys xs := by
  rw [correlationOf, correlationOf, mul_comm, dot_comm (deviations xs) (deviations ys)]

/-- The correlation of two strategies does not depend on which comes first. -/
theorem correlation_comm (history : List LaneOutcome) (a b : String) :
    correlation history a b = correlation history b a := by
  have hcommon : ∀ xs ys : List ℤ,
      sortedDistinct (xs.filter (fun bucket => bucket ∈ ys))
        = sortedDistinct (ys.filter (fun bucket => bucket ∈ xs)) := fun xs ys =>
    sortedDistinct_congr fun bucket => by simp [and_comm]
  simp only [correlation]
  rw [hcommon, correlationOf_comm]

/-! ### Multipliers -/

/-! ### Each candidate -/

section

variable {ρ : Type} {R : FeedbackRuntime} {history : List LaneOutcome} {regime : String}

/-- `updated` is the candidate with its expected return and profit scaled down; besides them only
    the source metric and its value differ. -/
structure Subtracted (original updated : LaneCandidate ρ) : Prop where
  return_le : updated.expectedReturnOnReservedCapital
    ≤ max 0 original.expectedReturnOnReservedCapital
  profit_le : updated.expectedProfitUsdPerDeployment
    ≤ max 0 original.expectedProfitUsdPerDeployment
  source_le : updated.sourceReturnValue ≤ original.sourceReturnValue
  others : updated = { original with
    expectedReturnOnReservedCapital := updated.expectedReturnOnReservedCapital
    expectedProfitUsdPerDeployment := updated.expectedProfitUsdPerDeployment
    sourceReturnMetric := updated.sourceReturnMetric
    sourceReturnValue := updated.sourceReturnValue }

/-- An adjusted candidate is a subtraction, and the decision names its strategy and its factors. -/
theorem adjustedCandidate?_spec {candidate : LaneCandidate ρ} {entry : AdjustedCandidate ρ}
    (h : adjustedCandidate? R history regime candidate = some entry) :
    Subtracted candidate entry.candidate
      ∧ entry.decision.strategy = entry.candidate.key
      ∧ entry.decision.riskFactors = riskFactors R entry.candidate
      ∧ entry.decision.candidateId = candidate.candidateId := by
  obtain ⟨updated, hupdated, rfl⟩ := Option.map_eq_some_iff.mp h
  change (if _ then none else some _) = some updated at hupdated
  split at hupdated
  · exact absurd hupdated.symm (Option.some_ne_none _)
  · obtain rfl := Option.some.inj hupdated
    refine ⟨⟨?_, min_le_left _ _, ?_, rfl⟩, rfl, rfl, rfl⟩
    · show min (max 0 (max 0 _)) _ ≤ _
      rw [max_eq_right (le_max_left 0 candidate.expectedReturnOnReservedCapital)]
      exact min_le_left _ _
    · show (if _ then _ else _) ≤ _
      split
      · exact min_le_left _ _
      · exact le_refl _

/-- A candidate is adjusted or suspended, and not both. -/
theorem adjusted_or_suspended (R : FeedbackRuntime) (history : List LaneOutcome) (regime : String)
    (candidate : LaneCandidate ρ) :
    (∃ entry, adjustedCandidate? R history regime candidate = some entry
      ∧ suspended? R history regime candidate = none)
    ∨ ∃ skipped, adjustedCandidate? R history regime candidate = none
      ∧ suspended? R history regime candidate = some skipped
      ∧ skipped.about = (candidate.candidateId, candidate.family) := by
  simp only [adjustedCandidate?, suspended?]
  cases (adjustCandidate R history candidate regime).1 with
  | none => exact .inr ⟨_, rfl, rfl, rfl⟩
  | some updated => exact .inl ⟨_, rfl, rfl⟩

/-- The skipped entry of a candidate carries its id and its family. -/
def SkippedFor (candidate : LaneCandidate ρ) (skipped : SkippedByLane) : Prop :=
  skipped.about = (candidate.candidateId, candidate.family)

/-- The first loop splits the candidates. -/
theorem exists_adjusted_suspended (R : FeedbackRuntime) (history : List LaneOutcome)
    (regime : String) (candidates : List (LaneCandidate ρ)) :
    ∃ passed failed, candidates.Perm (passed ++ failed)
      ∧ List.Forall₂
          (fun candidate entry => adjustedCandidate? R history regime candidate = some entry)
          passed (candidates.filterMap (adjustedCandidate? R history regime))
      ∧ List.Forall₂ SkippedFor failed (candidates.filterMap (suspended? R history regime)) := by
  induction candidates with
  | nil => exact ⟨[], [], List.Perm.nil, List.Forall₂.nil, List.Forall₂.nil⟩
  | cons candidate rest ih =>
    obtain ⟨passed, failed, hperm, hpassed, hfailed⟩ := ih
    rcases adjusted_or_suspended R history regime candidate with
      ⟨entry, hentry, hnone⟩ | ⟨skipped, hnone, hskipped, habout⟩
    · refine ⟨candidate :: passed, failed, hperm.cons candidate, ?_, ?_⟩
      · rw [List.filterMap_cons_some hentry]
        exact List.Forall₂.cons hentry hpassed
      · rw [List.filterMap_cons_none hnone]
        exact hfailed
    · refine ⟨passed, candidate :: failed,
        (hperm.cons candidate).trans List.perm_middle.symm, ?_, ?_⟩
      · rw [List.filterMap_cons_none hnone]
        exact hpassed
      · rw [List.filterMap_cons_some hskipped]
        exact List.Forall₂.cons habout hfailed

/-! ### The selection -/

/-- An entry that is rejected is skipped under its own id and family. -/
theorem about_correlatedWith? {entry incumbent : AdjustedCandidate ρ} {rejected : SkippedByLane}
    (h : correlatedWith? history entry incumbent = some rejected) :
    rejected.about = (entry.decision.candidateId, entry.candidate.family) := by
  simp only [correlatedWith?] at h
  split at h
  · exact absurd h.symm (Option.some_ne_none _)
  · split at h
    · split at h
      · rw [← Option.some.inj h]
        rfl
      · exact absurd h.symm (Option.some_ne_none _)
    · exact absurd h.symm (Option.some_ne_none _)

/-- The decision of an entry is about its candidate. -/
def AdjustedCandidate.Faithful (R : FeedbackRuntime) (entry : AdjustedCandidate ρ) : Prop :=
  entry.decision.strategy = entry.candidate.key
    ∧ entry.decision.riskFactors = riskFactors R entry.candidate

/-- The entry belongs to the candidate. -/
def AdjustedFrom (R : FeedbackRuntime) (history : List LaneOutcome) (regime : String)
    (candidate : LaneCandidate ρ) (entry : AdjustedCandidate ρ) : Prop :=
  adjustedCandidate? R history regime candidate = some entry

theorem faithful_of_mem {passed : List (LaneCandidate ρ)} {entries : List (AdjustedCandidate ρ)}
    (h : List.Forall₂ (AdjustedFrom R history regime) passed entries) :
    ∀ entry ∈ entries, entry.Faithful R := by
  induction h with
  | nil => exact fun _ hmem => absurd hmem List.not_mem_nil
  | cons hentry _ ih =>
    intro entry hmem
    rcases List.mem_cons.mp hmem with rfl | hrest
    · exact ⟨(adjustedCandidate?_spec hentry).2.1, (adjustedCandidate?_spec hentry).2.2.1⟩
    · exact ih entry hrest

/-- **The second loop splits the candidates** that are left, and adds the rejected ones to those
    skipped before. -/
theorem exists_selected_rejected {passed : List (LaneCandidate ρ)}
    {entries : List (AdjustedCandidate ρ)}
    (hpassed : List.Forall₂ (AdjustedFrom R history regime) passed entries)
    {taken dropped : List (LaneCandidate ρ)} {selected : List (AdjustedCandidate ρ)}
    {skipped : List SkippedByLane}
    (htaken : List.Forall₂ (AdjustedFrom R history regime) taken selected)
    (hdropped : List.Forall₂ SkippedFor dropped skipped) :
    ∃ kept lost, (taken ++ dropped ++ passed).Perm (kept ++ lost)
      ∧ List.Forall₂ (AdjustedFrom R history regime) kept
          (entries.foldl (diversifyStep history) (selected, skipped)).1
      ∧ List.Forall₂ SkippedFor lost
          (entries.foldl (diversifyStep history) (selected, skipped)).2 := by
  induction hpassed generalizing taken dropped selected skipped with
  | nil => exact ⟨taken, dropped, by rw [List.append_nil], htaken, hdropped⟩
  | @cons candidate entry rest entries hentry _ ih =>
    rw [List.foldl_cons, diversifyStep]
    cases hfound : selected.findSome? (correlatedWith? history entry) with
    | some rejected =>
      obtain ⟨incumbent, -, hrejected⟩ := List.exists_of_findSome?_eq_some hfound
      have hskipped : SkippedFor candidate rejected := by
        obtain ⟨hsub, -, -, hid⟩ := adjustedCandidate?_spec hentry
        rw [SkippedFor, about_correlatedWith? hrejected, hid, hsub.others]
      obtain ⟨kept, lost, hperm, hkept, hlost⟩ :=
        ih htaken (List.rel_append hdropped (List.Forall₂.cons hskipped List.Forall₂.nil))
      exact ⟨kept, lost, by simpa using hperm, hkept, hlost⟩
    | none =>
      obtain ⟨kept, lost, hperm, hkept, hlost⟩ :=
        ih (List.rel_append htaken (List.Forall₂.cons hentry List.Forall₂.nil)) hdropped
      refine ⟨kept, lost, List.Perm.trans ?_ hperm, hkept, hlost⟩
      -- the candidate moves from the front of the rest to the end of those taken
      rw [List.append_assoc, List.append_assoc, List.append_assoc, List.singleton_append]
      exact List.Perm.append_left taken List.perm_middle

/-- No entry taken rejects a later one. -/
theorem pairwise_selected (entries : List (AdjustedCandidate ρ)) (skipped : List SkippedByLane) :
    (entries.foldl (diversifyStep history) ([], skipped)).1.Pairwise
      (fun incumbent entry => correlatedWith? history entry incumbent = none) := by
  refine foldl_invariant (P := fun (_ : List _)
    (state : List (AdjustedCandidate ρ) × List SkippedByLane) => state.1.Pairwise
      (fun incumbent entry => correlatedWith? history entry incumbent = none)) ?_ entries
    List.Pairwise.nil
  intro _ state entry hstate
  rw [diversifyStep]
  cases hfound : state.1.findSome? (correlatedWith? history entry) with
  | some rejected => exact hstate
  | none =>
    refine List.pairwise_append.mpr ⟨hstate, List.pairwise_singleton _ _, ?_⟩
    intro incumbent hincumbent later hlater
    rw [List.mem_singleton.mp hlater]
    exact List.findSome?_eq_none_iff.mp hfound incumbent hincumbent

/-- The candidates share a risk factor and the correlation of their strategies is defined and at
    or above the threshold. -/
def Clash (R : FeedbackRuntime) (history : List LaneOutcome) (a b : LaneCandidate ρ) : Prop :=
  (∃ factor, factor ∈ riskFactors R a ∧ factor ∈ riskFactors R b)
    ∧ ∃ corr, (correlation history a.key b.key).1 = some corr
      ∧ ((highCorrelationThreshold : ℚ) : ℝ) ≤ corr.value

theorem Clash.symm {a b : LaneCandidate ρ} (h : Clash R history a b) : Clash R history b a := by
  obtain ⟨⟨factor, ha, hb⟩, corr, hcorr, hvalue⟩ := h
  rw [correlation_comm] at hcorr
  exact ⟨⟨factor, hb, ha⟩, corr, hcorr, hvalue⟩

/-- An incumbent that does not reject an entry does not clash with it. -/
theorem not_clash_of_correlatedWith? {entry incumbent : AdjustedCandidate ρ}
    (hentry : entry.Faithful R) (hincumbent : incumbent.Faithful R)
    (h : correlatedWith? history entry incumbent = none) :
    ¬ Clash R history entry.candidate incumbent.candidate := by
  rintro ⟨⟨factor, hfactor, hshared⟩, corr, hcorr, hvalue⟩
  rw [correlatedWith?, hentry.1, hentry.2, hincumbent.1, hincumbent.2] at h
  have hoverlap : (riskFactors R entry.candidate).filter
      (fun factor => factor ∈ riskFactors R incumbent.candidate) ≠ [] :=
    List.ne_nil_of_mem (List.mem_filter.mpr ⟨hfactor, decide_eq_true hshared⟩)
  have hatLeast : corr.AtLeast highCorrelationThreshold :=
    (Correlation.atLeast_iff (product_pos_of_correlation hcorr) (by decide +kernel)).mpr hvalue
  rcases hpair : correlation history entry.candidate.key incumbent.candidate.key with
    ⟨found, samples⟩
  rw [hpair] at hcorr
  obtain rfl : found = some corr := hcorr
  simp only [hpair, if_neg hoverlap, if_pos hatLeast] at h
  exact Option.some_ne_none _ h

/-- **Both loops.** The candidates are selected or skipped; those selected do not reject each
    other. -/
theorem adjustAndDiversify_split (R : FeedbackRuntime) (history : List LaneOutcome)
    (marketRegime : String) (candidates : List (LaneCandidate ρ)) (regime : Option String) :
    ∃ kept lost entries, candidates.Perm (kept ++ lost)
      ∧ List.Forall₂ (AdjustedFrom R history
          ((regime.filter (fun text => text ≠ "")).getD marketRegime)) kept entries
      ∧ (adjustAndDiversify R history marketRegime candidates regime).1
        = entries.map AdjustedCandidate.candidate
      ∧ List.Forall₂ SkippedFor lost
          (adjustAndDiversify R history marketRegime candidates regime).2.1
      ∧ entries.Pairwise (fun incumbent entry => correlatedWith? history entry incumbent = none) := by
  simp only [adjustAndDiversify]
  generalize (regime.filter (fun text => text ≠ "")).getD marketRegime = current
  obtain ⟨passed, failed, hperm, hpassed, hfailed⟩ :=
    exists_adjusted_suspended R history current candidates
  -- the second loop takes the adjusted candidates in another order
  obtain ⟨ordered, hordered, hsorted⟩ :
      Relation.Comp List.Perm (List.Forall₂ (AdjustedFrom R history current)) passed
        ((candidates.filterMap (adjustedCandidate? R history current)).insertionSort
          AdjustedCandidate.Before) := by
    rw [← List.forall₂_comp_perm_eq_perm_comp_forall₂]
    exact ⟨_, hpassed, (List.perm_insertionSort _ _).symm⟩
  obtain ⟨kept, lost, hsplit, hkept, hlost⟩ :=
    exists_selected_rejected hsorted List.Forall₂.nil hfailed
  refine ⟨kept, lost, _, ?_, hkept, rfl, hlost, pairwise_selected _ _⟩
  refine hperm.trans (List.Perm.trans ?_ hsplit)
  rw [List.nil_append]
  exact List.perm_append_comm.trans (List.Perm.append_left failed hordered)

/-- **Lane-success control only subtracts.** For every history of outcomes, every regime and every
    list of candidates: each candidate is selected or skipped, and only one of the two; a selected
    one is the candidate it comes from with its expected return and profit scaled down to at most
    the non-negative part of what they were, and with another source metric; a skipped one is
    reported under its own id and family; and no two of the selected candidates share a risk
    factor while the empirical correlation of their strategies is defined and at or above the
    threshold. -/
theorem adjustAndDiversify_subtractive (R : FeedbackRuntime) (history : List LaneOutcome)
    (marketRegime : String) (candidates : List (LaneCandidate ρ)) (regime : Option String) :
    (∃ kept lost, candidates.Perm (kept ++ lost)
      ∧ List.Forall₂ Subtracted kept
          (adjustAndDiversify R history marketRegime candidates regime).1
      ∧ List.Forall₂ SkippedFor lost
          (adjustAndDiversify R history marketRegime candidates regime).2.1)
    ∧ (adjustAndDiversify R history marketRegime candidates regime).1.Pairwise
        (fun a b => ¬ Clash R history a b) := by
  obtain ⟨kept, lost, entries, hperm, hkept, hselected, hlost, hpairwise⟩ :=
    adjustAndDiversify_split R history marketRegime candidates regime
  rw [hselected]
  refine ⟨⟨kept, lost, hperm, ?_, hlost⟩, ?_⟩
  · rw [List.forall₂_map_right_iff]
    exact hkept.imp fun candidate entry h => (adjustedCandidate?_spec h).1
  · have hfaithful := faithful_of_mem hkept
    rw [List.pairwise_map]
    refine hpairwise.imp_of_mem fun hincumbent hentry h hclash => ?_
    exact not_clash_of_correlatedWith? (hfaithful _ hentry) (hfaithful _ hincumbent) h hclash.symm

end

end InefficiencyEngine.Feedback
