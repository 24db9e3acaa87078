import InefficiencyEngine.Lib.Quantile
import InefficiencyEngine.Lib.Wilson
import InefficiencyEngine.Portfolio.Market

namespace InefficiencyEngine.Statistics

/-!
# Estimates of a statistical qualification

The helpers the three statistical models have in common: `_wilson`, `_quantile`, the comparisons of
an estimate with a bound, and the selection of one observation from each shadow cycle.  All values
are real numbers.

Two groups of rules follow.  The gates on a survival rate are passed by every higher rate if the
lower bound is a half or more (`survival_gates`).  The gate on a tail is passed by a better tail;
without one of its values it is passed only if that value was not in the tail (`ceiling_dropped`,
`floor_dropped`).
-/

/-- What the models take from the Python library: the quantile function of the standard normal
    distribution, the case of a text, eight decimals of a number and the hash of a text. -/
structure StatisticsRuntime where
  invCdf : ℝ → ℝ
  invCdf_pos : ∀ p, 1 / 2 < p → 0 < invCdf p
  upper : String → String
  lower : String → String
  fixed : ℝ → String
  hexdigest : String → String

/-- `ProbabilityEstimate`. A rate with its interval, all absent without samples. -/
structure ProbabilityEstimate where
  successes : ℕ
  sampleCount : ℕ
  probability : Option ℝ
  ciLower : Option ℝ
  ciUpper : Option ℝ
  ciWidth : Option ℝ

/-- The attributes `<model>_statistical_*` of the settings, each of which may be absent. -/
structure Overrides where
  referenceHorizonSeconds : Option ℝ := none
  confidenceLevel : Option ℝ := none
  minEffectiveSamples : Option ℤ := none
  minTailSamples : Option ℤ := none
  minSurvivalLowerBound : Option ℝ := none
  maxCiWidth : Option ℝ := none
  maxP95DeteriorationBps : Option ℝ := none
  minP10RetainedEdgeFraction : Option ℝ := none

/-- What the models read of `Settings`: the attributes `dex_statistical_*`, and those of the two
    other models. -/
structure Settings where
  referenceHorizonSeconds : ℝ
  minEffectiveSamples : ℤ
  minTailSamples : ℤ
  confidenceLevel : ℝ
  maxCiWidth : ℝ
  minSurvivalLowerBound : ℝ
  minFrontierAcceptanceLowerBound : ℝ
  maxP95DeteriorationBps : ℝ
  notionalToleranceFraction : ℝ
  cexDexComposite : Overrides := {}
  stablecoinDepth : Overrides := {}

/-- `z` in `_wilson`: the quantile at the confidence, kept within its limits. -/
noncomputable def StatisticsRuntime.z (R : StatisticsRuntime) (confidence : ℝ) : ℝ :=
  R.invCdf ((1 + min 0.999999 (max 0.500001 confidence)) / 2)

/-- `_wilson`. The score interval of a rate, clamped to the unit interval. -/
noncomputable def wilson (R : StatisticsRuntime) (successes n : ℕ) (confidence : ℝ) :
    ProbabilityEstimate :=
  if n = 0 then
    ⟨0, 0, none, none, none, none⟩
  else
    let z := R.z confidence
    let phat : ℝ := successes / n
    let center := wilsonCenter z n phat
    let margin := wilsonMargin z n phat
    let lower := max 0 (center - margin)
    let upper := min 1 (center + margin)
    ⟨successes, n, some phat, some lower, some upper, some (upper - lower)⟩

/-- `_quantile`. The linear interpolation between the two ranks around the position. -/
noncomputable def quantile (values : List ℝ) (q : ℝ) : Option ℝ :=
  if values = [] then
    none
  else
    let ordered := values.insertionSort (· ≤ ·)
    if ordered.length = 1 then
      ordered.head?
    else
      let position := ((ordered.length - 1 : ℕ) : ℝ) * min 1 (max 0 q)
      let lower := ⌊position⌋₊
      let upper := min (lower + 1) (ordered.length - 1)
      let fraction := position - lower
      some (ordered.getD lower 0 + (ordered.getD upper 0 - ordered.getD lower 0) * fraction)

/-- The comparison `value is None or value < bound`. -/
def absentOrBelow (value : Option ℝ) (bound : ℝ) : Prop := ∀ v, value = some v → v < bound

/-- The comparison `value is None or value > bound`. -/
def absentOrAbove (value : Option ℝ) (bound : ℝ) : Prop := ∀ v, value = some v → bound < v

open Classical in
/-- `if failed: reasons.append(reason)`. -/
noncomputable def refusal (failed : Prop) (reason : String) : List String :=
  if failed then [reason] else []

theorem refusal_eq_nil_iff {failed : Prop} {reason : String} :
    refusal failed reason = [] ↔ ¬failed := by
  unfold refusal
  split <;> simp_all

theorem mem_refusal_iff {failed : Prop} {reason text : String} :
    text ∈ refusal failed reason ↔ failed ∧ text = reason := by
  unfold refusal
  split <;> simp_all

theorem not_absentOrBelow_iff {value : Option ℝ} {bound : ℝ} :
    ¬absentOrBelow value bound ↔ ∃ v, value = some v ∧ bound ≤ v := by
  unfold absentOrBelow
  push Not
  exact Iff.rfl

theorem not_absentOrAbove_iff {value : Option ℝ} {bound : ℝ} :
    ¬absentOrAbove value bound ↔ ∃ v, value = some v ∧ v ≤ bound := by
  unfold absentOrAbove
  push Not
  exact Iff.rfl

/-! ### The survival rate -/

section Survival

variable {R : StatisticsRuntime} {s s' n : ℕ} {confidence bound width : ℝ}

theorem z_pos (R : StatisticsRuntime) (confidence : ℝ) : 0 < R.z confidence := by
  refine R.invCdf_pos _ ?_
  have hlow : (0.500001 : ℝ) ≤ min 0.999999 (max 0.500001 confidence) :=
    le_min (by norm_num) (le_max_left _ _)
  linarith

/-- The interval of a sample that is not empty is within zero and one. -/
theorem wilson_eq (hn : 0 < n) (hs : s ≤ n) :
    (wilson R s n confidence).ciLower
        = some (wilsonCenter (R.z confidence) n (s / n) - wilsonMargin (R.z confidence) n (s / n))
      ∧ (wilson R s n confidence).ciUpper
        = some (wilsonCenter (R.z confidence) n (s / n) + wilsonMargin (R.z confidence) n (s / n))
      ∧ (wilson R s n confidence).ciWidth
        = some (2 * wilsonMargin (R.z confidence) n (s / n)) := by
  have hn' : (0 : ℝ) < n := Nat.cast_pos.mpr hn
  have hp : (0 : ℝ) ≤ s / n := by positivity
  have hp1 : (s : ℝ) / n ≤ 1 := by
    rw [div_le_one hn']
    exact_mod_cast hs
  have hlow := wilson_nonneg (z_pos R confidence).le hn' hp hp1
  have hhigh := wilson_le_one (z_pos R confidence).le hn' hp hp1
  unfold wilson
  rw [if_neg (by omega)]
  simp only
  rw [max_eq_right hlow, min_eq_right hhigh]
  refine ⟨rfl, rfl, ?_⟩
  congr 1
  ring

/-- The interval of a sample without a failure begins at the share of the sample beside `z²` more,
    and ends at one. -/
theorem wilson_all (hn : 0 < n) :
    (wilson R n n confidence).ciLower = some (n / (n + R.z confidence * R.z confidence))
      ∧ (wilson R n n confidence).ciWidth
        = some (R.z confidence * R.z confidence / (n + R.z confidence * R.z confidence)) := by
  have hn' : (0 : ℝ) < n := Nat.cast_pos.mpr hn
  have hz := (z_pos R confidence).le
  obtain ⟨hlower, -, hwidth⟩ := @wilson_eq R n n confidence hn le_rfl
  rw [div_self hn'.ne'] at hlower hwidth
  refine ⟨by rw [hlower, wilsonLower_one hz hn'], ?_⟩
  rw [hwidth, wilsonMargin_one hz hn']
  congr 1
  field_simp

/-- **Higher rates pass.** With a lower bound of a half or more, what a rate passes every higher
    rate passes too: its interval lies higher and is narrower. -/
theorem survival_gates (hbound : 1 / 2 ≤ bound) (hle : s' ≤ s) (hs : s ≤ n)
    (hlower : ¬absentOrBelow (wilson R s' n confidence).ciLower bound)
    (hwidth : ¬absentOrAbove (wilson R s' n confidence).ciWidth width) :
    ¬absentOrBelow (wilson R s n confidence).ciLower bound
      ∧ ¬absentOrAbove (wilson R s n confidence).ciWidth width := by
  -- what passes a gate has an interval, so there are samples
  obtain ⟨lower, heq, hlow⟩ := not_absentOrBelow_iff.mp hlower
  obtain ⟨w, hw, hwle⟩ := not_absentOrAbove_iff.mp hwidth
  have hn : 0 < n := by
    refine Nat.pos_of_ne_zero (fun hzero => ?_)
    unfold wilson at heq
    rw [if_pos hzero] at heq
    cases heq
  have hn' : (0 : ℝ) < n := Nat.cast_pos.mpr hn
  have hrates : (s' : ℝ) / n ≤ s / n := by gcongr
  have hone : (s : ℝ) / n ≤ 1 := by
    rw [div_le_one hn']
    exact_mod_cast hs
  -- both rates have the interval of the formula, as neither exceeds one
  obtain ⟨hlower', -, hwidth'⟩ := @wilson_eq R s' n confidence hn (hle.trans hs)
  obtain ⟨hlower'', -, hwidth''⟩ := @wilson_eq R s n confidence hn hs
  rw [hlower'] at heq
  rw [hwidth'] at hw
  obtain rfl := Option.some.inj heq
  obtain rfl := Option.some.inj hw
  have hz := (z_pos R confidence).le
  -- a lower bound of a half puts the centre right of a half, where the margin shrinks
  have hhalf : (1 : ℝ) / 2 ≤ s' / n := half_le_of_half_le_wilson hz hn' (hbound.trans hlow)
  have hmono := @wilsonLower_mono (R.z confidence) n (s' / n) (s / n) hn' (by positivity) hrates
    hone
  have hnarrow := wilsonMargin_antitone hz hn' hhalf hrates
  refine ⟨not_absentOrBelow_iff.mpr ⟨_, hlower'', hlow.trans hmono⟩,
    not_absentOrAbove_iff.mpr ⟨_, hwidth'', le_trans ?_ hwle⟩⟩
  linarith

end Survival

/-! ### The tail -/

section Tail

variable {values before after : List ℝ} {x y q bound : ℝ}

@[simp] theorem quantile_nil (q : ℝ) : quantile [] q = none := by
  simp [quantile]

/-- The quantile of the values interpolates between two of them. -/
theorem quantile_eq (hvalues : values ≠ []) (q : ℝ) :
    quantile values q = some (quantileOf values q) := by
  have hlength : (values.insertionSort (· ≤ ·)).length = values.length :=
    (List.perm_insertionSort _ _).length_eq
  unfold quantile
  rw [if_neg hvalues]
  simp only [hlength]
  split
  · -- of one value both neighbours are that value
    rename_i hone
    obtain ⟨value, rfl⟩ := List.length_eq_one_iff.mp hone
    simp [quantileOf, upperRank, lowerRank, quantilePosition, orderStatistic, between]
  · rfl

theorem ne_nil_of_quantile {v : ℝ} (h : quantile values q = some v) : values ≠ [] := by
  rintro rfl
  simp at h

/-- A lower value passes a ceiling that a higher one passes. -/
theorem ceiling_raised (hxy : x ≤ y)
    (h : ¬absentOrAbove (quantile (before ++ y :: after) q) bound) :
    ¬absentOrAbove (quantile (before ++ x :: after) q) bound := by
  obtain ⟨v, hv, hle⟩ := not_absentOrAbove_iff.mp h
  rw [quantile_eq (by simp)] at hv
  obtain rfl := Option.some.inj hv
  exact not_absentOrAbove_iff.mpr
    ⟨_, quantile_eq (by simp) q, (quantileOf_replace hxy).trans hle⟩

/-- A higher value passes a floor that a lower one passes. -/
theorem floor_lowered (hxy : x ≤ y)
    (h : ¬absentOrBelow (quantile (before ++ x :: after) q) bound) :
    ¬absentOrBelow (quantile (before ++ y :: after) q) bound := by
  obtain ⟨v, hv, hle⟩ := not_absentOrBelow_iff.mp h
  rw [quantile_eq (by simp)] at hv
  obtain rfl := Option.some.inj hv
  exact not_absentOrBelow_iff.mpr
    ⟨_, quantile_eq (by simp) q, hle.trans (quantileOf_replace hxy)⟩

/-- A value that does not exceed the lower neighbour of the tail was not in it. -/
theorem ceiling_dropped (hq : 0 ≤ q) (hq1 : q ≤ 1)
    (hx : x ≤ orderStatistic (before ++ after) (lowerRank (before ++ after) q))
    (h : ¬absentOrAbove (quantile (before ++ after) q) bound) :
    ¬absentOrAbove (quantile (before ++ x :: after) q) bound := by
  obtain ⟨v, hv, hle⟩ := not_absentOrAbove_iff.mp h
  have hrest := ne_nil_of_quantile hv
  rw [quantile_eq hrest] at hv
  obtain rfl := Option.some.inj hv
  exact not_absentOrAbove_iff.mpr
    ⟨_, quantile_eq (by simp) q, (quantileOf_insert_le hrest hq hq1 hx).trans hle⟩

/-- A value that the upper neighbour of the tail does not exceed was not in it. -/
theorem floor_dropped (hq : 0 ≤ q) (hq1 : q ≤ 1)
    (hx : orderStatistic (before ++ after) (upperRank (before ++ after) q) ≤ x)
    (h : ¬absentOrBelow (quantile (before ++ after) q) bound) :
    ¬absentOrBelow (quantile (before ++ x :: after) q) bound := by
  obtain ⟨v, hv, hle⟩ := not_absentOrBelow_iff.mp h
  have hrest := ne_nil_of_quantile hv
  rw [quantile_eq hrest] at hv
  obtain rfl := Option.some.inj hv
  exact not_absentOrBelow_iff.mpr
    ⟨_, quantile_eq (by simp) q, hle.trans (le_quantileOf_insert hrest hq hq1 hx)⟩

end Tail

/-! ### Shadow cycles -/

/-- What the models read of a shadow cycle. -/
structure ShadowCycle (Observation : Type) where
  cycleId : String
  observations : List Observation

/-- A place in a list of shadow cycles for one observation. -/
structure Place (Observation : Type) where
  before : List (ShadowCycle Observation)
  cycleId : String
  ahead : List Observation
  behind : List Observation
  after : List (ShadowCycle Observation)

variable {Observation : Type}

/-- The cycles with an observation in the place. -/
def Place.cycles (place : Place Observation) (row : Observation) : List (ShadowCycle Observation) :=
  place.before ++ ⟨place.cycleId, place.ahead ++ row :: place.behind⟩ :: place.after

/-- The first observation of each cycle that is selected. -/
def selectedRows (selected : Observation → Bool) (cycles : List (ShadowCycle Observation)) :
    List Observation :=
  cycles.filterMap (fun cycle => cycle.observations.find? selected)

/-- **Selection.** An observation in the place of another that is selected like it takes its place
    among the selected ones, if the other one was there. -/
theorem selectedRows_cycles (selected : Observation → Bool) (place : Place Observation)
    {row row' : Observation} (hselected : selected row' = selected row) :
    selectedRows selected (place.cycles row') = selectedRows selected (place.cycles row)
      ∨ ∃ rows rows', selectedRows selected (place.cycles row) = rows ++ row :: rows'
        ∧ selectedRows selected (place.cycles row') = rows ++ row' :: rows' := by
  have hsplit : ∀ r, selectedRows selected (place.cycles r)
      = selectedRows selected place.before
        ++ (((place.ahead ++ r :: place.behind).find? selected).toList
          ++ selectedRows selected place.after) := by
    intro r
    rw [selectedRows, Place.cycles, List.filterMap_append, List.filterMap_cons]
    cases hfind : (place.ahead ++ r :: place.behind).find? selected with
    | none => simp [selectedRows]
    | some found => simp [selectedRows]
  rw [hsplit, hsplit, List.find?_append, List.find?_append, List.find?_cons, List.find?_cons,
    hselected]
  cases hahead : place.ahead.find? selected with
  | some found => exact Or.inl (by simp)
  | none =>
    cases hrow : selected row with
    | false => exact Or.inl (by simp)
    | true => exact Or.inr ⟨_, _, by simp; rfl, by simp⟩

/-! ### One sample in the place of another -/

/-- How a value changes that a sample adds to a list of values: it stays, another value takes its
    place, or it is lost. -/
inductive ValueChange (r : ℝ → ℝ → Prop) : Option ℝ → Option ℝ → Option ℝ → Prop
  | same (value : Option ℝ) : ValueChange r none value value
  | replaced (x y : ℝ) (h : r x y) : ValueChange r none (some x) (some y)
  | lost (x : ℝ) : ValueChange r (some x) (some x) none

/-- How a list of values changes in one place. -/
inductive TailChange (r : ℝ → ℝ → Prop) : Option ℝ → List ℝ → List ℝ → Prop
  | same (values : List ℝ) : TailChange r none values values
  | replaced (before after : List ℝ) (x y : ℝ) (h : r x y) :
      TailChange r none (before ++ x :: after) (before ++ y :: after)
  | lost (before after : List ℝ) (x : ℝ) :
      TailChange r (some x) (before ++ x :: after) (before ++ after)

section Samples

variable {Sample : Type} {samples samples' : List Sample} {sample sample' : Sample}
  {r : ℝ → ℝ → Prop} {lost : Option ℝ} {values values' : List ℝ} {q bound : ℝ}

/-- The values of the samples change like that of the sample. -/
theorem ValueChange.filterMap {value : Sample → Option ℝ}
    (h : ValueChange r lost (value sample) (value sample')) :
    TailChange r lost ((samples ++ sample :: samples').filterMap value)
      ((samples ++ sample' :: samples').filterMap value) := by
  rw [List.filterMap_append, List.filterMap_append, List.filterMap_cons, List.filterMap_cons]
  generalize value sample = v at h ⊢
  generalize value sample' = v' at h ⊢
  cases h with
  | same => exact TailChange.same _
  | replaced x y hxy => exact TailChange.replaced _ _ x y hxy
  | lost x => exact TailChange.lost _ _ x

/-- No value is added. A value is replaced by another one or lost. -/
theorem TailChange.length_le (h : TailChange r lost values values') :
    values'.length ≤ values.length := by
  cases h <;> simp

/-- **Ceilings.** Higher values, and the loss of a value outside the tail, do not help. -/
theorem TailChange.ceiling (h : TailChange (· ≤ ·) lost values values') (hq : 0 ≤ q) (hq1 : q ≤ 1)
    (hlost : ∀ x, lost = some x → x ≤ orderStatistic values' (lowerRank values' q))
    (hgate : ¬absentOrAbove (quantile values' q) bound) :
    ¬absentOrAbove (quantile values q) bound := by
  cases h with
  | same => exact hgate
  | replaced before after x y hxy => exact ceiling_raised hxy hgate
  | lost before after x => exact ceiling_dropped hq hq1 (hlost x rfl) hgate

/-- **Floors.** Lower values, and the loss of a value outside the tail, do not help. -/
theorem TailChange.floor (h : TailChange (fun x y => y ≤ x) lost values values') (hq : 0 ≤ q)
    (hq1 : q ≤ 1)
    (hlost : ∀ x, lost = some x → orderStatistic values' (upperRank values' q) ≤ x)
    (hgate : ¬absentOrBelow (quantile values' q) bound) :
    ¬absentOrBelow (quantile values q) bound := by
  cases h with
  | same => exact hgate
  | replaced before after x y hxy => exact floor_lowered hxy hgate
  | lost before after x => exact floor_dropped hq hq1 (hlost x rfl) hgate

/-- A sample that is a success only if another one is adds no success in its place. -/
theorem countP_replace_le {success : Sample → Bool}
    (h : success sample' = true → success sample = true) :
    (samples ++ sample' :: samples').countP success
      ≤ (samples ++ sample :: samples').countP success := by
  rw [List.countP_append, List.countP_append, List.countP_cons, List.countP_cons]
  by_cases hsample : success sample' = true
  · rw [if_pos hsample, if_pos (h hsample)]
  · rw [if_neg hsample]
    omega

variable {R : StatisticsRuntime} {limits : Settings} {success : Sample → Bool}
  {adverse : Sample → Option ℝ}

/-- The gates that the models have in common: on the number of samples, on that of the values in the
    tail, and on the rate of successes. -/
structure SampleGates (R : StatisticsRuntime) (limits : Settings) (success : Sample → Bool)
    (adverse : Sample → Option ℝ) (samples : List Sample) : Prop where
  enough : ¬(samples.length : ℤ) < limits.minEffectiveSamples
  enoughTail : ¬((samples.filterMap adverse).length : ℤ) < limits.minTailSamples
  lower : ¬absentOrBelow
    (wilson R (samples.countP success) samples.length limits.confidenceLevel).ciLower
    limits.minSurvivalLowerBound
  width : ¬absentOrAbove
    (wilson R (samples.countP success) samples.length limits.confidenceLevel).ciWidth
    limits.maxCiWidth

/-- The gate on the tail of the deterioration. -/
def TailGate (limits : Settings) (adverse : Sample → Option ℝ) (samples : List Sample) : Prop :=
  ¬absentOrAbove (quantile (samples.filterMap adverse) 0.95) limits.maxP95DeteriorationBps

/-- A sample that is no success unless another one is, and whose deterioration is no less, passes
    only what that one passes in its place. -/
theorem SampleGates.replace (hhalf : 1 / 2 ≤ limits.minSurvivalLowerBound)
    (hsuccess : success sample' = true → success sample = true)
    (hchange : ValueChange (· ≤ ·) lost (adverse sample) (adverse sample'))
    (h : SampleGates R limits success adverse (samples ++ sample' :: samples')) :
    SampleGates R limits success adverse (samples ++ sample :: samples') := by
  have hlength : (samples ++ sample' :: samples').length
      = (samples ++ sample :: samples').length := by
    simp
  have hcount := @countP_replace_le _ samples samples' sample sample' success hsuccess
  have htail :=
    (@ValueChange.filterMap _ samples samples' sample sample' _ lost _ hchange).length_le
  have hbound := @List.countP_le_length _ success (samples ++ sample :: samples')
  obtain ⟨henough, henoughTail, hlower, hwidth⟩ := h
  rw [hlength] at hlower hwidth
  obtain ⟨hlower', hwidth'⟩ := survival_gates hhalf hcount hbound hlower hwidth
  refine ⟨by rwa [← hlength], ?_, hlower', hwidth'⟩
  omega

/-- Samples that all are successes pass the gates if there are enough of them, beside the square of
    the quantile of the confidence. -/
theorem SampleGates.of_all (hsuccess : samples.countP success = samples.length)
    (hpos : 0 < samples.length) (henough : limits.minEffectiveSamples ≤ samples.length)
    (henoughTail : limits.minTailSamples ≤ (samples.filterMap adverse).length)
    (hlower : limits.minSurvivalLowerBound ≤ (samples.length : ℝ)
      / (samples.length + R.z limits.confidenceLevel * R.z limits.confidenceLevel))
    (hwidth : R.z limits.confidenceLevel * R.z limits.confidenceLevel
      / (samples.length + R.z limits.confidenceLevel * R.z limits.confidenceLevel)
        ≤ limits.maxCiWidth) :
    SampleGates R limits success adverse samples := by
  obtain ⟨hciLower, hciWidth⟩ := @wilson_all R samples.length limits.confidenceLevel hpos
  refine ⟨not_lt.mpr henough, not_lt.mpr henoughTail, ?_, ?_⟩
  · rw [hsuccess]
    exact not_absentOrBelow_iff.mpr ⟨_, hciLower, hlower⟩
  · rw [hsuccess]
    exact not_absentOrAbove_iff.mpr ⟨_, hciWidth, hwidth⟩

/-- A value, if there is one, does not exceed the lower of the two values between which the tail of
    some samples lies. -/
def OutsideTail (adverse : Sample → Option ℝ) (samples' : List Sample) (lost : Option ℝ) : Prop :=
  ∀ x, lost = some x → x ≤ orderStatistic (samples'.filterMap adverse)
    (lowerRank (samples'.filterMap adverse) 0.95)

/-- The same for the tail, if a lost value was not in it. -/
theorem TailGate.replace
    (hchange : ValueChange (· ≤ ·) lost (adverse sample) (adverse sample'))
    (hlost : OutsideTail adverse (samples ++ sample' :: samples') lost)
    (h : TailGate limits adverse (samples ++ sample' :: samples')) :
    TailGate limits adverse (samples ++ sample :: samples') :=
  hchange.filterMap.ceiling (by norm_num) (by norm_num) hlost h

/-- Samples of which some deteriorate, none by more than the ceiling, have no tail above it. -/
theorem TailGate.of_le (hne : samples.filterMap adverse ≠ [])
    (hle : ∀ x ∈ samples.filterMap adverse, x ≤ limits.maxP95DeteriorationBps) :
    TailGate limits adverse samples :=
  not_absentOrAbove_iff.mpr ⟨_, quantile_eq hne _, quantileOf_le hne hle⟩

end Samples

/-! ### Verdicts -/

/-- What a qualification says: whether the evidence qualifies, and what speaks against it. -/
structure Verdict where
  statisticallyQualified : Bool
  reasons : List String

/-- The evidence qualifies. -/
def Qualifies (result : Except Portfolio.Raised Verdict) : Prop :=
  ∃ verdict, result = .ok verdict ∧ verdict.statisticallyQualified = true

/-- Nothing but some reasons speaks against the evidence. -/
def RefusedOnlyFor (tailReasons : List String) (result : Except Portfolio.Raised Verdict) : Prop :=
  ∃ verdict, result = .ok verdict ∧ ∀ reason ∈ verdict.reasons, reason ∈ tailReasons

/-- **Worse evidence.** What a verdict on an observation, among others, has to do with that on a
    worse one in its place: a deteriorated one qualifies only if it did; so does a failed one,
    unless the tail alone spoke against it, and it was in the tail. -/
structure WorseNeverHelps (verdict : Observation → Except Portfolio.Raised Verdict)
    (Deteriorated Failed OutsideTail : Observation → Observation → Prop)
    (tailReasons : List String) : Prop where
  deteriorated : ∀ row row', Deteriorated row row' →
    Qualifies (verdict row') → Qualifies (verdict row)
  failed : ∀ row row', Failed row row' →
    Qualifies (verdict row') → RefusedOnlyFor tailReasons (verdict row)
  failed_outsideTail : ∀ row row', Failed row row' → OutsideTail row row' →
    Qualifies (verdict row') → Qualifies (verdict row)

end InefficiencyEngine.Statistics
