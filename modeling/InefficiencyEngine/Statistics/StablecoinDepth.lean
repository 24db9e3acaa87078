import InefficiencyEngine.Statistics.Estimates

namespace InefficiencyEngine.Statistics

/-!
# Statistics of stablecoin conversion depth

`build_stablecoin_depth_statistical_qualification`: of each shadow cycle the first observation of
the probe at the reference horizon.  Survival is a rate of these; the tail of the deterioration is
that of the survivors.
-/

/-- `StablecoinDepthProbeSpec`. -/
structure StablecoinDepthProbeSpec where
  sourceCurrency : String
  targetCurrency : String
  inputAmount : {amount : ℝ // 0 < amount}

/-- `StablecoinDepthProbeSpec.key`. -/
def StablecoinDepthProbeSpec.key (R : StatisticsRuntime) (spec : StablecoinDepthProbeSpec) :
    String :=
  let raw := R.upper spec.sourceCurrency ++ "|" ++ R.upper spec.targetCurrency ++ "|"
    ++ R.fixed spec.inputAmount
  String.ofList ((R.hexdigest raw).toList.take 24)

/-- What the model reads of a `StablecoinDepthObservation`. -/
structure StablecoinDepthObservation where
  probeKey : String
  horizonSeconds : ℝ
  adverseDeteriorationBps : Option ℝ
  slippageExpansionBps : Option ℝ
  survived : Bool

/-- `StablecoinDepthStatisticalQualification`. The verdict on one conversion with the figures
    behind it. -/
structure StablecoinDepthStatisticalQualification where
  probeKey : String
  sourceCurrency : String
  targetCurrency : String
  inputAmount : ℝ
  referenceHorizonSeconds : ℝ
  effectiveSampleCount : ℕ
  adverseTailSampleCount : ℕ
  survival : ProbabilityEstimate
  p95AdverseDeteriorationBps : Option ℝ
  p95SlippageExpansionBps : Option ℝ
  statisticallyQualified : Bool
  reasons : List String

/-! ### Settings -/

/-- The attributes `stablecoin_depth_statistical_*`, with what stands in for an absent one. -/
def stablecoinSettings (settings : Settings) : Settings :=
  let own := settings.stablecoinDepth
  { settings with
    referenceHorizonSeconds := own.referenceHorizonSeconds.getD settings.referenceHorizonSeconds
    confidenceLevel := own.confidenceLevel.getD settings.confidenceLevel
    minEffectiveSamples := own.minEffectiveSamples.getD settings.minEffectiveSamples
    minTailSamples := own.minTailSamples.getD settings.minTailSamples
    minSurvivalLowerBound := own.minSurvivalLowerBound.getD settings.minSurvivalLowerBound
    maxCiWidth := own.maxCiWidth.getD settings.maxCiWidth
    maxP95DeteriorationBps := own.maxP95DeteriorationBps.getD 10 }

/-! ### The model -/

open Classical in
/-- An observation of the probe, at the horizon. -/
noncomputable def stablecoinSelected (key : String) (horizon : ℝ)
    (row : StablecoinDepthObservation) : Bool :=
  row.probeKey = key ∧ |row.horizonSeconds - horizon| ≤ 1e-9

/-- `rows`: of each cycle the first observation that is selected. -/
noncomputable def stablecoinRows (R : StatisticsRuntime) (spec : StablecoinDepthProbeSpec)
    (settings : Settings) (cycles : List (ShadowCycle StablecoinDepthObservation)) :
    List StablecoinDepthObservation :=
  selectedRows
    (stablecoinSelected (spec.key R) (stablecoinSettings settings).referenceHorizonSeconds)
    cycles

/-- The deterioration of a survivor. -/
def stablecoinAdverse (row : StablecoinDepthObservation) : Option ℝ :=
  if row.survived then row.adverseDeteriorationBps else none

/-- The slippage expansion of a survivor. -/
def stablecoinSlip (row : StablecoinDepthObservation) : Option ℝ :=
  if row.survived then row.slippageExpansionBps.map (max 0) else none

/-- The reason that the tail gives. -/
def stablecoinTailReason : String :=
  "p95 conversion-depth deterioration exceeds configured ceiling or is unavailable"

/-- `reasons`. Every gate that refuses says why, in this order. -/
noncomputable def stablecoinReasons (limits : Settings) (rowCount tailCount : ℕ)
    (survival : ProbabilityEstimate) (p95Adverse : Option ℝ) : List String :=
  refusal (rowCount < limits.minEffectiveSamples)
      ("effective samples " ++ toString rowCount ++ " < " ++ toString limits.minEffectiveSamples)
    ++ refusal (tailCount < limits.minTailSamples)
      ("adverse tail samples " ++ toString tailCount ++ " < " ++ toString limits.minTailSamples)
    ++ refusal (absentOrBelow survival.ciLower limits.minSurvivalLowerBound)
      "survival Wilson lower bound below configured minimum"
    ++ refusal (absentOrAbove survival.ciWidth limits.maxCiWidth)
      "survival confidence interval too wide"
    ++ refusal (absentOrAbove p95Adverse limits.maxP95DeteriorationBps) stablecoinTailReason

open Classical in
/-- `build_stablecoin_depth_statistical_qualification`. The rows of the probe are counted and
    their tail taken before any gate is tried. -/
noncomputable def buildStablecoinDepthStatisticalQualification (R : StatisticsRuntime)
    (cycles : List (ShadowCycle StablecoinDepthObservation)) (spec : StablecoinDepthProbeSpec)
    (settings : Settings) : Except Portfolio.Raised StablecoinDepthStatisticalQualification :=
  let limits := stablecoinSettings settings
  let horizon := limits.referenceHorizonSeconds
  let rows := stablecoinRows R spec settings cycles
  let survival := wilson R (rows.countP (·.survived)) rows.length limits.confidenceLevel
  let adverse := rows.filterMap stablecoinAdverse
  let slip := rows.filterMap stablecoinSlip
  let p95Adverse := quantile adverse 0.95
  let p95Slip := quantile slip 0.95
  let reasons := stablecoinReasons limits rows.length adverse.length survival p95Adverse
  if horizon < 0 then
    .error (.validationError "StablecoinDepthStatisticalQualification" "reference_horizon_seconds")
  else
    .ok {
      probeKey := spec.key R
      sourceCurrency := R.upper spec.sourceCurrency
      targetCurrency := R.upper spec.targetCurrency
      inputAmount := spec.inputAmount
      referenceHorizonSeconds := horizon
      effectiveSampleCount := rows.length
      adverseTailSampleCount := adverse.length
      survival
      p95AdverseDeteriorationBps := p95Adverse
      p95SlippageExpansionBps := p95Slip
      statisticallyQualified := reasons.isEmpty
      reasons }

/-- What the qualification says. -/
noncomputable def stablecoinVerdict (R : StatisticsRuntime)
    (cycles : List (ShadowCycle StablecoinDepthObservation)) (spec : StablecoinDepthProbeSpec)
    (settings : Settings) : Except Portfolio.Raised Verdict :=
  (buildStablecoinDepthStatisticalQualification R cycles spec settings).map
    (fun qualification => ⟨qualification.statisticallyQualified, qualification.reasons⟩)

/-! ### The gates -/

section Gates

variable {R : StatisticsRuntime} {spec : StablecoinDepthProbeSpec} {settings : Settings}
  {cycles : List (ShadowCycle StablecoinDepthObservation)}

/-- Evidence qualifies if it passes the gates. -/
theorem qualifies_stablecoinVerdict_iff :
    Qualifies (stablecoinVerdict R cycles spec settings)
      ↔ 0 ≤ (stablecoinSettings settings).referenceHorizonSeconds
        ∧ SampleGates R (stablecoinSettings settings) (·.survived) stablecoinAdverse
          (stablecoinRows R spec settings cycles)
        ∧ TailGate (stablecoinSettings settings) stablecoinAdverse
          (stablecoinRows R spec settings cycles) := by
  unfold Qualifies stablecoinVerdict buildStablecoinDepthStatisticalQualification
  simp only
  split
  · rename_i hhorizon
    refine iff_of_false ?_ (fun h => absurd h.1 (not_le.mpr hhorizon))
    rintro ⟨verdict, h, -⟩
    cases h
  · rename_i hhorizon
    constructor
    · rintro ⟨verdict, h, hqualified⟩
      obtain rfl := Except.ok.inj h
      have hnil := List.isEmpty_iff.mp hqualified
      simp only [stablecoinReasons, List.append_eq_nil_iff, refusal_eq_nil_iff] at hnil
      obtain ⟨⟨⟨⟨h1, h2⟩, h3⟩, h4⟩, h5⟩ := hnil
      exact ⟨not_lt.mp hhorizon, ⟨h1, h2, h3, h4⟩, h5⟩
    · rintro ⟨-, ⟨h1, h2, h3, h4⟩, h5⟩
      refine ⟨_, rfl, List.isEmpty_iff.mpr ?_⟩
      simp only [stablecoinReasons, List.append_eq_nil_iff, refusal_eq_nil_iff]
      exact ⟨⟨⟨⟨h1, h2⟩, h3⟩, h4⟩, h5⟩

/-- Evidence that passes the other gates is refused for its tail at most. -/
theorem refusedOnlyFor_stablecoinVerdict
    (hhorizon : 0 ≤ (stablecoinSettings settings).referenceHorizonSeconds)
    (hgates : SampleGates R (stablecoinSettings settings) (·.survived) stablecoinAdverse
      (stablecoinRows R spec settings cycles)) :
    RefusedOnlyFor [stablecoinTailReason] (stablecoinVerdict R cycles spec settings) := by
  unfold RefusedOnlyFor stablecoinVerdict buildStablecoinDepthStatisticalQualification
  rw [if_neg (not_lt.mpr hhorizon)]
  refine ⟨_, rfl, fun reason hreason => ?_⟩
  obtain ⟨h1, h2, h3, h4⟩ := hgates
  simp only [stablecoinReasons, List.mem_append, mem_refusal_iff] at hreason
  rcases hreason with (((h | h) | h) | h) | h
  · exact absurd h.1 h1
  · exact absurd h.1 h2
  · exact absurd h.1 h3
  · exact absurd h.1 h4
  · exact List.mem_singleton.mpr h.2

end Gates

/-! ### Worse evidence -/

/-- An observation with a larger deterioration, otherwise equal. -/
def StablecoinDeteriorated (row row' : StablecoinDepthObservation) : Prop :=
  ∃ d d', row.adverseDeteriorationBps = some d ∧ d ≤ d'
    ∧ row' = { row with adverseDeteriorationBps := some d' }

/-- An observation of the same probe that failed, whatever its measurements. -/
structure StablecoinFailed (row row' : StablecoinDepthObservation) : Prop where
  probeKey : row'.probeKey = row.probeKey
  horizonSeconds : row'.horizonSeconds = row.horizonSeconds
  failed : row'.survived = false

section Worse

variable {R : StatisticsRuntime} {spec : StablecoinDepthProbeSpec} {settings : Settings}

/-- The rows after the replacement are worse in the same place, or the same. -/
theorem stablecoinVerdict_replace
    (hhalf : 1 / 2 ≤ (stablecoinSettings settings).minSurvivalLowerBound)
    (place : Place StablecoinDepthObservation) (row row' : StablecoinDepthObservation)
    {lost : Option ℝ}
    (hkey : row'.probeKey = row.probeKey) (hhorizon : row'.horizonSeconds = row.horizonSeconds)
    (hsurvived : row'.survived = true → row.survived = true)
    (hchange : ValueChange (· ≤ ·) lost (stablecoinAdverse row) (stablecoinAdverse row'))
    (h : Qualifies (stablecoinVerdict R (place.cycles row') spec settings)) :
    RefusedOnlyFor [stablecoinTailReason] (stablecoinVerdict R (place.cycles row) spec settings)
      ∧ (OutsideTail stablecoinAdverse (stablecoinRows R spec settings (place.cycles row')) lost →
        Qualifies (stablecoinVerdict R (place.cycles row) spec settings)) := by
  have hselected : stablecoinSelected (spec.key R)
      (stablecoinSettings settings).referenceHorizonSeconds row' = stablecoinSelected (spec.key R)
      (stablecoinSettings settings).referenceHorizonSeconds row := by
    unfold stablecoinSelected
    rw [hkey, hhorizon]
  rw [qualifies_stablecoinVerdict_iff] at h ⊢
  obtain ⟨hpositive, hgates, htail⟩ := h
  rcases selectedRows_cycles _ place hselected with hsame | ⟨rows, rows', hold, hnew⟩
  · -- the row is not the one of its cycle
    have hrows : stablecoinRows R spec settings (place.cycles row')
        = stablecoinRows R spec settings (place.cycles row) := hsame
    rw [hrows] at hgates htail
    exact ⟨refusedOnlyFor_stablecoinVerdict hpositive hgates, fun _ => ⟨hpositive, hgates, htail⟩⟩
  · have hrows : stablecoinRows R spec settings (place.cycles row) = rows ++ row :: rows' := hold
    have hrows' : stablecoinRows R spec settings (place.cycles row') = rows ++ row' :: rows' := hnew
    rw [hrows'] at hgates htail ⊢
    have hold := hgates.replace hhalf hsurvived hchange
    refine ⟨refusedOnlyFor_stablecoinVerdict hpositive (by rwa [hrows]), fun houtside => ?_⟩
    rw [hrows]
    exact ⟨hpositive, hold, htail.replace hchange houtside⟩

end Worse

/-- **Stablecoin depth.** Worse evidence does not help, the failure of an observation in the tail
    apart. -/
theorem stablecoin_worseNeverHelps (R : StatisticsRuntime) (spec : StablecoinDepthProbeSpec)
    (settings : Settings) (hhalf : 1 / 2 ≤ (stablecoinSettings settings).minSurvivalLowerBound)
    (place : Place StablecoinDepthObservation) :
    WorseNeverHelps (fun row => stablecoinVerdict R (place.cycles row) spec settings)
      StablecoinDeteriorated StablecoinFailed
      (fun row row' => OutsideTail stablecoinAdverse
        (stablecoinRows R spec settings (place.cycles row')) (stablecoinAdverse row))
      [stablecoinTailReason] := by
  -- a failed row has no deterioration
  have hlost : ∀ row row', StablecoinFailed row row' →
      ValueChange (· ≤ ·) (stablecoinAdverse row) (stablecoinAdverse row)
        (stablecoinAdverse row') := by
    intro row row' hfailed
    rw [show stablecoinAdverse row' = none by simp [stablecoinAdverse, hfailed.failed]]
    cases stablecoinAdverse row with
    | none => exact ValueChange.same none
    | some d => exact ValueChange.lost d
  have hsurvived : ∀ row row', StablecoinFailed row row' →
      row'.survived = true → row.survived = true := by
    intro row row' hfailed h
    rw [hfailed.failed] at h
    cases h
  refine ⟨?_, ?_, ?_⟩
  · rintro row _ ⟨d, d', hd, hle, rfl⟩ hqualifies
    have hchange : ValueChange (· ≤ ·) none (stablecoinAdverse row)
        (stablecoinAdverse { row with adverseDeteriorationBps := some d' }) := by
      unfold stablecoinAdverse
      rw [hd]
      split
      · exact ValueChange.replaced d d' hle
      · exact ValueChange.same none
    refine (stablecoinVerdict_replace hhalf place row
      { row with adverseDeteriorationBps := some d' } rfl rfl id hchange hqualifies).2 ?_
    intro x h
    cases h
  · intro row row' hfailed hqualifies
    exact (stablecoinVerdict_replace hhalf place row row' hfailed.probeKey hfailed.horizonSeconds
      (hsurvived row row' hfailed) (hlost row row' hfailed) hqualifies).1
  · intro row row' hfailed houtside hqualifies
    exact (stablecoinVerdict_replace hhalf place row row' hfailed.probeKey hfailed.horizonSeconds
      (hsurvived row row' hfailed) (hlost row row' hfailed) hqualifies).2 houtside

end InefficiencyEngine.Statistics
