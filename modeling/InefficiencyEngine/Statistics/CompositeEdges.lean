import InefficiencyEngine.Statistics.Estimates

namespace InefficiencyEngine.Statistics

/-!
# Statistics of composite edges

`build_composite_edge_statistical_qualification`: of each shadow cycle the first observation of the
edge that began above the hurdle, at the reference horizon.  An edge survives that is still above
the hurdle.  Two tails are gated: the deterioration of the observations that survived at all, from
above, and the fraction of the edge that is retained above the hurdle, from below.
-/

/-- What the model reads of a `CexDexCompositeEvidence`. -/
structure CexDexCompositeEvidence where
  evidenceId : String
  asset : String
  routeDirection : String
  targetNotionalUsd : {notional : ℝ // 0 < notional}
  cexVenue : String
  cexSymbol : String
  cexQuoteCurrency : String
  routeQuoteCurrency : String

/-- `composite_edge_key`. The hash of what identifies an edge, shortened to its first
    characters. -/
def compositeEdgeKey (R : StatisticsRuntime) (evidence : CexDexCompositeEvidence) : String :=
  let raw := "|".intercalate
    [R.upper evidence.asset, evidence.routeDirection, R.fixed evidence.targetNotionalUsd,
      R.lower evidence.cexVenue, R.upper evidence.cexSymbol, R.upper evidence.cexQuoteCurrency,
      R.upper evidence.routeQuoteCurrency]
  String.ofList ((R.hexdigest raw).toList.take 24)

/-- What the model reads of a `CexDexCompositeEdgeObservation`. -/
structure CexDexCompositeEdgeObservation where
  compositeKey : String
  horizonSeconds : ℝ
  adverseDeteriorationBps : Option ℝ
  retainedEdgeFraction : Option ℝ
  initialAboveHurdle : Bool
  hurdleSurvived : Bool
  survived : Bool

/-- `CompositeEdgeStatisticalQualification`. The verdict on one edge with the figures behind it.
    -/
structure CompositeEdgeStatisticalQualification where
  compositeKey : String
  evidenceId : String
  asset : String
  routeDirection : String
  targetNotionalUsd : ℝ
  cexVenue : String
  cexSymbol : String
  referenceHorizonSeconds : ℝ
  effectiveSampleCount : ℕ
  adverseTailSampleCount : ℕ
  retainedEdgeSampleCount : ℕ
  hurdleSurvival : ProbabilityEstimate
  p95AdverseDeteriorationBps : Option ℝ
  p10RetainedEdgeFraction : Option ℝ
  statisticallyQualified : Bool
  reasons : List String

/-! ### Settings -/

/-- The attributes `cex_dex_composite_statistical_*`, with what stands in for an absent one. -/
def compositeSettings (settings : Settings) : Settings :=
  let own := settings.cexDexComposite
  { settings with
    referenceHorizonSeconds := own.referenceHorizonSeconds.getD settings.referenceHorizonSeconds
    confidenceLevel := own.confidenceLevel.getD settings.confidenceLevel
    minEffectiveSamples := own.minEffectiveSamples.getD settings.minEffectiveSamples
    minTailSamples := own.minTailSamples.getD settings.minTailSamples
    minSurvivalLowerBound := own.minSurvivalLowerBound.getD settings.minSurvivalLowerBound
    maxCiWidth := own.maxCiWidth.getD settings.maxCiWidth
    maxP95DeteriorationBps := own.maxP95DeteriorationBps.getD settings.maxP95DeteriorationBps }

/-- `min_p10_retained`. -/
noncomputable def minP10Retained (settings : Settings) : ℝ :=
  settings.cexDexComposite.minP10RetainedEdgeFraction.getD 0.50

/-! ### The model -/

open Classical in
/-- An observation of the edge above the hurdle, at the horizon. -/
noncomputable def compositeSelected (key : String) (horizon : ℝ)
    (row : CexDexCompositeEdgeObservation) : Bool :=
  row.compositeKey = key ∧ row.initialAboveHurdle ∧ |row.horizonSeconds - horizon| ≤ 1e-9

/-- `rows`: of each cycle the first observation that is selected. -/
noncomputable def compositeRows (R : StatisticsRuntime) (evidence : CexDexCompositeEvidence)
    (settings : Settings) (cycles : List (ShadowCycle CexDexCompositeEdgeObservation)) :
    List CexDexCompositeEdgeObservation :=
  selectedRows
    (compositeSelected (compositeEdgeKey R evidence)
      (compositeSettings settings).referenceHorizonSeconds)
    cycles

/-- The deterioration of a survivor. -/
def compositeAdverse (row : CexDexCompositeEdgeObservation) : Option ℝ :=
  if row.survived then row.adverseDeteriorationBps else none

/-- What an edge that survived the hurdle retained. -/
def compositeRetained (row : CexDexCompositeEdgeObservation) : Option ℝ :=
  if row.hurdleSurvived then row.retainedEdgeFraction else none

/-- The reason that the tail of the deterioration gives. -/
def compositeP95Reason : String :=
  "p95 composite net-edge deterioration exceeds configured ceiling or is unavailable"

/-- The reason that the tail of the retained fraction gives. -/
def compositeP10Reason : String :=
  "p10 retained net-edge fraction is below configured minimum or unavailable"

/-- `reasons`. Every gate that refuses says why, in this order. -/
noncomputable def compositeReasons (limits : Settings) (minP10 : ℝ) (rowCount tailCount : ℕ)
    (survival : ProbabilityEstimate) (p95Adverse p10Retained : Option ℝ) : List String :=
  refusal (rowCount < limits.minEffectiveSamples)
      ("effective composite-edge samples " ++ toString rowCount ++ " < "
        ++ toString limits.minEffectiveSamples)
    ++ refusal (tailCount < limits.minTailSamples)
      ("composite adverse tail samples " ++ toString tailCount ++ " < "
        ++ toString limits.minTailSamples)
    ++ refusal (absentOrBelow survival.ciLower limits.minSurvivalLowerBound)
      "composite edge survival Wilson lower bound below configured minimum"
    ++ refusal (absentOrAbove survival.ciWidth limits.maxCiWidth)
      "composite edge survival confidence interval too wide"
    ++ refusal (absentOrAbove p95Adverse limits.maxP95DeteriorationBps) compositeP95Reason
    ++ refusal (absentOrBelow p10Retained minP10) compositeP10Reason

open Classical in
/-- `build_composite_edge_statistical_qualification`. The rows of the edge are counted and their
    tails taken before any gate is tried. -/
noncomputable def buildCompositeEdgeStatisticalQualification (R : StatisticsRuntime)
    (cycles : List (ShadowCycle CexDexCompositeEdgeObservation))
    (evidence : CexDexCompositeEvidence) (settings : Settings) :
    Except Portfolio.Raised CompositeEdgeStatisticalQualification :=
  let limits := compositeSettings settings
  let horizon := limits.referenceHorizonSeconds
  let rows := compositeRows R evidence settings cycles
  let hurdleSurvival := wilson R (rows.countP (·.hurdleSurvived)) rows.length limits.confidenceLevel
  let adverse := rows.filterMap compositeAdverse
  let retained := rows.filterMap compositeRetained
  let p95Adverse := quantile adverse 0.95
  let p10Retained := quantile retained 0.10
  let reasons := compositeReasons limits (minP10Retained settings) rows.length adverse.length
    hurdleSurvival p95Adverse p10Retained
  if horizon < 0 then
    .error (.validationError "CompositeEdgeStatisticalQualification" "reference_horizon_seconds")
  else
    .ok {
      compositeKey := compositeEdgeKey R evidence
      evidenceId := evidence.evidenceId
      asset := R.upper evidence.asset
      routeDirection := evidence.routeDirection
      targetNotionalUsd := evidence.targetNotionalUsd
      cexVenue := evidence.cexVenue
      cexSymbol := evidence.cexSymbol
      referenceHorizonSeconds := horizon
      effectiveSampleCount := rows.length
      adverseTailSampleCount := adverse.length
      retainedEdgeSampleCount := retained.length
      hurdleSurvival
      p95AdverseDeteriorationBps := p95Adverse
      p10RetainedEdgeFraction := p10Retained
      statisticallyQualified := reasons.isEmpty
      reasons }

/-- What the qualification says. -/
noncomputable def compositeVerdict (R : StatisticsRuntime)
    (cycles : List (ShadowCycle CexDexCompositeEdgeObservation))
    (evidence : CexDexCompositeEvidence) (settings : Settings) : Except Portfolio.Raised Verdict :=
  (buildCompositeEdgeStatisticalQualification R cycles evidence settings).map
    (fun qualification => ⟨qualification.statisticallyQualified, qualification.reasons⟩)

/-! ### The gates -/

/-- The gate on the tail of the retained fraction. -/
def RetainedGate (settings : Settings) (rows : List CexDexCompositeEdgeObservation) : Prop :=
  ¬absentOrBelow (quantile (rows.filterMap compositeRetained) 0.10) (minP10Retained settings)

section Gates

variable {R : StatisticsRuntime} {evidence : CexDexCompositeEvidence} {settings : Settings}
  {cycles : List (ShadowCycle CexDexCompositeEdgeObservation)}

/-- Evidence qualifies if it passes the gates. -/
theorem qualifies_compositeVerdict_iff :
    Qualifies (compositeVerdict R cycles evidence settings)
      ↔ 0 ≤ (compositeSettings settings).referenceHorizonSeconds
        ∧ SampleGates R (compositeSettings settings) (·.hurdleSurvived) compositeAdverse
          (compositeRows R evidence settings cycles)
        ∧ TailGate (compositeSettings settings) compositeAdverse
          (compositeRows R evidence settings cycles)
        ∧ RetainedGate settings (compositeRows R evidence settings cycles) := by
  unfold Qualifies compositeVerdict buildCompositeEdgeStatisticalQualification
  simp only
  -- a negative reference horizon raises before any verdict
  split
  · rename_i hhorizon
    refine iff_of_false ?_ (fun h => absurd h.1 (not_le.mpr hhorizon))
    rintro ⟨verdict, h, -⟩
    cases h
  -- otherwise the verdict is the list of the refusals
  · rename_i hhorizon
    constructor
    · rintro ⟨verdict, h, hqualified⟩
      obtain rfl := Except.ok.inj h
      have hnil := List.isEmpty_iff.mp hqualified
      simp only [compositeReasons, List.append_eq_nil_iff, refusal_eq_nil_iff] at hnil
      obtain ⟨⟨⟨⟨⟨h1, h2⟩, h3⟩, h4⟩, h5⟩, h6⟩ := hnil
      exact ⟨not_lt.mp hhorizon, ⟨h1, h2, h3, h4⟩, h5, h6⟩
    · rintro ⟨-, ⟨h1, h2, h3, h4⟩, h5, h6⟩
      refine ⟨_, rfl, List.isEmpty_iff.mpr ?_⟩
      simp only [compositeReasons, List.append_eq_nil_iff, refusal_eq_nil_iff]
      exact ⟨⟨⟨⟨⟨h1, h2⟩, h3⟩, h4⟩, h5⟩, h6⟩

/-- Evidence that passes the other gates is refused for its tails at most. -/
theorem refusedOnlyFor_compositeVerdict
    (hhorizon : 0 ≤ (compositeSettings settings).referenceHorizonSeconds)
    (hgates : SampleGates R (compositeSettings settings) (·.hurdleSurvived) compositeAdverse
      (compositeRows R evidence settings cycles)) :
    RefusedOnlyFor [compositeP95Reason, compositeP10Reason]
      (compositeVerdict R cycles evidence settings) := by
  unfold RefusedOnlyFor compositeVerdict buildCompositeEdgeStatisticalQualification
  rw [if_neg (not_lt.mpr hhorizon)]
  refine ⟨_, rfl, fun reason hreason => ?_⟩
  obtain ⟨h1, h2, h3, h4⟩ := hgates
  simp only [compositeReasons, List.mem_append, mem_refusal_iff] at hreason
  rcases hreason with ((((h | h) | h) | h) | h) | h
  · exact absurd h.1 h1
  · exact absurd h.1 h2
  · exact absurd h.1 h3
  · exact absurd h.1 h4
  · exact List.mem_cons.mpr (Or.inl h.2)
  · exact List.mem_cons_of_mem _ (List.mem_singleton.mpr h.2)

end Gates

/-! ### Worse evidence -/

/-- An observation with a larger deterioration or a smaller retained fraction, otherwise equal. -/
inductive CompositeDeteriorated (row : CexDexCompositeEdgeObservation) :
    CexDexCompositeEdgeObservation → Prop
  | adverse (d d' : ℝ) (hd : row.adverseDeteriorationBps = some d) (hle : d ≤ d') :
      CompositeDeteriorated row { row with adverseDeteriorationBps := some d' }
  | retained (f f' : ℝ) (hf : row.retainedEdgeFraction = some f) (hle : f' ≤ f) :
      CompositeDeteriorated row { row with retainedEdgeFraction := some f' }

/-- An observation of the same edge that failed the hurdle: one that did not survive at all, or one
    with the same deterioration. -/
structure CompositeFailed (row row' : CexDexCompositeEdgeObservation) : Prop where
  compositeKey : row'.compositeKey = row.compositeKey
  horizonSeconds : row'.horizonSeconds = row.horizonSeconds
  initialAboveHurdle : row'.initialAboveHurdle = row.initialAboveHurdle
  failed : row'.hurdleSurvived = false
  adverse : row'.survived = false
    ∨ row'.survived = row.survived ∧ row'.adverseDeteriorationBps = row.adverseDeteriorationBps

/-- What the failed row retained is no less than the upper of the two values between which the tail
    of some rows lies. -/
def OutsideRetained (rows' : List CexDexCompositeEdgeObservation) (lost : Option ℝ) : Prop :=
  ∀ x, lost = some x → orderStatistic (rows'.filterMap compositeRetained)
    (upperRank (rows'.filterMap compositeRetained) 0.10) ≤ x

section Worse

variable {R : StatisticsRuntime} {evidence : CexDexCompositeEvidence} {settings : Settings}

/-- The rows after the replacement are worse in the same place, or the same. -/
theorem compositeVerdict_replace
    (hhalf : 1 / 2 ≤ (compositeSettings settings).minSurvivalLowerBound)
    (place : Place CexDexCompositeEdgeObservation) (row row' : CexDexCompositeEdgeObservation)
    {lost lostRetained : Option ℝ} (hkey : row'.compositeKey = row.compositeKey)
    (hhorizon : row'.horizonSeconds = row.horizonSeconds)
    (habove : row'.initialAboveHurdle = row.initialAboveHurdle)
    (hsurvived : row'.hurdleSurvived = true → row.hurdleSurvived = true)
    (hchange : ValueChange (· ≤ ·) lost (compositeAdverse row) (compositeAdverse row'))
    (hretained : ValueChange (fun x y => y ≤ x) lostRetained (compositeRetained row)
      (compositeRetained row'))
    (h : Qualifies (compositeVerdict R (place.cycles row') evidence settings)) :
    RefusedOnlyFor [compositeP95Reason, compositeP10Reason]
        (compositeVerdict R (place.cycles row) evidence settings)
      ∧ (OutsideTail compositeAdverse (compositeRows R evidence settings (place.cycles row')) lost →
        OutsideRetained (compositeRows R evidence settings (place.cycles row')) lostRetained →
        Qualifies (compositeVerdict R (place.cycles row) evidence settings)) := by
  have hselected : compositeSelected (compositeEdgeKey R evidence)
      (compositeSettings settings).referenceHorizonSeconds row'
      = compositeSelected (compositeEdgeKey R evidence)
        (compositeSettings settings).referenceHorizonSeconds row := by
    unfold compositeSelected
    rw [hkey, hhorizon, habove]
  rw [qualifies_compositeVerdict_iff] at h ⊢
  obtain ⟨hpositive, hgates, htail, hfloor⟩ := h
  rcases selectedRows_cycles _ place hselected with hsame | ⟨rows, rows', hold, hnew⟩
  · -- the row is not the one of its cycle
    have hrows : compositeRows R evidence settings (place.cycles row')
        = compositeRows R evidence settings (place.cycles row) := hsame
    rw [hrows] at hgates htail hfloor
    exact ⟨refusedOnlyFor_compositeVerdict hpositive hgates,
      fun _ _ => ⟨hpositive, hgates, htail, hfloor⟩⟩
  · have hrows : compositeRows R evidence settings (place.cycles row)
        = rows ++ row :: rows' := hold
    have hrows' : compositeRows R evidence settings (place.cycles row')
        = rows ++ row' :: rows' := hnew
    rw [hrows'] at hgates htail hfloor ⊢
    have hgates' := hgates.replace hhalf hsurvived hchange
    refine ⟨refusedOnlyFor_compositeVerdict hpositive (by rwa [hrows]), ?_⟩
    intro houtside houtsideRetained
    rw [hrows]
    refine ⟨hpositive, hgates', htail.replace hchange houtside, ?_⟩
    exact hretained.filterMap.floor (by norm_num) (by norm_num) houtsideRetained hfloor

/-- What a failed row changes in the tails. -/
theorem compositeFailed_changes {row row' : CexDexCompositeEdgeObservation}
    (h : CompositeFailed row row') :
    (∃ lost, (lost = none ∨ lost = compositeAdverse row)
        ∧ ValueChange (· ≤ ·) lost (compositeAdverse row) (compositeAdverse row'))
      ∧ ValueChange (fun x y => y ≤ x) (compositeRetained row) (compositeRetained row)
        (compositeRetained row') := by
  constructor
  · rcases h.adverse with hgone | ⟨hsurvived, hadverse⟩
    · refine ⟨compositeAdverse row, Or.inr rfl, ?_⟩
      rw [show compositeAdverse row' = none by simp [compositeAdverse, hgone]]
      cases compositeAdverse row with
      | none => exact ValueChange.same none
      | some d => exact ValueChange.lost d
    · refine ⟨none, Or.inl rfl, ?_⟩
      rw [show compositeAdverse row' = compositeAdverse row by
        simp [compositeAdverse, hsurvived, hadverse]]
      exact ValueChange.same _
  · rw [show compositeRetained row' = none by simp [compositeRetained, h.failed]]
    cases compositeRetained row with
    | none => exact ValueChange.same none
    | some f => exact ValueChange.lost f

end Worse

/-- **Composite edges.** Worse evidence does not help, the failure of an observation in one of
    the tails apart. A worse value moves only its own sample, the adverse or the retained one,
    and a failed observation moves both, which is why the tails need their own condition. -/
theorem composite_worseNeverHelps (R : StatisticsRuntime) (evidence : CexDexCompositeEvidence)
    (settings : Settings) (hhalf : 1 / 2 ≤ (compositeSettings settings).minSurvivalLowerBound)
    (place : Place CexDexCompositeEdgeObservation) :
    WorseNeverHelps (fun row => compositeVerdict R (place.cycles row) evidence settings)
      CompositeDeteriorated CompositeFailed
      (fun row row' =>
        OutsideTail compositeAdverse (compositeRows R evidence settings (place.cycles row'))
            (compositeAdverse row)
          ∧ OutsideRetained (compositeRows R evidence settings (place.cycles row'))
            (compositeRetained row))
      [compositeP95Reason, compositeP10Reason] := by
  -- a sample that loses no value has nothing outside its tail
  have hnone : ∀ {P : ℝ → Prop}, ∀ x, none = some x → P x := by
    intro P x h
    cases h
  -- a failed observation had survived the hurdle before, or it changes nothing
  have hsurvived : ∀ row row', CompositeFailed row row' →
      row'.hurdleSurvived = true → row.hurdleSurvived = true := by
    intro row row' hfailed h
    rw [hfailed.failed] at h
    cases h
  refine ⟨?_, ?_, ?_⟩
  -- a deteriorated value: one of the two samples changes
  · intro row row' hdeteriorated hqualifies
    cases hdeteriorated with
    | adverse d d' hd hle =>
      have hchange : ValueChange (· ≤ ·) none (compositeAdverse row)
          (compositeAdverse { row with adverseDeteriorationBps := some d' }) := by
        unfold compositeAdverse
        rw [hd]
        split
        · exact ValueChange.replaced d d' hle
        · exact ValueChange.same none
      exact (compositeVerdict_replace hhalf place row
        { row with adverseDeteriorationBps := some d' } rfl rfl rfl id hchange
        (ValueChange.same _) hqualifies).2 hnone hnone
    | retained f f' hf hle =>
      have hchange : ValueChange (fun x y => y ≤ x) none (compositeRetained row)
          (compositeRetained { row with retainedEdgeFraction := some f' }) := by
        unfold compositeRetained
        rw [hf]
        split
        · exact ValueChange.replaced f f' hle
        · exact ValueChange.same none
      exact (compositeVerdict_replace hhalf place row { row with retainedEdgeFraction := some f' }
        rfl rfl rfl id (ValueChange.same _) hchange hqualifies).2 hnone hnone
  -- a failed observation: the other verdicts may only get worse
  · intro row row' hfailed hqualifies
    obtain ⟨⟨lost, -, hchange⟩, hretained⟩ := compositeFailed_changes hfailed
    exact (compositeVerdict_replace hhalf place row row' hfailed.compositeKey hfailed.horizonSeconds
      hfailed.initialAboveHurdle (hsurvived row row' hfailed) hchange hretained hqualifies).1
  -- and the tails as well, when what they lose lies outside of them
  · rintro row row' hfailed ⟨houtside, houtsideRetained⟩ hqualifies
    obtain ⟨⟨lost, hlost, hchange⟩, hretained⟩ := compositeFailed_changes hfailed
    refine (compositeVerdict_replace hhalf place row row' hfailed.compositeKey
      hfailed.horizonSeconds hfailed.initialAboveHurdle (hsurvived row row' hfailed) hchange
      hretained hqualifies).2 ?_ houtsideRetained
    rcases hlost with rfl | rfl
    · exact hnone
    · exact houtside

end InefficiencyEngine.Statistics
