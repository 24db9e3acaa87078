import InefficiencyEngine.Statistics.CompositeEdges
import InefficiencyEngine.Statistics.DexRoutes
import InefficiencyEngine.Statistics.StablecoinDepth

namespace InefficiencyEngine.Statistics

/-!
# Worse evidence

With a survival bound of a half or more, none of the three models qualifies deteriorated evidence
that it did not qualify before (`worseEvidence`).  A failure can help: the tail is that of the
survivors, so the failure of the worst of them takes it out of the tail.
-/

/-! ### Ten samples -/

/-- A runtime at a confidence of two standard deviations to either side. -/
def twoSigma : StatisticsRuntime where
  invCdf _ := 2
  invCdf_pos := fun _ _ => by norm_num
  upper := id
  lower := id
  fixed _ := "1000.00000000"
  hexdigest raw :=
    if raw = "USDC|USD|1000.00000000" then
      "282d8eca417863e5ee57167e37a42907b1c35d1d74021c154f31dc0eadc22ce1"
    else
      "41609890eb5a3c34678ad8d4602649fbbdf043ac666b3a53d596d32ef76c46ff"

/-- A probe of a thousand dollars. -/
def thousandProbe : StablecoinDepthProbeSpec := ⟨"USDC", "USD", 1000, by norm_num⟩

/-- Ten samples, nine of them in the tail. -/
noncomputable def tenSamples : Settings where
  referenceHorizonSeconds := 5
  minEffectiveSamples := 10
  minTailSamples := 9
  confidenceLevel := 0.9544997361036416
  maxCiWidth := 0.5
  minSurvivalLowerBound := 0.5
  minFrontierAcceptanceLowerBound := 0.8
  maxP95DeteriorationBps := 25
  notionalToleranceFraction := 0.1

/-- An observation of the probe. -/
noncomputable def probed (survived : Bool) (adverse : Option ℝ) : StablecoinDepthObservation where
  probeKey := thousandProbe.key twoSigma
  horizonSeconds := 5
  adverseDeteriorationBps := adverse
  slippageExpansionBps := none
  survived := survived

/-- A tenth cycle after nine without any deterioration. -/
noncomputable def tenthCycle : Place StablecoinDepthObservation where
  before := List.replicate 9 ⟨"calm", [probed true (some 0)]⟩
  cycleId := "tenth"
  ahead := []
  behind := []
  after := []

/-- A route that buys bitcoin for a thousand dollars. -/
def thousandRoute : DexRoute := ⟨"BTC", .buyAsset, 1000⟩

/-- An observation of the route. -/
noncomputable def routed (deterioration : ℝ) : DexRouteShadowObservation where
  asset := "BTC"
  direction := .buyAsset
  quoteNotionalUsdProxy := 1000
  delaySeconds := 5
  survived := true
  priceDeteriorationBps := some deterioration
  routeChanged := some false

/-- A tenth cycle of the route. -/
noncomputable def tenthRouteCycle : Place DexRouteShadowObservation where
  before := ["1", "2", "3", "4", "5", "6", "7", "8", "9"].map (fun id => ⟨id, [routed 0]⟩)
  cycleId := "10"
  ahead := []
  behind := []
  after := []

/-- A size frontier on which a thousand dollars were accepted. -/
noncomputable def acceptedFrontier : DexRouteSizeFrontier where
  asset := "BTC"
  direction := .buyAsset
  points := [⟨1000, true, true⟩]

theorem shadowClusters_tenthRouteCycle (deterioration : ℝ) :
    shadowClusters twoSigma thousandRoute tenSamples (tenthRouteCycle.cycles (routed deterioration))
      = List.replicate 9 [routed 0] ++ [[routed deterioration]] := by
  have hselected : ∀ deterioration, dexSelected twoSigma thousandRoute tenSamples
      (routed deterioration) = true := by
    intro deterioration
    simp [dexSelected, routed, thousandRoute, tenSamples, sameHorizon, sameNotional]
    norm_num
  have hrows : dexRows twoSigma thousandRoute tenSamples
      (tenthRouteCycle.cycles (routed deterioration))
      = ["1", "2", "3", "4", "5", "6", "7", "8", "9"].map (fun id => (id, routed 0))
        ++ [("10", routed deterioration)] := by
    simp [dexRows, Place.cycles, tenthRouteCycle, hselected]
  unfold shadowClusters
  rw [hrows]
  rfl

theorem frontierOutcomes_accepted :
    frontierOutcomes twoSigma thousandRoute (List.replicate 20 acceptedFrontier)
      = List.replicate 20 true := by
  unfold frontierOutcomes
  rw [List.filter_replicate_of_pos (by simp [acceptedFrontier, thousandRoute]),
    List.filterMap_replicate_of_some (b := true)]
  simp [acceptedFrontier, thousandRoute]
  norm_num

/-- Twenty accepted frontiers pass the gates on the frontiers. -/
theorem frontierGates_accepted :
    FrontierGates twoSigma (List.replicate 20 acceptedFrontier) thousandRoute tenSamples := by
  obtain ⟨hlower, hwidth⟩ := @wilson_all twoSigma 20 tenSamples.confidenceLevel (by norm_num)
  have hz : twoSigma.z tenSamples.confidenceLevel = 2 := rfl
  rw [hz] at hlower hwidth
  refine ⟨by norm_num [thousandRoute], by norm_num [dexInvalidField, tenSamples], ?_, ?_, ?_⟩
  · rw [frontierOutcomes_accepted]
    simp [tenSamples]
  · rw [frontierOutcomes_accepted]
    refine not_absentOrBelow_iff.mpr ⟨_, hlower, ?_⟩
    norm_num [tenSamples]
  · rw [frontierOutcomes_accepted]
    refine not_absentOrAbove_iff.mpr ⟨_, hwidth, ?_⟩
    norm_num [tenSamples]

/-- A route with ten good cycles qualifies, though the tenth deteriorated by twenty basis points. -/
theorem qualifies_tenthRouteCycle :
    Qualifies (dexVerdict twoSigma (tenthRouteCycle.cycles (routed 20))
      (List.replicate 20 acceptedFrontier) thousandRoute tenSamples) := by
  have hz : twoSigma.z tenSamples.confidenceLevel = 2 := rfl
  have hadverse : (List.replicate 9 [routed 0] ++ [[routed 20]]).filterMap clusterAdverse
      = List.replicate 9 (0 : ℝ) ++ [20] := by
    simp [List.replicate, clusterAdverse, clusterSurvived, routed]
  rw [qualifies_dexVerdict_iff, shadowClusters_tenthRouteCycle]
  refine ⟨frontierGates_accepted, SampleGates.of_all rfl (by simp) (by simp [tenSamples]) ?_ ?_ ?_,
    TailGate.of_le ?_ ?_⟩
  · rw [hadverse]
    simp [tenSamples]
  · rw [hz]
    norm_num [tenSamples]
  · rw [hz]
    norm_num [tenSamples]
  · rw [hadverse]
    simp
  · rw [hadverse]
    intro x hx
    rcases List.mem_append.mp hx with h | h
    · rw [List.eq_of_mem_replicate h]
      norm_num [tenSamples]
    · rw [List.mem_singleton.mp h]
      norm_num [tenSamples]

/-- An edge of bitcoin between an exchange and a route. -/
def bitcoinEdge : CexDexCompositeEvidence :=
  ⟨"edge", "BTC", "buy_asset", ⟨1000, by norm_num⟩, "kraken", "BTC/USD", "USD", "USDC"⟩

/-- An observation of the edge. -/
noncomputable def edged (deterioration : ℝ) : CexDexCompositeEdgeObservation where
  compositeKey := compositeEdgeKey twoSigma bitcoinEdge
  horizonSeconds := 5
  adverseDeteriorationBps := some deterioration
  retainedEdgeFraction := some 1
  initialAboveHurdle := true
  hurdleSurvived := true
  survived := true

/-- A tenth cycle of the edge. -/
noncomputable def tenthEdgeCycle : Place CexDexCompositeEdgeObservation where
  before := List.replicate 9 ⟨"calm", [edged 0]⟩
  cycleId := "tenth"
  ahead := []
  behind := []
  after := []

theorem compositeRows_tenthEdgeCycle (deterioration : ℝ) :
    compositeRows twoSigma bitcoinEdge tenSamples (tenthEdgeCycle.cycles (edged deterioration))
      = List.replicate 9 (edged 0) ++ [edged deterioration] := by
  have hselected : ∀ deterioration, compositeSelected (compositeEdgeKey twoSigma bitcoinEdge)
      (compositeSettings tenSamples).referenceHorizonSeconds (edged deterioration) = true := by
    intro deterioration
    simp [compositeSelected, edged, compositeSettings, tenSamples]
    norm_num
  simp [compositeRows, selectedRows, tenthEdgeCycle, Place.cycles, hselected, List.replicate]

/-- An edge with ten good cycles qualifies, though the tenth deteriorated by twenty basis points. -/
theorem qualifies_tenthEdgeCycle :
    Qualifies (compositeVerdict twoSigma (tenthEdgeCycle.cycles (edged 20)) bitcoinEdge
      tenSamples) := by
  have hz : twoSigma.z (compositeSettings tenSamples).confidenceLevel = 2 := rfl
  have hadverse : (List.replicate 9 (edged 0) ++ [edged 20]).filterMap compositeAdverse
      = List.replicate 9 (0 : ℝ) ++ [20] := by
    simp [List.replicate, compositeAdverse, edged]
  have hretained : (List.replicate 9 (edged 0) ++ [edged 20]).filterMap compositeRetained
      = List.replicate 10 (1 : ℝ) := by
    simp [List.replicate, compositeRetained, edged]
  rw [qualifies_compositeVerdict_iff, compositeRows_tenthEdgeCycle]
  -- the gates on the counts and the survival, then the two tails
  refine ⟨by norm_num [compositeSettings, tenSamples], SampleGates.of_all rfl (by simp)
    (by simp [compositeSettings, tenSamples]) ?_ ?_ ?_, TailGate.of_le ?_ ?_, ?_⟩
  · rw [hadverse]
    simp [compositeSettings, tenSamples]
  · rw [hz]
    norm_num [compositeSettings, tenSamples]
  · rw [hz]
    norm_num [compositeSettings, tenSamples]
  · rw [hadverse]
    simp
  · rw [hadverse]
    intro x hx
    rcases List.mem_append.mp hx with h | h
    · rw [List.eq_of_mem_replicate h]
      norm_num [compositeSettings, tenSamples]
    · rw [List.mem_singleton.mp h]
      norm_num [compositeSettings, tenSamples]
  · unfold RetainedGate
    rw [hretained]
    refine not_absentOrBelow_iff.mpr ⟨_, quantile_eq (by simp) _, le_quantileOf (by simp) ?_⟩
    intro x hx
    rw [List.eq_of_mem_replicate hx]
    norm_num [minP10Retained, tenSamples]

theorem stablecoinRows_tenthCycle (survived : Bool) (adverse : Option ℝ) :
    stablecoinRows twoSigma thousandProbe tenSamples (tenthCycle.cycles (probed survived adverse))
      = List.replicate 9 (probed true (some 0)) ++ [probed survived adverse] := by
  have hselected : ∀ survived adverse, stablecoinSelected (thousandProbe.key twoSigma)
      (stablecoinSettings tenSamples).referenceHorizonSeconds (probed survived adverse) = true := by
    intro survived adverse
    simp [stablecoinSelected, probed, stablecoinSettings, tenSamples]
    norm_num
  simp [stablecoinRows, selectedRows, tenthCycle, Place.cycles, hselected, List.replicate]

/-- Nine of ten samples, at two standard deviations. -/
theorem sampleGates_nineOfTen :
    SampleGates twoSigma (stablecoinSettings tenSamples) (·.survived) stablecoinAdverse
      (List.replicate 9 (probed true (some 0)) ++ [probed false none]) := by
  have hroot : √((9 / 10 : ℝ) * (1 - 9 / 10) / 10 + 2 * 2 / (4 * 10 * 10)) ≤ 0.15 := by
    rw [Real.sqrt_le_left (by norm_num)]
    norm_num
  obtain ⟨hlower, -, hwidth⟩ := @wilson_eq twoSigma 9 10 tenSamples.confidenceLevel
    (by norm_num) (by norm_num)
  have hcount : (List.replicate 9 (probed true (some 0)) ++ [probed false none]).countP (·.survived)
      = 9 := by
    simp [probed]
  have hlength : (List.replicate 9 (probed true (some 0)) ++ [probed false none]).length = 10 := by
    simp
  have hz : twoSigma.z tenSamples.confidenceLevel = 2 := rfl
  rw [hz] at hlower hwidth
  push_cast at hlower hwidth
  refine ⟨?_, ?_, ?_, ?_⟩
  · simp [stablecoinSettings, tenSamples]
  · simp [stablecoinSettings, tenSamples, stablecoinAdverse, probed, List.replicate]
  · rw [hcount, hlength]
    refine not_absentOrBelow_iff.mpr ⟨_, hlower, ?_⟩
    norm_num [stablecoinSettings, tenSamples, wilsonCenter, wilsonMargin] at hroot ⊢
    linarith
  · rw [hcount, hlength]
    refine not_absentOrAbove_iff.mpr ⟨_, hwidth, ?_⟩
    norm_num [stablecoinSettings, tenSamples, wilsonMargin] at hroot ⊢
    linarith

/-- The tail of nine values without deterioration. -/
theorem tailGate_nineOfTen :
    TailGate (stablecoinSettings tenSamples) stablecoinAdverse
      (List.replicate 9 (probed true (some 0)) ++ [probed false none]) := by
  refine TailGate.of_le ?_ ?_
  · simp [List.replicate, stablecoinAdverse, probed]
  · simp [List.replicate, stablecoinAdverse, probed, stablecoinSettings, tenSamples]

/-- With a failed tenth observation the probe qualifies. -/
theorem qualifies_failedTenth :
    Qualifies (stablecoinVerdict twoSigma (tenthCycle.cycles (probed false none)) thousandProbe
      tenSamples) := by
  rw [qualifies_stablecoinVerdict_iff, stablecoinRows_tenthCycle]
  exact ⟨by norm_num [stablecoinSettings, tenSamples], sampleGates_nineOfTen, tailGate_nineOfTen⟩

/-! ### Worse evidence -/

/-- **Worse evidence never helps**, except that a failed observation leaves the tail it was in.
    The three verdicts share one shape, a lower bound on the survival and a tail of the samples,
    so the statement is one predicate applied to each of them. -/
theorem worseEvidence (R : StatisticsRuntime) (frontiers : List DexRouteSizeFrontier)
    (route : DexRoute) (evidence : CexDexCompositeEvidence) (spec : StablecoinDepthProbeSpec)
    (dex : {settings : Settings // 1 / 2 ≤ settings.minSurvivalLowerBound})
    (composite : {settings : Settings //
      1 / 2 ≤ (compositeSettings settings).minSurvivalLowerBound})
    (stablecoin : {settings : Settings //
      1 / 2 ≤ (stablecoinSettings settings).minSurvivalLowerBound})
    (dexPlace : Place DexRouteShadowObservation)
    (compositePlace : Place CexDexCompositeEdgeObservation)
    (stablecoinPlace : Place StablecoinDepthObservation) :
    WorseNeverHelps (fun row => dexVerdict R (dexPlace.cycles row) frontiers route dex.val)
        DexDeteriorated DexFailed
        (fun row row' => OutsideTail clusterAdverse
          (shadowClusters R route dex.val (dexPlace.cycles row'))
          (clusterAdverse
            (dexCluster R route dex.val (dexPlace.cycles row) dexPlace.cycleId)))
        [dexTailReason]
      ∧ WorseNeverHelps
        (fun row => compositeVerdict R (compositePlace.cycles row) evidence composite.val)
        CompositeDeteriorated CompositeFailed
        (fun row row' =>
          OutsideTail compositeAdverse
              (compositeRows R evidence composite.val (compositePlace.cycles row'))
              (compositeAdverse row)
            ∧ OutsideRetained (compositeRows R evidence composite.val (compositePlace.cycles row'))
              (compositeRetained row))
        [compositeP95Reason, compositeP10Reason]
      ∧ WorseNeverHelps
        (fun row => stablecoinVerdict R (stablecoinPlace.cycles row) spec stablecoin.val)
        StablecoinDeteriorated StablecoinFailed
        (fun row row' => OutsideTail stablecoinAdverse
          (stablecoinRows R spec stablecoin.val (stablecoinPlace.cycles row'))
          (stablecoinAdverse row))
        [stablecoinTailReason] :=
  ⟨dex_worseNeverHelps R frontiers route dex.val dex.property dexPlace,
    composite_worseNeverHelps R evidence composite.val composite.property compositePlace,
    stablecoin_worseNeverHelps R spec stablecoin.val stablecoin.property stablecoinPlace⟩

/-- Ten samples, of which the last is worse than it could be: the route and the edge qualify with
    a calm tenth cycle too, and against a probe with a worst survivor nothing but its tail speaks. -/
theorem worseEvidence_tenSamples :
    Qualifies (dexVerdict twoSigma (tenthRouteCycle.cycles (routed 0))
        (List.replicate 20 acceptedFrontier) thousandRoute tenSamples)
      ∧ Qualifies (compositeVerdict twoSigma (tenthEdgeCycle.cycles (edged 0)) bitcoinEdge
        tenSamples)
      ∧ RefusedOnlyFor [stablecoinTailReason] (stablecoinVerdict twoSigma
        (tenthCycle.cycles (probed true (some 100))) thousandProbe tenSamples) := by
  obtain ⟨hdex, hcomposite, hstablecoin⟩ := worseEvidence twoSigma
    (List.replicate 20 acceptedFrontier) thousandRoute bitcoinEdge thousandProbe
    ⟨tenSamples, by norm_num [tenSamples]⟩
    ⟨tenSamples, by norm_num [compositeSettings, tenSamples]⟩
    ⟨tenSamples, by norm_num [stablecoinSettings, tenSamples]⟩
    tenthRouteCycle tenthEdgeCycle tenthCycle
  refine ⟨?_, ?_, ?_⟩
  · exact hdex.deteriorated (routed 0) (routed 20) ⟨0, 20, rfl, by norm_num, rfl⟩
      qualifies_tenthRouteCycle
  · exact hcomposite.deteriorated (edged 0) (edged 20)
      (CompositeDeteriorated.adverse 0 20 rfl (by norm_num)) qualifies_tenthEdgeCycle
  · exact hstablecoin.failed (probed true (some 100)) (probed false none) ⟨rfl, rfl, rfl⟩
      qualifies_failedTenth

/-! ### The failure of the worst survivor -/

/-- The tail of ten values, the last of them far above the others. -/
theorem not_tailGate_worst :
    ¬TailGate (stablecoinSettings tenSamples) stablecoinAdverse
      (List.replicate 9 (probed true (some 0)) ++ [probed true (some 100)]) := by
  have hadverse : (List.replicate 9 (probed true (some 0)) ++ [probed true (some 100)]).filterMap
      stablecoinAdverse = [(0 : ℝ), 0, 0, 0, 0, 0, 0, 0, 0, 100] := by
    simp [List.replicate, stablecoinAdverse, probed]
  have hposition : quantilePosition [(0 : ℝ), 0, 0, 0, 0, 0, 0, 0, 0, 100] 0.95 = 9 * 0.95 := by
    norm_num [quantilePosition]
  have hlower : lowerRank [(0 : ℝ), 0, 0, 0, 0, 0, 0, 0, 0, 100] 0.95 = 8 := by
    rw [lowerRank, hposition, Nat.floor_eq_iff (by norm_num)]
    norm_num
  have hupper : upperRank [(0 : ℝ), 0, 0, 0, 0, 0, 0, 0, 0, 100] 0.95 = 9 := by
    simp [upperRank, hlower]
  have hquantile : quantileOf [(0 : ℝ), 0, 0, 0, 0, 0, 0, 0, 0, 100] 0.95 = 55 := by
    unfold quantileOf
    rw [hupper, hlower, hposition]
    norm_num [orderStatistic, between, List.insertionSort, List.orderedInsert]
  unfold TailGate
  rw [hadverse, quantile_eq (by simp), hquantile]
  intro h
  obtain ⟨v, hv, hle⟩ := not_absentOrAbove_iff.mp h
  obtain rfl := Option.some.inj hv
  norm_num [stablecoinSettings, tenSamples] at hle

/-- **A failure that helps.** The tenth observation deteriorated by a hundred basis points: the
    probe does not qualify.  Had it failed instead, it would. -/
theorem not_worseNeverHelps_worstSurvivor :
    ¬∀ (R : StatisticsRuntime) (spec : StablecoinDepthProbeSpec) (settings : Settings)
      (place : Place StablecoinDepthObservation) (row row' : StablecoinDepthObservation),
      1 / 2 ≤ (stablecoinSettings settings).minSurvivalLowerBound →
      row.survived = true → StablecoinFailed row row' →
      Qualifies (stablecoinVerdict R (place.cycles row') spec settings) →
      Qualifies (stablecoinVerdict R (place.cycles row) spec settings) := by
  intro h
  have hold := h twoSigma thousandProbe tenSamples tenthCycle (probed true (some 100))
    (probed false none) (by norm_num [stablecoinSettings, tenSamples]) rfl ⟨rfl, rfl, rfl⟩
    qualifies_failedTenth
  rw [qualifies_stablecoinVerdict_iff, stablecoinRows_tenthCycle] at hold
  exact not_tailGate_worst hold.2.2

end InefficiencyEngine.Statistics
