import InefficiencyEngine.Lib.Clusters
import InefficiencyEngine.Statistics.Estimates

namespace InefficiencyEngine.Statistics

/-!
# Statistics of exchange routes

`build_dex_statistical_qualification`: the observations of one shadow cycle are correlated, and make
one cluster.  A cluster survives if all its observations do, and deteriorates as much as the worst
of them.  The acceptance of the size frontiers is a rate of its own.
-/

/-- `direction`. -/
inductive RouteDirection
  | buyAsset
  | sellAsset
  deriving DecidableEq

/-- What the model reads of a `DexRouteShadowObservation`. -/
structure DexRouteShadowObservation where
  asset : String
  direction : RouteDirection
  quoteNotionalUsdProxy : ℝ
  delaySeconds : ℝ
  survived : Bool
  priceDeteriorationBps : Option ℝ
  routeChanged : Option Bool

/-- What the model reads of a `DexRouteSizePoint`. -/
structure DexRouteSizePoint where
  targetNotionalUsd : ℝ
  quoted : Bool
  contiguousAcceptable : Bool

/-- What the model reads of a `DexRouteSizeFrontier`. -/
structure DexRouteSizeFrontier where
  asset : String
  direction : RouteDirection
  points : List DexRouteSizePoint

/-- `DexStatisticalQualification`. The verdict on one route with the figures behind it. -/
structure DexStatisticalQualification where
  asset : String
  direction : RouteDirection
  targetNotionalUsd : ℝ
  referenceHorizonSeconds : ℝ
  notionalToleranceFraction : ℝ
  confidenceLevel : ℝ
  shadowEffectiveSampleCount : ℕ
  frontierEffectiveSampleCount : ℕ
  adverseTailSampleCount : ℕ
  survival : ProbabilityEstimate
  frontierAcceptance : ProbabilityEstimate
  p95AdverseDeteriorationBps : Option ℝ
  routeChangeRate : Option ℝ
  statisticallyQualified : Bool
  reasons : List String

/-- The route that is judged. -/
structure DexRoute where
  asset : String
  direction : RouteDirection
  targetNotionalUsd : ℝ

/-! ### The samples -/

/-- `_same_horizon`. -/
def sameHorizon (observed requested : ℝ) : Prop :=
  |observed - requested| ≤ max 1e-9 (|requested| * 1e-9)

/-- `_same_notional`. -/
def sameNotional (observed requested toleranceFraction : ℝ) : Prop :=
  |observed - requested| ≤ max 1 (|requested| * max 0 toleranceFraction)

open Classical in
/-- An observation of the route. -/
noncomputable def dexSelected (R : StatisticsRuntime) (route : DexRoute) (settings : Settings)
    (row : DexRouteShadowObservation) : Bool :=
  R.upper row.asset = R.upper route.asset ∧ row.direction = route.direction
    ∧ sameHorizon row.delaySeconds settings.referenceHorizonSeconds
    ∧ sameNotional row.quoteNotionalUsdProxy route.targetNotionalUsd
      settings.notionalToleranceFraction

/-- The selected observations, each with the cycle it is of. -/
noncomputable def dexRows (R : StatisticsRuntime) (route : DexRoute) (settings : Settings)
    (cycles : List (ShadowCycle DexRouteShadowObservation)) :
    List (String × DexRouteShadowObservation) :=
  cycles.flatMap (fun cycle =>
    (cycle.observations.filter (dexSelected R route settings)).map
      (fun row => (cycle.cycleId, row)))

/-- `_shadow_clusters`: the values of `grouped`, which is keyed by the cycle. -/
noncomputable def shadowClusters (R : StatisticsRuntime) (route : DexRoute) (settings : Settings)
    (cycles : List (ShadowCycle DexRouteShadowObservation)) :
    List (List DexRouteShadowObservation) :=
  (Dict.group Prod.fst (dexRows R route settings cycles)).values.map (List.map Prod.snd)

/-- The cluster of a cycle. -/
noncomputable def dexCluster (R : StatisticsRuntime) (route : DexRoute) (settings : Settings)
    (cycles : List (ShadowCycle DexRouteShadowObservation)) (cycleId : String) :
    List DexRouteShadowObservation :=
  ((dexRows R route settings cycles).filter (fun item => item.1 = cycleId)).map Prod.snd

open Classical in
/-- `_frontier_outcomes`. Whether each frontier of the route accepted the size, at the first
    point of that size. -/
noncomputable def frontierOutcomes (R : StatisticsRuntime) (route : DexRoute)
    (frontiers : List DexRouteSizeFrontier) : List Bool :=
  (frontiers.filter (fun frontier => R.upper frontier.asset = R.upper route.asset
      ∧ frontier.direction = route.direction)).filterMap
    (fun frontier =>
      (frontier.points.find? (fun item =>
        |item.targetNotionalUsd - route.targetNotionalUsd|
          ≤ max 1e-6 (|route.targetNotionalUsd| * 1e-9))).map
        (fun point => point.quoted && point.contiguousAcceptable))

/-! ### What a cluster adds -/

/-- `survived` of a cluster. -/
def clusterSurvived (rows : List DexRouteShadowObservation) : Bool :=
  !rows.isEmpty && rows.all (·.survived)

/-- `max(row_adverse)` of a cluster that survived. -/
noncomputable def clusterAdverse (rows : List DexRouteShadowObservation) : Option ℝ :=
  if clusterSurvived rows then (rows.filterMap (·.priceDeteriorationBps.map (max 0))).max? else none

/-- `any(changed)` of a cluster that survived. -/
def clusterChanged (rows : List DexRouteShadowObservation) : Option Bool :=
  let changed := rows.filterMap (·.routeChanged)
  if clusterSurvived rows ∧ changed ≠ [] then some (changed.any id) else none

/-! ### The model -/

/-- The reason that the tail gives. -/
def dexTailReason : String :=
  "p95 adverse route deterioration exceeds configured ceiling or is unavailable"

/-- `reasons`. A bound that cannot be computed refuses like one that is too low. -/
noncomputable def dexReasons (settings : Settings) (clusterCount frontierCount tailCount : ℕ)
    (survival frontierAcceptance : ProbabilityEstimate) (p95Adverse : Option ℝ) : List String :=
  refusal (clusterCount < settings.minEffectiveSamples)
      ("shadow effective samples " ++ toString clusterCount ++ " < "
        ++ toString settings.minEffectiveSamples)
    ++ refusal (frontierCount < settings.minEffectiveSamples)
      ("frontier effective samples " ++ toString frontierCount ++ " < "
        ++ toString settings.minEffectiveSamples)
    ++ refusal (tailCount < settings.minTailSamples)
      ("adverse tail samples " ++ toString tailCount ++ " < " ++ toString settings.minTailSamples)
    ++ refusal (absentOrBelow survival.ciLower settings.minSurvivalLowerBound)
      "shadow survival Wilson lower bound below configured minimum"
    ++ refusal (absentOrBelow frontierAcceptance.ciLower settings.minFrontierAcceptanceLowerBound)
      "frontier acceptance Wilson lower bound below configured minimum"
    ++ refusal (absentOrAbove survival.ciWidth settings.maxCiWidth)
      "shadow survival confidence interval too wide"
    ++ refusal (absentOrAbove frontierAcceptance.ciWidth settings.maxCiWidth)
      "frontier acceptance confidence interval too wide"
    ++ refusal (absentOrAbove p95Adverse settings.maxP95DeteriorationBps) dexTailReason

open Classical in
/-- The first field of a `DexStatisticalQualification` that fails its validation. -/
noncomputable def dexInvalidField (settings : Settings) : Option String :=
  if settings.referenceHorizonSeconds < 0 then some "reference_horizon_seconds"
  else if settings.notionalToleranceFraction < 0 then some "notional_tolerance_fraction"
  else if settings.confidenceLevel ≤ 0.5 ∨ 1 ≤ settings.confidenceLevel then some "confidence_level"
  else none

open Classical in
/-- `build_dex_statistical_qualification`. The samples are clusters of shadow cycles, and of
    each cluster the survival, the adverse change and the change of the route are counted once.
    -/
noncomputable def buildDexStatisticalQualification (R : StatisticsRuntime)
    (cycles : List (ShadowCycle DexRouteShadowObservation)) (frontiers : List DexRouteSizeFrontier)
    (route : DexRoute) (settings : Settings) :
    Except Portfolio.Raised DexStatisticalQualification :=
  if route.targetNotionalUsd ≤ 0 then
    .error (.valueError "target_notional_usd must be positive")
  else
    let confidence := settings.confidenceLevel
    let grouped := shadowClusters R route settings cycles
    let adverse := grouped.filterMap clusterAdverse
    let changes := grouped.filterMap clusterChanged
    let survival := wilson R (grouped.countP clusterSurvived) grouped.length confidence
    let outcomes := frontierOutcomes R route frontiers
    let frontierAcceptance := wilson R (outcomes.count true) outcomes.length confidence
    let p95Adverse := quantile adverse 0.95
    let reasons := dexReasons settings grouped.length outcomes.length adverse.length survival
      frontierAcceptance p95Adverse
    -- the fields of the settings are validated when the qualification is built
    match dexInvalidField settings with
    | some field => .error (.validationError "DexStatisticalQualification" field)
    | none =>
      .ok {
        asset := R.upper route.asset
        direction := route.direction
        targetNotionalUsd := route.targetNotionalUsd
        referenceHorizonSeconds := settings.referenceHorizonSeconds
        notionalToleranceFraction := settings.notionalToleranceFraction
        confidenceLevel := confidence
        shadowEffectiveSampleCount := grouped.length
        frontierEffectiveSampleCount := outcomes.length
        adverseTailSampleCount := adverse.length
        survival
        frontierAcceptance
        p95AdverseDeteriorationBps := p95Adverse
        routeChangeRate :=
          if changes = [] then none else some ((changes.count true : ℝ) / changes.length)
        statisticallyQualified := reasons.isEmpty
        reasons }

/-- What the qualification says. -/
noncomputable def dexVerdict (R : StatisticsRuntime)
    (cycles : List (ShadowCycle DexRouteShadowObservation)) (frontiers : List DexRouteSizeFrontier)
    (route : DexRoute) (settings : Settings) : Except Portfolio.Raised Verdict :=
  (buildDexStatisticalQualification R cycles frontiers route settings).map
    (fun qualification => ⟨qualification.statisticallyQualified, qualification.reasons⟩)

/-! ### The gates -/

/-- The gates that do not depend on the shadow cycles: what is validated, and the frontiers. -/
structure FrontierGates (R : StatisticsRuntime) (frontiers : List DexRouteSizeFrontier)
    (route : DexRoute) (settings : Settings) : Prop where
  target : ¬route.targetNotionalUsd ≤ 0
  valid : dexInvalidField settings = none
  enough : ¬((frontierOutcomes R route frontiers).length : ℤ) < settings.minEffectiveSamples
  lower : ¬absentOrBelow
    (wilson R ((frontierOutcomes R route frontiers).count true)
      (frontierOutcomes R route frontiers).length settings.confidenceLevel).ciLower
    settings.minFrontierAcceptanceLowerBound
  width : ¬absentOrAbove
    (wilson R ((frontierOutcomes R route frontiers).count true)
      (frontierOutcomes R route frontiers).length settings.confidenceLevel).ciWidth
    settings.maxCiWidth

section Gates

variable {R : StatisticsRuntime} {frontiers : List DexRouteSizeFrontier} {route : DexRoute}
  {settings : Settings} {cycles : List (ShadowCycle DexRouteShadowObservation)}

/-- Evidence qualifies if it passes the gates. -/
theorem qualifies_dexVerdict_iff :
    Qualifies (dexVerdict R cycles frontiers route settings)
      ↔ FrontierGates R frontiers route settings
        ∧ SampleGates R settings clusterSurvived clusterAdverse
          (shadowClusters R route settings cycles)
        ∧ TailGate settings clusterAdverse (shadowClusters R route settings cycles) := by
  unfold Qualifies dexVerdict buildDexStatisticalQualification
  -- a target that is not positive raises before any verdict
  by_cases htarget : route.targetNotionalUsd ≤ 0
  · rw [if_pos htarget]
    refine iff_of_false ?_ (fun h => h.1.target htarget)
    rintro ⟨verdict, h, -⟩
    cases h
  rw [if_neg htarget]
  -- a setting out of its range raises too
  cases hfield : dexInvalidField settings with
  | some field =>
    refine iff_of_false ?_ (fun h => by simpa [hfield] using h.1.valid)
    rintro ⟨verdict, h, -⟩
    cases h
  -- otherwise the verdict is the list of the refusals, empty exactly when each gate passes
  | none =>
    constructor
    · rintro ⟨verdict, h, hqualified⟩
      obtain rfl := Except.ok.inj h
      have hnil := List.isEmpty_iff.mp hqualified
      simp only [dexReasons, List.append_eq_nil_iff, refusal_eq_nil_iff] at hnil
      obtain ⟨⟨⟨⟨⟨⟨⟨h1, h2⟩, h3⟩, h4⟩, h5⟩, h6⟩, h7⟩, h8⟩ := hnil
      exact ⟨⟨htarget, hfield, h2, h5, h7⟩, ⟨h1, h3, h4, h6⟩, h8⟩
    · rintro ⟨⟨-, -, h2, h5, h7⟩, ⟨h1, h3, h4, h6⟩, h8⟩
      refine ⟨_, rfl, List.isEmpty_iff.mpr ?_⟩
      simp only [dexReasons, List.append_eq_nil_iff, refusal_eq_nil_iff]
      exact ⟨⟨⟨⟨⟨⟨⟨h1, h2⟩, h3⟩, h4⟩, h5⟩, h6⟩, h7⟩, h8⟩

/-- Evidence that passes the other gates is refused for its tail at most. -/
theorem refusedOnlyFor_dexVerdict (hfrontier : FrontierGates R frontiers route settings)
    (hgates : SampleGates R settings clusterSurvived clusterAdverse
      (shadowClusters R route settings cycles)) :
    RefusedOnlyFor [dexTailReason] (dexVerdict R cycles frontiers route settings) := by
  obtain ⟨htarget, hfield, h2, h5, h7⟩ := hfrontier
  obtain ⟨h1, h3, h4, h6⟩ := hgates
  unfold RefusedOnlyFor dexVerdict buildDexStatisticalQualification
  rw [if_neg htarget, hfield]
  refine ⟨_, rfl, fun reason hreason => ?_⟩
  simp only [dexReasons, List.mem_append, mem_refusal_iff] at hreason
  rcases hreason with ((((((h | h) | h) | h) | h) | h) | h) | h
  · exact absurd h.1 h1
  · exact absurd h.1 h2
  · exact absurd h.1 h3
  · exact absurd h.1 h4
  · exact absurd h.1 h5
  · exact absurd h.1 h6
  · exact absurd h.1 h7
  · exact List.mem_singleton.mpr h.2

end Gates

/-! ### A row in the place of another -/

section Replace

variable {R : StatisticsRuntime} {route : DexRoute} {settings : Settings}

/-- The selected rows before and after a place, and the row in it. -/
theorem dexRows_cycles (R : StatisticsRuntime) (route : DexRoute) (settings : Settings)
    (place : Place DexRouteShadowObservation) :
    ∃ before after, ∀ row, dexRows R route settings (place.cycles row)
      = if dexSelected R route settings row then before ++ (place.cycleId, row) :: after
        else before ++ after := by
  refine ⟨dexRows R route settings place.before
      ++ (place.ahead.filter (dexSelected R route settings)).map (fun row => (place.cycleId, row)),
    (place.behind.filter (dexSelected R route settings)).map (fun row => (place.cycleId, row))
      ++ dexRows R route settings place.after, fun row => ?_⟩
  unfold dexRows Place.cycles
  split
  · rename_i hrow
    simp [hrow]
  · rename_i hrow
    simp [hrow]

/-- **Clusters.** A row in the place of another changes just the cluster of its cycle. -/
theorem shadowClusters_cycles (place : Place DexRouteShadowObservation)
    {row row' : DexRouteShadowObservation}
    (hselected : dexSelected R route settings row' = dexSelected R route settings row) :
    shadowClusters R route settings (place.cycles row')
        = shadowClusters R route settings (place.cycles row)
      ∨ ∃ groups groups' ahead behind,
        shadowClusters R route settings (place.cycles row)
            = groups ++ (ahead ++ row :: behind) :: groups'
          ∧ shadowClusters R route settings (place.cycles row')
            = groups ++ (ahead ++ row' :: behind) :: groups'
          ∧ ahead ++ row :: behind
            = dexCluster R route settings (place.cycles row) place.cycleId := by
  obtain ⟨before, after, hrows⟩ := dexRows_cycles R route settings place
  unfold shadowClusters dexCluster
  rw [hrows, hrows, hselected]
  -- a row of the route replaces one of its cycle, in the same group and at the same place
  split
  · obtain ⟨groups, groups', ahead, behind, hold, hnew, hcluster⟩ :=
      @Dict.values_group_replace String _ _ Prod.fst before after (place.cycleId, row)
        (place.cycleId, row') rfl
    refine Or.inr ⟨groups.map (List.map Prod.snd), groups'.map (List.map Prod.snd),
      ahead.map Prod.snd, behind.map Prod.snd, ?_, ?_, ?_⟩
    · rw [hold]
      simp
    · rw [hnew]
      simp
    · rw [← hcluster]
      simp
  -- a row that is not selected changes nothing
  · exact Or.inl rfl

/-- The largest of some values grows with one of them. -/
theorem max?_replace (before after : List ℝ) {x y : ℝ} (hxy : x ≤ y) :
    ∃ a b, (before ++ x :: after).max? = some a ∧ (before ++ y :: after).max? = some b ∧ a ≤ b := by
  obtain ⟨a, ha⟩ := Option.isSome_iff_exists.mp
    (List.isSome_max?_of_mem (show x ∈ before ++ x :: after by simp))
  obtain ⟨b, hb⟩ := Option.isSome_iff_exists.mp
    (List.isSome_max?_of_mem (show y ∈ before ++ y :: after by simp))
  refine ⟨a, b, ha, hb, ?_⟩
  have hle : ∀ z ∈ before ++ y :: after, z ≤ b := fun z hz => (List.max?_eq_some_iff.mp hb).2 z hz
  have hmem := (List.max?_eq_some_iff.mp ha).1
  rcases List.mem_append.mp hmem with h | h
  · exact hle a (List.mem_append_left _ h)
  · rcases List.mem_cons.mp h with rfl | h
    · exact hxy.trans (hle y (by simp))
    · exact hle a (by simp [h])

variable {ahead behind : List DexRouteShadowObservation} {row row' : DexRouteShadowObservation}

/-- A cluster survives if the row does and so do the others. -/
theorem clusterSurvived_append_cons :
    clusterSurvived (ahead ++ row :: behind)
      = (ahead.all (·.survived) && (row.survived && behind.all (·.survived))) := by
  cases ahead <;> simp [clusterSurvived, Bool.and_assoc]

/-- A cluster with a row that failed did not survive. -/
theorem clusterSurvived_of_failed (h : row.survived = false) :
    clusterSurvived (ahead ++ row :: behind) = false := by
  simp [clusterSurvived_append_cons, h]

/-- A larger deterioration of a row is no smaller one of its cluster. -/
theorem clusterAdverse_deteriorated {d d' : ℝ} (hd : row.priceDeteriorationBps = some d)
    (hle : d ≤ d') :
    ValueChange (· ≤ ·) none (clusterAdverse (ahead ++ row :: behind))
      (clusterAdverse (ahead ++ { row with priceDeteriorationBps := some d' } :: behind)) := by
  have hsurvived :
      clusterSurvived (ahead ++ { row with priceDeteriorationBps := some d' } :: behind)
      = clusterSurvived (ahead ++ row :: behind) := by
    rw [clusterSurvived_append_cons, clusterSurvived_append_cons]
  unfold clusterAdverse
  rw [hsurvived]
  split
  · rw [List.filterMap_append, List.filterMap_append, List.filterMap_cons, List.filterMap_cons, hd]
    obtain ⟨a, b, ha, hb, hab⟩ := max?_replace
      (ahead.filterMap (·.priceDeteriorationBps.map (max 0)))
      (behind.filterMap (·.priceDeteriorationBps.map (max 0))) (max_le_max_left 0 hle)
    rw [Option.map_some, Option.map_some, ha, hb]
    exact ValueChange.replaced a b hab
  · exact ValueChange.same none

end Replace

/-! ### Worse evidence -/

/-- An observation with a larger deterioration, otherwise equal. -/
def DexDeteriorated (row row' : DexRouteShadowObservation) : Prop :=
  ∃ d d', row.priceDeteriorationBps = some d ∧ d ≤ d'
    ∧ row' = { row with priceDeteriorationBps := some d' }

/-- An observation of the same route that failed, whatever its measurements. -/
structure DexFailed (row row' : DexRouteShadowObservation) : Prop where
  asset : row'.asset = row.asset
  direction : row'.direction = row.direction
  delaySeconds : row'.delaySeconds = row.delaySeconds
  quoteNotionalUsdProxy : row'.quoteNotionalUsdProxy = row.quoteNotionalUsdProxy
  failed : row'.survived = false

section Worse

variable {R : StatisticsRuntime} {frontiers : List DexRouteSizeFrontier} {route : DexRoute}
  {settings : Settings}

/-- The clusters after the replacement are worse in the same place, or the same. -/
theorem dexVerdict_replace (hhalf : 1 / 2 ≤ settings.minSurvivalLowerBound)
    (place : Place DexRouteShadowObservation) (row row' : DexRouteShadowObservation)
    (lost : List DexRouteShadowObservation → Option ℝ)
    (hselected : dexSelected R route settings row' = dexSelected R route settings row)
    (hsurvived : ∀ ahead behind, clusterSurvived (ahead ++ row' :: behind) = true →
      clusterSurvived (ahead ++ row :: behind) = true)
    (hchange : ∀ ahead behind, ValueChange (· ≤ ·) (lost (ahead ++ row :: behind))
      (clusterAdverse (ahead ++ row :: behind)) (clusterAdverse (ahead ++ row' :: behind)))
    (h : Qualifies (dexVerdict R (place.cycles row') frontiers route settings)) :
    RefusedOnlyFor [dexTailReason] (dexVerdict R (place.cycles row) frontiers route settings)
      ∧ (OutsideTail clusterAdverse (shadowClusters R route settings (place.cycles row'))
          (lost (dexCluster R route settings (place.cycles row) place.cycleId)) →
        Qualifies (dexVerdict R (place.cycles row) frontiers route settings)) := by
  rw [qualifies_dexVerdict_iff] at h ⊢
  obtain ⟨hfrontier, hgates, htail⟩ := h
  rcases shadowClusters_cycles place hselected with
    hsame | ⟨groups, groups', ahead, behind, hold, hnew, hcluster⟩
  · -- the row is not one of the route
    rw [hsame] at hgates htail
    exact ⟨refusedOnlyFor_dexVerdict hfrontier hgates, fun _ => ⟨hfrontier, hgates, htail⟩⟩
  · rw [hnew] at hgates htail ⊢
    rw [← hcluster]
    have hgates' := hgates.replace hhalf (hsurvived ahead behind) (hchange ahead behind)
    refine ⟨refusedOnlyFor_dexVerdict hfrontier (by rwa [hold]), fun houtside => ?_⟩
    rw [hold]
    exact ⟨hfrontier, hgates', htail.replace (hchange ahead behind) houtside⟩

end Worse

/-- **Exchange routes.** Worse evidence does not help, the failure of an observation whose cluster
    is in the tail apart. -/
theorem dex_worseNeverHelps (R : StatisticsRuntime) (frontiers : List DexRouteSizeFrontier)
    (route : DexRoute) (settings : Settings) (hhalf : 1 / 2 ≤ settings.minSurvivalLowerBound)
    (place : Place DexRouteShadowObservation) :
    WorseNeverHelps (fun row => dexVerdict R (place.cycles row) frontiers route settings)
      DexDeteriorated DexFailed
      (fun row row' => OutsideTail clusterAdverse
        (shadowClusters R route settings (place.cycles row'))
        (clusterAdverse (dexCluster R route settings (place.cycles row) place.cycleId)))
      [dexTailReason] := by
  have hselected : ∀ row row', DexFailed row row' →
      dexSelected R route settings row' = dexSelected R route settings row := by
    intro row row' hfailed
    unfold dexSelected
    rw [hfailed.asset, hfailed.direction, hfailed.delaySeconds, hfailed.quoteNotionalUsdProxy]
  have hsurvived : ∀ row row', DexFailed row row' → ∀ ahead behind,
      clusterSurvived (ahead ++ row' :: behind) = true →
      clusterSurvived (ahead ++ row :: behind) = true := by
    intro row row' hfailed ahead behind h
    rw [clusterSurvived_of_failed hfailed.failed] at h
    cases h
  -- a cluster with a failed row has no deterioration
  have hlost : ∀ row row', DexFailed row row' → ∀ ahead behind,
      ValueChange (· ≤ ·) (clusterAdverse (ahead ++ row :: behind))
        (clusterAdverse (ahead ++ row :: behind)) (clusterAdverse (ahead ++ row' :: behind)) := by
    intro row row' hfailed ahead behind
    rw [show clusterAdverse (ahead ++ row' :: behind) = none by
      simp [clusterAdverse, clusterSurvived_of_failed hfailed.failed]]
    cases clusterAdverse (ahead ++ row :: behind) with
    | none => exact ValueChange.same none
    | some d => exact ValueChange.lost d
  refine ⟨?_, ?_, ?_⟩
  · rintro row _ ⟨d, d', hd, hle, rfl⟩ hqualifies
    refine (dexVerdict_replace hhalf place row { row with priceDeteriorationBps := some d' }
      (fun _ => none) rfl ?_ (fun ahead behind => clusterAdverse_deteriorated hd hle)
      hqualifies).2 ?_
    · intro ahead behind h
      rwa [clusterSurvived_append_cons] at h ⊢
    · intro x h
      cases h
  · intro row row' hfailed hqualifies
    exact (dexVerdict_replace hhalf place row row' clusterAdverse (hselected row row' hfailed)
      (hsurvived row row' hfailed) (hlost row row' hfailed) hqualifies).1
  · intro row row' hfailed houtside hqualifies
    exact (dexVerdict_replace hhalf place row row' clusterAdverse (hselected row row' hfailed)
      (hsurvived row row' hfailed) (hlost row row' hfailed) hqualifies).2 houtside

end InefficiencyEngine.Statistics
