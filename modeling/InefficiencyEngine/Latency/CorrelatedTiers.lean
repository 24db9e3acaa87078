import InefficiencyEngine.Latency.Metrics

namespace InefficiencyEngine.Latency

/-!
# Correlated capital tiers are no evidence

A further observation of a cluster that is already there leaves the number of clusters.  A cluster
in which all observations succeed can only be lost by it, and one in which some observation is a
risk only gained; the rates and the lower bounds follow.
-/

/-! ### One estimate -/

section Estimate

variable {rows rows' before after : List ShadowObservation} {row : ShadowObservation}
variable {predicate : ShadowObservation → Bool} {risk : Bool} {confidence : ℝ}

/-- A value that is there and not higher than another one. -/
def NotHigher {α : Type} [LE α] (new old : Option α) : Prop :=
  ∃ x y, new = some x ∧ old = some y ∧ x ≤ y

/-- The number of distinct clusters. -/
def distinctClusters (rows : List ShadowObservation) : ℕ := (rows.map clusterKey).toFinset.card

/-- The number of clusters that count. -/
def countedClusters (predicate : ShadowObservation → Bool) (risk : Bool)
    (rows : List ShadowObservation) : ℕ :=
  (Dict.groupsWith clusterKey (clusterOutcome predicate risk) rows).card

theorem countedClusters_le : countedClusters predicate risk rows ≤ distinctClusters rows :=
  Finset.card_le_card (Finset.filter_subset _ _)

theorem distinctClusters_pos (h : rows ≠ []) : 0 < distinctClusters rows := by
  obtain ⟨row, hrow⟩ := List.exists_mem_of_ne_nil _ h
  exact Finset.card_pos.mpr ⟨clusterKey row, List.mem_toFinset.mpr (List.mem_map_of_mem hrow)⟩

theorem distinctClusters_perm (h : rows.Perm rows') :
    distinctClusters rows = distinctClusters rows' := by
  rw [distinctClusters, distinctClusters, List.toFinset_eq_of_perm _ _ (h.map clusterKey)]

theorem distinctClusters_insert (h : clusterKey row ∈ (before ++ after).map clusterKey) :
    distinctClusters (before ++ row :: after) = distinctClusters (before ++ after) :=
  congrArg Finset.card (Dict.keys_insert h)

/-- **An estimate** is over the distinct clusters. -/
theorem clusterProbability_eq (predicate : ShadowObservation → Bool) (risk : Bool)
    (confidence : ℝ) (h : rows ≠ []) :
    clusterProbability rows predicate risk confidence
      = ⟨some (countedClusters predicate risk rows / distinctClusters rows),
          (wilson (countedClusters predicate risk rows) (distinctClusters rows) confidence).1,
          (wilson (countedClusters predicate risk rows) (distinctClusters rows) confidence).2,
          distinctClusters rows⟩ := by
  have hlength : ((clusters rows).values.map (clusterOutcome predicate risk)).length
      = distinctClusters rows := by
    rw [List.length_map]
    exact Dict.length_values_group clusterKey rows
  have hcount : ((clusters rows).values.map (clusterOutcome predicate risk)).count true
      = countedClusters predicate risk rows := by
    rw [countedClusters, ← Dict.countP_values_group, List.count, List.countP_map]
    refine List.countP_congr (fun group _ => ?_)
    simp
  have hne : (clusters rows).values.map (clusterOutcome predicate risk) ≠ [] := by
    have hpos := distinctClusters_pos h
    rw [← hlength] at hpos
    exact List.ne_nil_of_length_pos hpos
  unfold clusterProbability
  dsimp only
  rw [if_neg hne, hcount, hlength]

/-- Without rows there is no cluster. -/
theorem count_clusterProbability (rows : List ShadowObservation)
    (predicate : ShadowObservation → Bool) (risk : Bool) (confidence : ℝ) :
    (clusterProbability rows predicate risk confidence).count = distinctClusters rows := by
  by_cases h : rows = []
  · subst h
    rfl
  · rw [clusterProbability_eq predicate risk confidence h]

/-- More successes do not lower the lower bound. -/
theorem wilson_mono {successes successes' n : ℕ} (hn : 0 < n) (hle : successes ≤ successes')
    (hle' : successes' ≤ n) (confidence : ℝ) :
    NotHigher (wilson successes n confidence).1 (wilson successes' n confidence).1 := by
  have hpos : (0 : ℝ) < n := Nat.cast_pos.mpr hn
  unfold wilson
  rw [if_neg hn.ne', if_neg hn.ne']
  refine ⟨_, _, rfl, rfl, max_le_max_left 0 (wilsonLower_mono hpos ?_ ?_ ?_)⟩
  · positivity
  · exact div_le_div_of_nonneg_right (Nat.cast_le.mpr hle) hpos.le
  · rw [div_le_one hpos]
    exact Nat.cast_le.mpr hle'

/-- More clusters that count do not lower the rate. -/
theorem rate_mono {successes successes' n : ℕ} (hle : successes ≤ successes') :
    NotHigher (some ((successes : ℚ) / n)) (some ((successes' : ℚ) / n)) :=
  ⟨_, _, rfl, rfl, div_le_div_of_nonneg_right (Nat.cast_le.mpr hle) (Nat.cast_nonneg n)⟩

/-- **Quality.** A further tier of a cluster raises neither the rate of the clusters that succeed
    as a whole nor its lower bound. -/
theorem quality_insert (predicate : ShadowObservation → Bool) (confidence : ℝ)
    (h : clusterKey row ∈ (before ++ after).map clusterKey) :
    NotHigher (clusterProbability (before ++ row :: after) predicate false confidence).probability
        (clusterProbability (before ++ after) predicate false confidence).probability
      ∧ NotHigher (clusterProbability (before ++ row :: after) predicate false confidence).lower
        (clusterProbability (before ++ after) predicate false confidence).lower := by
  have hrows : before ++ after ≠ [] := by
    intro hnil
    rw [hnil] at h
    cases h
  have hfewer : countedClusters predicate false (before ++ row :: after)
      ≤ countedClusters predicate false (before ++ after) :=
    Finset.card_le_card (Dict.groupsWith_all_insert predicate h)
  rw [clusterProbability_eq predicate false confidence (by simp),
    clusterProbability_eq predicate false confidence hrows, distinctClusters_insert h]
  exact ⟨rate_mono hfewer, wilson_mono (distinctClusters_pos hrows) hfewer countedClusters_le _⟩

/-- **Risk.** A further tier of a cluster does not lower the rate of the clusters with a risk. -/
theorem risk_insert (predicate : ShadowObservation → Bool) (confidence : ℝ)
    (h : clusterKey row ∈ (before ++ after).map clusterKey) :
    NotHigher (clusterProbability (before ++ after) predicate true confidence).probability
      (clusterProbability (before ++ row :: after) predicate true confidence).probability := by
  have hrows : before ++ after ≠ [] := by
    intro hnil
    rw [hnil] at h
    cases h
  have hmore : countedClusters predicate true (before ++ after)
      ≤ countedClusters predicate true (before ++ row :: after) :=
    Finset.card_le_card (Dict.groupsWith_any_insert predicate h)
  rw [clusterProbability_eq predicate true confidence hrows,
    clusterProbability_eq predicate true confidence (by simp), distinctClusters_insert h]
  exact rate_mono hmore

end Estimate

/-! ### The metrics -/

/-- Metrics that are no better evidence than others. -/
structure NoBetter (new old : LatencyMetrics) : Prop where
  effectiveCount : new.effectiveCount = old.effectiveCount
  pairFill : NotHigher new.pairFill.probability old.pairFill.probability
  pairFillLow : NotHigher new.pairFill.lower old.pairFill.lower
  reserveFill : NotHigher new.reserveFill.probability old.reserveFill.probability
  reserveFillLow : NotHigher new.reserveFill.lower old.reserveFill.lower
  capture : NotHigher new.capture.probability old.capture.probability
  captureLow : NotHigher new.capture.lower old.capture.lower
  hedgeRecovery : NotHigher old.hedgeRecovery.probability new.hedgeRecovery.probability
  partialFill : NotHigher old.partialFill new.partialFill

/-- The effective count is the number of distinct clusters. -/
theorem effectiveCount_metrics (rows : List ShadowObservation) (confidence : ℝ) :
    (metrics rows confidence).effectiveCount = distinctClusters rows :=
  count_clusterProbability rows _ _ _

/-- **No evidence from correlated tiers.** With a further observation of a cluster that is already
    there, the metrics are no better evidence; the effective count is always the number of
    distinct clusters, in whatever order the observations are. -/
theorem metrics_correlated (confidence : ℝ) {before after : List ShadowObservation}
    {row : ShadowObservation} (h : clusterKey row ∈ (before ++ after).map clusterKey) :
    NoBetter (metrics (before ++ row :: after) confidence) (metrics (before ++ after) confidence)
      ∧ ∀ rows : List ShadowObservation,
        (metrics rows confidence).effectiveCount = (rows.map clusterKey).toFinset.card
          ∧ ∀ rows', rows.Perm rows' →
            (metrics rows' confidence).effectiveCount = (metrics rows confidence).effectiveCount := by
  refine ⟨?_, fun rows => ⟨effectiveCount_metrics rows confidence, fun rows' hperm => ?_⟩⟩
  · refine ⟨?_, (quality_insert _ _ h).1, (quality_insert _ _ h).2, (quality_insert _ _ h).1,
      (quality_insert _ _ h).2, (quality_insert _ _ h).1, (quality_insert _ _ h).2,
      risk_insert _ _ h, risk_insert _ _ h⟩
    rw [effectiveCount_metrics, effectiveCount_metrics, distinctClusters_insert h]
  · rw [effectiveCount_metrics, effectiveCount_metrics, distinctClusters_perm hperm]

/-- An observation of one event. -/
def tierObservation (fillable : Bool) : ShadowObservation where
  initialScanId := "scan"
  opportunitySignature := "carry:BTC"
  survived := true
  pairFillable := some fillable
  pairFillableWithReserve := some fillable
  hedgeRecoveryRequired := none
  pairFillFraction := none
  unhedgedFraction := none
  partialFillState := none
  hedgeRecoveryLossProxyBps := none
  legAttribution := []

/-- A second tier of the event that could not be filled makes no figure of its one cluster
    better. -/
theorem metrics_correlated_twoTiers :
    NoBetter (metrics [tierObservation true, tierObservation false] 0.95)
      (metrics [tierObservation true] 0.95) := by
  have h : clusterKey (tierObservation false)
      ∈ ([tierObservation true] ++ []).map clusterKey := by decide
  exact (metrics_correlated 0.95 h).1

end InefficiencyEngine.Latency
