import InefficiencyEngine.Feedback.Diversification
import InefficiencyEngine.Portfolio.GreedyPlan

namespace InefficiencyEngine.Feedback

open Portfolio

/-!
# Ranking by capital velocity

`LaneSuccessQualifiedOpportunityAllocatorService.allocate_sync` lets the lane-success control scale
the candidates down, and runs the allocator over proxies of them whose expected return and profit
are made of the capital velocity.  Afterwards it restores the economics of each allocation by its
candidate id, and adds the restored values up.

The allocator ranks by the proxy values and passes them on, and reads them nowhere else: its run
over the proxies and the run over the adjusted candidates in the order of the proxies do the same
(`step_rankProxy`).  So the proxies decide about the order only (`allocateSync_ranksOnly`).
-/

/-! ### Candidates -/

/-- A candidate as the lane-success control reads it. -/
def laneCandidate (item : UnifiedPaperCandidate) : LaneCandidate UnifiedPaperCandidate where
  candidateId := item.candidateId
  family := some item.family.value
  strategy := item.strategy
  opportunityId := item.opportunityId
  asset := item.asset
  venues := item.venues
  exposureKind := item.exposureKind.value
  capitalRequiredUsd := item.capitalRequiredUsd
  modeledHoldingHours := item.modeledHoldingHours.map (fun hours => (hours : ℚ))
  expectedReturnOnReservedCapital := item.expectedReturnOnReservedCapital
  expectedProfitUsdPerDeployment := item.expectedProfitUsdPerDeployment
  sourceReturnMetric := item.sourceReturnMetric
  sourceReturnValue := item.sourceReturnValue
  rest := item

/-- The candidate with the economics that the lane-success control left it. -/
def LaneCandidate.toCandidate (lane : LaneCandidate UnifiedPaperCandidate) :
    UnifiedPaperCandidate :=
  { lane.rest with
    expectedReturnOnReservedCapital := lane.expectedReturnOnReservedCapital.toNNRat
    expectedProfitUsdPerDeployment := lane.expectedProfitUsdPerDeployment.toNNRat
    sourceReturnMetric := lane.sourceReturnMetric
    sourceReturnValue := lane.sourceReturnValue }

/-- A candidate whose evidence is stale, as the plan reports it. -/
structure StaleCandidate where
  candidateId : String
  family : String
  reason : String
  sourceObservedAt : Option Instant
  maxAgeSeconds : ℚ

/-- What `_active_candidates_with_diagnostics` and `_mechanism_proxy_candidates` return. -/
structure CandidateReads where
  bridgeCandidates : List UnifiedPaperCandidate
  failures : List FamilyFailure
  bridgeStale : List StaleCandidate
  mechanismCandidates : List UnifiedPaperCandidate
  mechanismStale : List StaleCandidate

/-- `candidates`. -/
def CandidateReads.candidates (reads : CandidateReads) : List UnifiedPaperCandidate :=
  reads.bridgeCandidates ++ reads.mechanismCandidates

/-- The ids of all candidates that were read. -/
def CandidateReads.ids (reads : CandidateReads) : List String :=
  (reads.bridgeStale ++ reads.mechanismStale).map StaleCandidate.candidateId
    ++ reads.candidates.map UnifiedPaperCandidate.candidateId

/-! ### The plan -/

/-- An entry of the plan's `skipped`. -/
inductive SkippedRow
  | stale (row : StaleCandidate)
  | lane (row : SkippedByLane)
  | plan (row : SkippedCandidate)

/-- `candidate_id` of an entry. -/
def SkippedRow.candidateId : SkippedRow → String
  | .stale row => row.candidateId
  | .lane row => row.about.1
  | .plan row => row.candidateId

/-- The plan that is returned: the allocator's own with other allocations and totals, its rank basis
    and what was skipped in all. -/
structure LaneSuccessPlan where
  rankBasis : String
  plan : UnifiedPaperAllocationPlan
  skipped : List SkippedRow

/-- `rank_basis`. -/
def laneSuccessRankBasis : String :=
  "lane_success_calibrated_expected_profit_per_reserved_capital_per_hour"

/-- `MECHANISM_IDS`. -/
def mechanismIds : List String :=
  ["yield", "liquidity_provision", "volatility", "liquidation_distress",
    "capital_location_settlement"]

/-- An allocation of a mechanism is one of the family `mechanism`. -/
def relabel (allocation : UnifiedPaperAllocation) : UnifiedPaperAllocation :=
  if allocation.opportunityId.any (· ∈ mechanismIds) then { allocation with family := "mechanism" }
  else allocation

/-- The economics of an allocation, restored from the adjusted candidate with its id. -/
def restore (economics : Dict String UnifiedPaperCandidate) (allocation : UnifiedPaperAllocation) :
    UnifiedPaperAllocation :=
  relabel (match economics.get? allocation.candidateId with
    | some source =>
      { allocation with
        expectedProfitUsdPerDeployment := source.expectedProfitUsdPerDeployment
        expectedReturnOnReservedCapital := source.expectedReturnOnReservedCapital
        sourceReturnMetric := source.sourceReturnMetric
        sourceReturnValue := source.sourceReturnValue }
    | none => allocation)

/-- `velocity`. -/
def decisionVelocity (decisionById : Dict String CandidateSuccessDecision)
    (item : UnifiedPaperCandidate) : ℚ≥0 :=
  (((decisionById.get? item.candidateId).map
    CandidateSuccessDecision.capitalVelocityScore).getD 0).toNNRat

/-- The proxy that a candidate is ranked by. -/
def rankProxy (velocity : ℚ≥0) (item : UnifiedPaperCandidate) : UnifiedPaperCandidate :=
  { item with
    expectedReturnOnReservedCapital := velocity
    expectedProfitUsdPerDeployment := (item.capitalRequiredUsd : ℚ).toNNRat * velocity }

/-- The plan with the economics of its allocations restored, and the totals of these. -/
def restoredPlan (economics : Dict String UnifiedPaperCandidate) (totalCapitalUsd : ℚ)
    (plan : UnifiedPaperAllocationPlan) : UnifiedPaperAllocationPlan :=
  let converted := plan.allocations.map (restore economics)
  { plan with
    expectedProfitUsdCurrentDeployments :=
      (converted.map UnifiedPaperAllocation.expectedProfitUsdPerDeployment).sum
    weightedExpectedReturnOnReservedCapital :=
      (converted.map (fun item =>
        item.capitalRequiredUsd * item.expectedReturnOnReservedCapital)).sum / totalCapitalUsd
    allocations := converted }

/-- `LaneSuccessQualifiedOpportunityAllocatorService.allocate_sync`. The candidates are adjusted
    by what their strategies have earned, thinned out by their shared factors, and ranked by
    their velocity before the plan is made. -/
def allocateSync (R : FeedbackRuntime) (history : List LaneOutcome) (settings : AllocatorSettings)
    (reads : CandidateReads) (currentRegime : String) (totalCapitalUsd : ℚ)
    (maxVenueFraction maxAssetFraction : Option ℚ) (maxAllocations : Option ℤ) (now : Instant) :
    Except Raised LaneSuccessPlan :=
  if totalCapitalUsd ≤ 0 then .error (.valueError "total_capital_usd must be positive")
  else
    let stale := (reads.bridgeStale ++ reads.mechanismStale).map SkippedRow.stale
    if reads.candidates.isEmpty then do
      let plan ← allocatePrequalifiedCandidates settings [] reads.failures totalCapitalUsd
        maxVenueFraction maxAssetFraction maxAllocations now
      return ⟨laneSuccessRankBasis, plan, stale ++ plan.skipped.map SkippedRow.plan⟩
    else do
      let (selected, laneSkipped, diagnostics) := adjustAndDiversify R history currentRegime
        (reads.candidates.map laneCandidate) (some currentRegime)
      let adjusted := selected.map LaneCandidate.toCandidate
      let economics := Dict.collect UnifiedPaperCandidate.candidateId adjusted
      let decisionById := Dict.collect CandidateSuccessDecision.candidateId
        (diagnostics.filter (·.candidateId ≠ ""))
      let rankProxies := adjusted.map
        (fun item => rankProxy (decisionVelocity decisionById item) item)
      let plan ← allocatePrequalifiedCandidates settings rankProxies reads.failures totalCapitalUsd
        maxVenueFraction maxAssetFraction maxAllocations now
      return ⟨laneSuccessRankBasis, restoredPlan economics totalCapitalUsd plan,
        stale ++ laneSkipped.map SkippedRow.lane ++ plan.skipped.map SkippedRow.plan⟩

/-! ### What the plan is meant to be -/

/-- The capital velocity of an adjusted candidate: its profit by capital and hour. -/
def capitalVelocity (item : UnifiedPaperCandidate) : ℚ :=
  item.expectedProfitUsdPerDeployment / (laneCandidate item).capital / (laneCandidate item).holding

/-- The velocity a candidate is ranked with; without an id it ranks as if it stood still. -/
def rankVelocity (item : UnifiedPaperCandidate) : ℚ :=
  if item.candidateId = "" then 0 else capitalVelocity item

/-- The candidates that the lane-success control selects, with their adjusted economics. -/
def adjustedCandidates (R : FeedbackRuntime) (history : List LaneOutcome) (reads : CandidateReads)
    (currentRegime : String) : List UnifiedPaperCandidate :=
  (adjustAndDiversify R history currentRegime (reads.candidates.map laneCandidate)
    (some currentRegime)).1.map LaneCandidate.toCandidate

/-- The greedy allocator over candidates in a given order. -/
def greedyPlan (settings : AllocatorSettings) (ordered : List UnifiedPaperCandidate)
    (failures : List FamilyFailure) (totalCapitalUsd : ℚ)
    (maxVenueFraction maxAssetFraction : Option ℚ) (maxAllocations : Option ℤ) (now : Instant) :
    Except Raised UnifiedPaperAllocationPlan := do
  let overlay ← PortfolioRiskOverlay.init settings totalCapitalUsd
  let final ← ordered.foldlM (AllocationState.step
    (planLimits settings totalCapitalUsd maxVenueFraction maxAssetFraction maxAllocations))
    (AllocationState.start overlay)
  return final.plan failures totalCapitalUsd now ordered.length

/-- **What the plan is meant to be.** The plan of the greedy allocator over the adjusted candidates
    by decreasing velocity, with their own economics throughout; every candidate is allocated or
    skipped; and the allocations are within the limits of the allocator, where a candidate takes
    its share of a venue once. -/
structure RanksOnly (adjusted : List UnifiedPaperCandidate) (reads : CandidateReads)
    (settings : AllocatorSettings) (totalCapitalUsd : ℚ)
    (maxVenueFraction maxAssetFraction : Option ℚ) (maxAllocations : Option ℤ) (now : Instant)
    (result : LaneSuccessPlan) : Prop where
  greedy : ∃ ordered plan, ordered.Perm adjusted
    ∧ ordered.Pairwise (fun a b => rankVelocity b ≤ rankVelocity a)
    ∧ greedyPlan settings ordered reads.failures totalCapitalUsd maxVenueFraction maxAssetFraction
      maxAllocations now = .ok plan
    ∧ result.plan = { plan with allocations := plan.allocations.map relabel }
  economics : ∀ allocation ∈ result.plan.allocations, ∃ item ∈ adjusted,
    allocation = relabel item.toAllocation
  profit : result.plan.expectedProfitUsdCurrentDeployments
    = (result.plan.allocations.map UnifiedPaperAllocation.expectedProfitUsdPerDeployment).sum
  weighted : result.plan.weightedExpectedReturnOnReservedCapital
    = (result.plan.allocations.map (fun item =>
      item.capitalRequiredUsd * item.expectedReturnOnReservedCapital)).sum / totalCapitalUsd
  split : (result.plan.allocations.map UnifiedPaperAllocation.candidateId
    ++ result.skipped.map SkippedRow.candidateId).Perm reads.ids
  limits : ∃ accepted : List UnifiedPaperCandidate,
    result.plan.allocations = accepted.map (fun item => relabel item.toAllocation)
      ∧ (accepted.length : ℤ) ≤ settings.allocationLimit maxAllocations
      ∧ FitsBudgets settings
        (planLimits settings totalCapitalUsd maxVenueFraction maxAssetFraction maxAllocations)
        accepted
      ∧ accepted.Pairwise KeysDisjoint

/-! ### One run over the proxies and over the candidates -/

/-- Two runs of the allocation loop that differ in the economics of their allocations only: one
    over candidates, some of which it accepted, and one over their proxies. -/
structure SameRun (velocity : UnifiedPaperCandidate → ℚ≥0)
    (seen accepted refused : List UnifiedPaperCandidate) (s s' : AllocationState) : Prop where
  split : (accepted ++ refused).Perm seen
  allocations : s.allocations = accepted.map UnifiedPaperCandidate.toAllocation
  skipped : s.skipped.map SkippedCandidate.candidateId
    = refused.map UnifiedPaperCandidate.candidateId
  proxies : s' = { s with
    allocations := accepted.map (fun item => (rankProxy (velocity item) item).toAllocation) }

section Run

variable {velocity : UnifiedPaperCandidate → ℚ≥0} {limits : AllocationLimits}
  {seen accepted refused : List UnifiedPaperCandidate} {s s' : AllocationState}

/-- The gates do not see the economics. -/
theorem SameRun.refusal (h : SameRun velocity seen accepted refused s s')
    (item : UnifiedPaperCandidate) :
    s'.refusal limits (rankProxy (velocity item) item) = s.refusal limits item := by
  have hlength : s'.allocations.length = s.allocations.length := by
    rw [h.proxies, h.allocations, List.length_map, List.length_map]
  obtain ⟨-, -, -, rfl⟩ := h
  unfold AllocationState.refusal
  rw [hlength]
  rfl

/-- A refused candidate and its proxy are skipped alike. -/
theorem SameRun.skip (h : SameRun velocity seen accepted refused s s')
    (item : UnifiedPaperCandidate) (overlay : PortfolioRiskOverlay) (reason : String) :
    SameRun velocity (seen ++ [item]) accepted (refused ++ [item]) (s.skip item overlay reason)
      (s'.skip (rankProxy (velocity item) item) overlay reason) where
  split := by
    rw [← List.append_assoc]
    exact h.split.append_right [item]
  allocations := h.allocations
  skipped := by
    show (s.skipped ++ [_]).map SkippedCandidate.candidateId = _
    rw [List.map_append, h.skipped, List.map_append]
    rfl
  proxies := by
    obtain ⟨-, -, -, rfl⟩ := h
    rfl

/-- An accepted candidate and its proxy are charged alike. -/
theorem SameRun.accept (h : SameRun velocity seen accepted refused s s')
    (item : UnifiedPaperCandidate) (overlay : PortfolioRiskOverlay) :
    SameRun velocity (seen ++ [item]) (accepted ++ [item]) refused (s.accept item overlay)
      (s'.accept (rankProxy (velocity item) item) overlay) where
  split := by
    calc ((accepted ++ [item]) ++ refused).Perm ((accepted ++ refused) ++ [item]) := by
          rw [List.append_assoc, List.append_assoc]
          exact List.perm_append_comm.append_left accepted
      _ |>.Perm (seen ++ [item]) := h.split.append_right [item]
  allocations := by
    show s.allocations ++ [item.toAllocation] = _
    rw [h.allocations, List.map_append, List.map_singleton]
  skipped := h.skipped
  proxies := by
    obtain ⟨-, -, -, rfl⟩ := h
    rw [List.map_append, List.map_singleton]
    rfl

/-- **Step lemma.** No iteration raises, and the proxy fares like the candidate. -/
theorem step_rankProxy (h : SameRun velocity seen accepted refused s s')
    (item : UnifiedPaperCandidate) :
    ∃ t t', s.step limits item = .ok t
      ∧ s'.step limits (rankProxy (velocity item) item) = .ok t'
      ∧ ∃ accepted refused, SameRun velocity (seen ++ [item]) accepted refused t t' := by
  have hoverlay : s'.overlay = s.overlay := by rw [h.proxies]
  unfold AllocationState.step
  rw [h.refusal, hoverlay]
  cases s.refusal limits item with
  | some reason => exact ⟨_, _, rfl, rfl, accepted, refused ++ [item], h.skip item _ reason⟩
  | none =>
    have hdecision : (s.overlay.decision (rankProxy (velocity item) item)).accepted
        = (s.overlay.decision item).accepted := rfl
    have hreason : (s.overlay.decision (rankProxy (velocity item) item)).reason
        = (s.overlay.decision item).reason := rfl
    have hafter : s.overlay.afterDecision (rankProxy (velocity item) item)
        = s.overlay.afterDecision item := rfl
    have hregister : ∀ overlay : PortfolioRiskOverlay,
        overlay.register (rankProxy (velocity item) item) = overlay.register item := fun _ => rfl
    simp only [hdecision, hreason, hafter, hregister]
    by_cases haccepted : (s.overlay.decision item).accepted = true
    · rw [if_pos haccepted, if_pos haccepted]
      simp only [s.overlay.register_of_accepted item haccepted]
      exact ⟨_, _, rfl, rfl, accepted ++ [item], refused, h.accept item _⟩
    · rw [if_neg haccepted, if_neg haccepted]
      exact ⟨_, _, rfl, rfl, accepted, refused ++ [item], h.skip item _ _⟩

/-- **Run lemma.** The allocation loop over the proxies and over the candidates. -/
theorem run_rankProxy (velocity : UnifiedPaperCandidate → ℚ≥0) (limits : AllocationLimits)
    (overlay : PortfolioRiskOverlay) (ordered : List UnifiedPaperCandidate) :
    ∃ final final', ordered.foldlM (AllocationState.step limits) (AllocationState.start overlay)
        = .ok final
      ∧ (ordered.map (fun item => rankProxy (velocity item) item)).foldlM
          (AllocationState.step limits) (AllocationState.start overlay)
        = .ok final'
      ∧ ∃ accepted refused, SameRun velocity ordered accepted refused final final' := by
  refine foldlM_lockstep (P := fun seen s s' => ∃ accepted refused,
    SameRun velocity seen accepted refused s s') ?_ ordered ?_
  · rintro seen s s' item ⟨accepted, refused, h⟩
    exact step_rankProxy h item
  · exact ⟨[], [], List.Perm.refl _, rfl, rfl, rfl⟩

end Run

/-! ### Within the limits -/

/-- What the loop maintains of the accepted candidates: they are within the limits, and each has
    been charged to its venues at least once. -/
structure WithinLimits (settings : AllocatorSettings) (limits : AllocationLimits)
    (accepted : List UnifiedPaperCandidate) (s : AllocationState) : Prop where
  charged : ∃ spent : Dict String ℚ, Tallies settings limits accepted { s with venueUsed := spent }
    ∧ ∀ venue, (spent.get? venue).getD 0 ≤ (s.venueUsed.get? venue).getD 0
  count : (accepted.length : ℤ) ≤ limits.allocationLimit
  fits : FitsBudgets settings limits accepted
  disjoint : accepted.Pairwise KeysDisjoint

section Limits

variable {settings : AllocatorSettings} {limits : AllocationLimits}
  {accepted : List UnifiedPaperCandidate} {s : AllocationState}

/-- What the gates let pass they let pass when less is charged to the venues. -/
theorem refusal_eq_none_of_le {item : UnifiedPaperCandidate} {spent : Dict String ℚ}
    (hle : ∀ venue, (spent.get? venue).getD 0 ≤ (s.venueUsed.get? venue).getD 0)
    (h : s.refusal limits item = none) :
    AllocationState.refusal limits { s with venueUsed := spent } item = none := by
  unfold AllocationState.refusal at h ⊢
  dsimp only at h ⊢
  split_ifs at h with hcount hkey htotal hvenue hasset
  rw [if_neg hcount, if_neg hkey, if_neg htotal, if_neg ?_, if_neg hasset]
  rintro ⟨venue, hmem, hover⟩
  exact hvenue ⟨venue, hmem, lt_of_lt_of_le hover (add_le_add_left (hle venue) _)⟩

/-- Charging every listed venue charges each venue at least once. -/
theorem getD_charged_le (item : UnifiedPaperCandidate) {spent used : Dict String ℚ}
    (hle : ∀ venue, (spent.get? venue).getD 0 ≤ (used.get? venue).getD 0) (venue : String) :
    ((item.venues.dedup.foldl (fun d v => d.add v (venueShare item)) spent).get? venue).getD 0
      ≤ ((item.venues.foldl (fun d v => d.add v (venueShare item)) used).get? venue).getD 0 := by
  rw [Dict.getD_get?_foldl_add_count, Dict.getD_get?_foldl_add_count]
  have hcount : item.venues.dedup.count venue ≤ item.venues.count venue :=
    (List.dedup_sublist item.venues).count_le venue
  exact add_le_add (hle venue) (nsmul_le_nsmul_left (venueShare_nonneg item) hcount)

/-- **Step lemma.** An iteration does not raise, and what is accepted stays within the limits.
    This is the step of the greedy allocator for candidates that may list a venue twice, which
    are charged one share for each venue and not for each mention. -/
theorem WithinLimits.step (h : WithinLimits settings limits accepted s)
    (item : UnifiedPaperCandidate) :
    ∃ s', s.step limits item = .ok s' ∧ ∃ accepted, WithinLimits settings limits accepted s' := by
  obtain ⟨spent, htallies, hle⟩ := h.charged
  unfold AllocationState.step
  cases hrefusal : s.refusal limits item with
  -- refused or rejected: only the skipped list and the decisions grow
  | some reason =>
    exact ⟨_, rfl, accepted, { h with charged := ⟨spent, htallies.skip item reason, hle⟩ }⟩
  | none =>
    cases hrejection : s.overlay.rejection item with
    | some reason =>
      have hdecision : s.overlay.decision item = ⟨item.candidateId, false, some reason⟩ := by
        rw [PortfolioRiskOverlay.decision, hrejection]
      simp only [hdecision, Bool.false_eq_true, if_false]
      exact ⟨_, rfl, accepted,
        { h with charged := ⟨spent, (htallies.afterDecision item).skip item _, hle⟩ }⟩
    -- accepted: the share of each of its venues is charged once
    | none =>
      have haccepted : (s.overlay.decision item).accepted = true := by
        rw [PortfolioRiskOverlay.decision, hrejection]
      simp only [haccepted, if_true, s.overlay.register_of_accepted item haccepted]
      have hrefusal' := refusal_eq_none_of_le hle hrefusal
      obtain ⟨hcount, hkeys, -⟩ := htallies.of_refusal_none hrefusal'
      refine ⟨_, rfl, accepted ++ [item], ?_⟩
      refine
        { charged := ⟨item.venues.dedup.foldl (fun d v => d.add v (venueShare item)) spent,
            ((htallies.afterDecision item).afterDecision item).acceptWith item ?_,
            getD_charged_le item hle⟩
          count := ?_
          fits := htallies.fits h.fits hrefusal' hrejection
          disjoint := ?_ }
      · intro venue
        rw [Dict.getD_get?_foldl_add (List.nodup_dedup _), htallies.venue, load_snoc,
          Budget.weight]
        simp only [List.mem_dedup]
      · rw [List.length_append, List.length_singleton]
        push_cast
        omega
      · refine List.pairwise_append.mpr ⟨h.disjoint, List.pairwise_singleton _ item, ?_⟩
        intro other hother last hlast
        rw [List.mem_singleton.mp hlast]
        exact hkeys other hother

end Limits

/-! ### The requests the allocator takes -/

section Request

variable {settings : AllocatorSettings} {totalCapitalUsd : ℚ}
  {maxVenueFraction maxAssetFraction : Option ℚ} {maxAllocations : Option ℤ}
  {candidates : List UnifiedPaperCandidate} {failures : List FamilyFailure} {now : Instant}

/-- A valid request gets the plan of the greedy allocator over the ranked candidates. -/
theorem allocatePrequalifiedCandidates_eq
    (h : ValidRequest settings totalCapitalUsd maxVenueFraction maxAssetFraction maxAllocations) :
    allocatePrequalifiedCandidates settings candidates failures totalCapitalUsd maxVenueFraction
        maxAssetFraction maxAllocations now
      = greedyPlan settings (candidates.insertionSort ranksBefore) failures totalCapitalUsd
        maxVenueFraction maxAssetFraction maxAllocations now := by
  have hconstraints : ¬ (¬ validFraction (orDefault maxVenueFraction
        settings.allocatorMaxVenueFraction) = true
        ∨ ¬ validFraction (orDefault maxAssetFraction settings.allocatorMaxAssetFraction) = true
        ∨ settings.allocationLimit maxAllocations ≤ 0) := by
    rintro (hvenue | hasset | hcount)
    · exact hvenue h.venue
    · exact hasset h.asset
    · exact absurd h.count (not_lt.mpr hcount)
  unfold allocatePrequalifiedCandidates
  rw [if_neg (not_le.mpr h.total)]
  dsimp only
  rw [if_neg hconstraints]
  rfl

theorem validFraction_of_checkFraction {name : String} {fraction : ℚ} {u : Unit}
    (h : PortfolioRiskOverlay.checkFraction name fraction = .ok u) :
    validFraction fraction = true := by
  unfold PortfolioRiskOverlay.checkFraction at h
  split at h
  · rename_i hvalid
    exact decide_eq_true hvalid
  · cases h

/-- Only a valid request gets a plan. -/
theorem validRequest_of_ok {plan : UnifiedPaperAllocationPlan}
    (h : allocatePrequalifiedCandidates settings candidates failures totalCapitalUsd
      maxVenueFraction maxAssetFraction maxAllocations now = .ok plan) :
    ValidRequest settings totalCapitalUsd maxVenueFraction maxAssetFraction maxAllocations := by
  unfold allocatePrequalifiedCandidates at h
  simp only at h
  split at h
  · cases h
  rename_i htotal
  split at h
  · cases h
  rename_i hconstraints
  push Not at hconstraints
  obtain ⟨hvenue, hasset, hcount⟩ := hconstraints
  obtain ⟨overlay, hinit, -⟩ := bind_eq_ok h
  unfold PortfolioRiskOverlay.init at hinit
  rw [if_neg htotal] at hinit
  obtain ⟨_, halpha, hinit⟩ := bind_eq_ok hinit
  obtain ⟨_, hdirectional, hinit⟩ := bind_eq_ok hinit
  obtain ⟨_, hsame, hinit⟩ := bind_eq_ok hinit
  obtain ⟨_, hstrategy, -⟩ := bind_eq_ok hinit
  exact ⟨not_le.mp htotal, hvenue, hasset, hcount, validFraction_of_checkFraction halpha,
    validFraction_of_checkFraction hdirectional, validFraction_of_checkFraction hsame,
    validFraction_of_checkFraction hstrategy⟩

end Request

/-! ### The order of the proxies -/

instance : Std.Total ranksBefore where
  total a b := by
    rcases lt_trichotomy a.expectedReturnOnReservedCapital b.expectedReturnOnReservedCapital with
      hlt | heq | hgt
    · exact Or.inr (Or.inl hlt)
    · rcases lt_trichotomy a.expectedProfitUsdPerDeployment b.expectedProfitUsdPerDeployment with
        hlt | heq' | hgt
      · exact Or.inr (Or.inr ⟨heq, Or.inl hlt⟩)
      · rcases le_total a.capitalRequiredUsd b.capitalRequiredUsd with hle | hge
        · exact Or.inl (Or.inr ⟨heq.symm, Or.inr ⟨heq'.symm, hle⟩⟩)
        · exact Or.inr (Or.inr ⟨heq, Or.inr ⟨heq', hge⟩⟩)
      · exact Or.inl (Or.inr ⟨heq.symm, Or.inl hgt⟩)
    · exact Or.inl (Or.inl hgt)

instance : IsTrans UnifiedPaperCandidate ranksBefore where
  trans a b c hab hbc := by
    rcases hab with hab | ⟨he, hab | ⟨he', hab⟩⟩ <;> rcases hbc with hbc | ⟨hf, hbc | ⟨hf', hbc⟩⟩
    · exact Or.inl (hbc.trans hab)
    · exact Or.inl (hf.trans_lt hab)
    · exact Or.inl (hf.trans_lt hab)
    · exact Or.inl (hbc.trans_eq he)
    · exact Or.inr ⟨hf.trans he, Or.inl (hbc.trans hab)⟩
    · exact Or.inr ⟨hf.trans he, Or.inl (hf'.trans_lt hab)⟩
    · exact Or.inl (hbc.trans_eq he)
    · exact Or.inr ⟨hf.trans he, Or.inl (hbc.trans_eq he')⟩
    · exact Or.inr ⟨hf.trans he, Or.inr ⟨hf'.trans he', hab.trans hbc⟩⟩

/-- The proxies are ranked by the velocity. -/
theorem exists_ordered (velocity : UnifiedPaperCandidate → ℚ≥0)
    (adjusted : List UnifiedPaperCandidate) :
    ∃ ordered : List UnifiedPaperCandidate, ordered.Perm adjusted
      ∧ (adjusted.map (fun item => rankProxy (velocity item) item)).insertionSort ranksBefore
        = ordered.map (fun item => rankProxy (velocity item) item)
      ∧ ordered.Pairwise (fun a b => velocity b ≤ velocity a) := by
  have hsorted := List.map_insertionSort
    (fun a b => ranksBefore (rankProxy (velocity a) a) (rankProxy (velocity b) b)) ranksBefore
    (fun item => rankProxy (velocity item) item) adjusted (fun _ _ _ _ => Iff.rfl)
  refine ⟨_, List.perm_insertionSort _ adjusted, hsorted.symm, ?_⟩
  have hpairwise := List.pairwise_insertionSort ranksBefore
    (adjusted.map (fun item => rankProxy (velocity item) item))
  rw [← hsorted, List.pairwise_map] at hpairwise
  refine hpairwise.imp (fun h => ?_)
  rcases h with hlt | ⟨heq, -⟩
  · exact le_of_lt hlt
  · exact le_of_eq heq

/-! ### What is restored -/

/-- Of adjusted candidates with distinct ids each gets its economics back. -/
theorem restore_toAllocation {adjusted : List UnifiedPaperCandidate}
    (hdistinct : (adjusted.map UnifiedPaperCandidate.candidateId).Nodup)
    {item : UnifiedPaperCandidate} (hitem : item ∈ adjusted) (velocity : ℚ≥0) :
    restore (Dict.collect UnifiedPaperCandidate.candidateId adjusted)
        (rankProxy velocity item).toAllocation
      = relabel item.toAllocation := by
  have hfound : (Dict.collect UnifiedPaperCandidate.candidateId adjusted).get?
      (rankProxy velocity item).toAllocation.candidateId = some item :=
    Dict.get?_collect_of_nodup hdistinct hitem
  unfold restore
  rw [hfound]
  rfl

/-- Only the family of an allocation may be another one afterwards. -/
theorem relabel_economics (allocation : UnifiedPaperAllocation) :
    (relabel allocation).candidateId = allocation.candidateId
      ∧ (relabel allocation).capitalRequiredUsd = allocation.capitalRequiredUsd
      ∧ (relabel allocation).expectedProfitUsdPerDeployment
        = allocation.expectedProfitUsdPerDeployment
      ∧ (relabel allocation).expectedReturnOnReservedCapital
        = allocation.expectedReturnOnReservedCapital := by
  unfold relabel
  split <;> exact ⟨rfl, rfl, rfl, rfl⟩

/-! ### The adjusted candidates -/

section Adjusted

variable {R : FeedbackRuntime} {history : List LaneOutcome} {regime : String}

/-- An adjusted candidate keeps its id and has the velocity of its decision. -/
theorem toCandidate_of_adjustedFrom {item : UnifiedPaperCandidate}
    {entry : AdjustedCandidate UnifiedPaperCandidate}
    (h : AdjustedFrom R history regime (laneCandidate item) entry) :
    entry.candidate.toCandidate.candidateId = item.candidateId
      ∧ capitalVelocity entry.candidate.toCandidate
        = (candidateDecision R history (laneCandidate item) regime).capitalVelocityScore
      ∧ 0 ≤ capitalVelocity entry.candidate.toCandidate := by
  obtain ⟨updated, hupdated, rfl⟩ := Option.map_eq_some_iff.mp h
  change (if _ then none else some _) = some updated at hupdated
  split at hupdated
  · cases hupdated
  rename_i haccepted
  obtain rfl := Option.some.inj hupdated
  -- what was accepted has a positive adjusted return
  have hreturn : 0 ≤ adjustedReturn R history (laneCandidate item) regime := by
    rw [Bool.not_eq_false] at haccepted
    exact (of_decide_eq_true haccepted).1.le
  -- the capital and the holding time are clamped away from zero
  have hcapital : 0 < (laneCandidate item).capital := lt_max_of_lt_left (by norm_num)
  have hholding : 0 < (laneCandidate item).holding := lt_max_of_lt_left (by norm_num)
  have hprofit : 0 ≤ adjustedProfit R history (laneCandidate item) regime :=
    le_min (le_max_left _ _) (mul_nonneg hcapital.le hreturn)
  -- the profit is not negative, so the cast of the request does not change it
  have hvelocity : (((adjustedProfit R history (laneCandidate item) regime).toNNRat : ℚ≥0) : ℚ)
      / (laneCandidate item).capital / (laneCandidate item).holding
      = adjustedProfit R history (laneCandidate item) regime / (laneCandidate item).capital
        / (laneCandidate item).holding := by
    rw [Rat.coe_toNNRat _ hprofit]
  refine ⟨rfl, hvelocity, ?_⟩
  refine le_of_le_of_eq ?_ hvelocity.symm
  exact div_nonneg (div_nonneg hprofit hcapital.le) hholding.le

variable (R history regime)

/-- The decisions on the candidates, one for each. -/
def decisions (candidates : List UnifiedPaperCandidate) : List CandidateSuccessDecision :=
  candidates.map (fun item => candidateDecision R history (laneCandidate item) regime)

/-- **The lane-success control on the candidates that were read.** Every candidate read is kept
    and adjusted or named among the skipped, and the velocity of an adjusted one is the score
    its decision gave it. -/
theorem adjustedCandidates_spec (reads : CandidateReads) :
    ((adjustedCandidates R history reads regime).map UnifiedPaperCandidate.candidateId
        ++ (adjustAndDiversify R history regime (reads.candidates.map laneCandidate)
          (some regime)).2.1.map (fun row => row.about.1)).Perm
        (reads.candidates.map UnifiedPaperCandidate.candidateId)
      ∧ (adjustAndDiversify R history regime (reads.candidates.map laneCandidate)
        (some regime)).2.2 = decisions R history regime reads.candidates
      ∧ ∀ adjusted ∈ adjustedCandidates R history reads regime, ∃ item ∈ reads.candidates,
        adjusted.candidateId = item.candidateId
          ∧ capitalVelocity adjusted
            = (candidateDecision R history (laneCandidate item) regime).capitalVelocityScore
          ∧ 0 ≤ capitalVelocity adjusted := by
  have hcurrent : ((some regime).filter (fun text => text ≠ "")).getD regime = regime := by
    by_cases hempty : regime = "" <;> simp [Option.filter, hempty]
  obtain ⟨kept, lost, entries, hperm, hkept, hselected, hlost, -⟩ :=
    adjustAndDiversify_split R history regime (reads.candidates.map laneCandidate) (some regime)
  rw [hcurrent] at hkept
  have hadjusted : adjustedCandidates R history reads regime
      = entries.map (fun entry => entry.candidate.toCandidate) := by
    rw [adjustedCandidates, hselected, List.map_map]
    rfl
  -- each entry is that of a candidate that was read
  have hentries : List.Forall₂ (fun lane entry => ∃ item ∈ reads.candidates,
      laneCandidate item = lane ∧ AdjustedFrom R history regime (laneCandidate item) entry)
      kept entries := by
    have hread : ∀ lane ∈ kept, ∃ item ∈ reads.candidates, laneCandidate item = lane :=
      fun lane hlane => List.mem_map.mp (hperm.mem_iff.mpr (List.mem_append_left _ hlane))
    refine ((List.forall₂_and_left kept entries).mpr ⟨hread, hkept⟩).imp ?_
    rintro lane entry ⟨⟨item, hitem, rfl⟩, hentry⟩
    exact ⟨item, hitem, rfl, hentry⟩
  have hkeptIds : (adjustedCandidates R history reads regime).map
      UnifiedPaperCandidate.candidateId = kept.map LaneCandidate.candidateId := by
    rw [hadjusted, List.map_map]
    clear hadjusted hselected hperm hkept
    induction hentries with
    | nil => rfl
    | cons hentry _ ih =>
      obtain ⟨item, -, rfl, hentry⟩ := hentry
      rw [List.map_cons, List.map_cons, ih]
      exact congrArg (· :: _) (toCandidate_of_adjustedFrom hentry).1
  -- each candidate lost is named once, in its order
  have hlostIds : (adjustAndDiversify R history regime (reads.candidates.map laneCandidate)
      (some regime)).2.1.map (fun row => row.about.1) = lost.map LaneCandidate.candidateId := by
    generalize (adjustAndDiversify R history regime (reads.candidates.map laneCandidate)
      (some regime)).2.1 = skipped at hlost
    clear hperm
    induction hlost with
    | nil => rfl
    | cons hskipped _ ih => rw [List.map_cons, List.map_cons, ih, hskipped]
  refine ⟨?_, ?_, ?_⟩
  · rw [hkeptIds, hlostIds, ← List.map_append]
    have hids := (hperm.map LaneCandidate.candidateId).symm
    rwa [List.map_map] at hids
  · show (reads.candidates.map laneCandidate).map _ = _
    rw [List.map_map, hcurrent]
    rfl
  · intro adjusted hmem
    rw [hadjusted] at hmem
    obtain ⟨entry, hentry, rfl⟩ := List.mem_map.mp hmem
    clear hadjusted hselected hkeptIds hperm hkept hmem
    induction hentries with
    | nil => cases hentry
    | cons hfirst _ ih =>
      rcases List.mem_cons.mp hentry with rfl | hrest
      · obtain ⟨item, hitem, -, hfrom⟩ := hfirst
        exact ⟨item, hitem, toCandidate_of_adjustedFrom hfrom⟩
      · exact ih hrest

/-- **Velocities.** The velocity that a proxy is made of is that of its candidate. -/
theorem coe_decisionVelocity {reads : CandidateReads}
    (hdistinct : (reads.candidates.map UnifiedPaperCandidate.candidateId).Nodup)
    {adjusted : UnifiedPaperCandidate}
    (hadjusted : adjusted ∈ adjustedCandidates R history reads regime) :
    (decisionVelocity (Dict.collect CandidateSuccessDecision.candidateId
      ((decisions R history regime reads.candidates).filter (·.candidateId ≠ ""))) adjusted : ℚ)
      = rankVelocity adjusted := by
  obtain ⟨-, -, hspec⟩ := adjustedCandidates_spec R history regime reads
  obtain ⟨item, hitem, hid, hvelocity, hnonneg⟩ := hspec adjusted hadjusted
  unfold decisionVelocity rankVelocity
  by_cases hempty : adjusted.candidateId = ""
  · -- the decisions without an id are left out
    have hnone : (Dict.collect CandidateSuccessDecision.candidateId
        ((decisions R history regime reads.candidates).filter (·.candidateId ≠ ""))).get?
        adjusted.candidateId = none := by
      cases hfound : (Dict.collect CandidateSuccessDecision.candidateId
          ((decisions R history regime reads.candidates).filter (·.candidateId ≠ ""))).get?
          adjusted.candidateId with
      | none => rfl
      | some decision =>
        obtain ⟨hmem, hkey⟩ := Dict.mem_of_get?_collect hfound
        rw [hempty] at hkey
        exact absurd hkey (by simpa using (List.mem_filter.mp hmem).2)
    rw [hnone, if_pos hempty]
    rfl
  · have hkeys : (decisions R history regime reads.candidates).map
        CandidateSuccessDecision.candidateId
        = reads.candidates.map UnifiedPaperCandidate.candidateId := by
      rw [decisions, List.map_map]
      rfl
    have hmem : candidateDecision R history (laneCandidate item) regime
        ∈ (decisions R history regime reads.candidates).filter (·.candidateId ≠ "") := by
      refine List.mem_filter.mpr ⟨List.mem_map_of_mem hitem, decide_eq_true ?_⟩
      show item.candidateId ≠ ""
      rwa [← hid]
    have hfound : (Dict.collect CandidateSuccessDecision.candidateId
        ((decisions R history regime reads.candidates).filter (·.candidateId ≠ ""))).get?
        item.candidateId = some (candidateDecision R history (laneCandidate item) regime) := by
      refine Dict.get?_collect_of_nodup ?_ hmem
      exact List.Nodup.sublist (List.filter_sublist.map _) (hkeys ▸ hdistinct)
    rw [if_neg hempty, hid, hfound, hvelocity]
    rw [hvelocity] at hnonneg
    exact Rat.coe_toNNRat _ hnonneg

end Adjusted

/-! ### The whole run -/

section Whole

variable {settings : AllocatorSettings} {totalCapitalUsd : ℚ}
  {maxVenueFraction maxAssetFraction : Option ℚ} {maxAllocations : Option ℤ}
  {failures : List FamilyFailure} {now : Instant}

/-- A finished loop makes the plan. -/
theorem greedyPlan_eq {ordered : List UnifiedPaperCandidate} {overlay : PortfolioRiskOverlay}
    {final : AllocationState}
    (hoverlay : PortfolioRiskOverlay.init settings totalCapitalUsd = .ok overlay)
    (hfinal : ordered.foldlM (AllocationState.step
      (planLimits settings totalCapitalUsd maxVenueFraction maxAssetFraction maxAllocations))
      (AllocationState.start overlay) = .ok final) :
    greedyPlan settings ordered failures totalCapitalUsd maxVenueFraction maxAssetFraction
        maxAllocations now
      = .ok (final.plan failures totalCapitalUsd now ordered.length) := by
  unfold greedyPlan
  rw [hoverlay]
  show (ordered.foldlM (AllocationState.step (planLimits settings totalCapitalUsd maxVenueFraction
    maxAssetFraction maxAllocations)) (AllocationState.start overlay) >>= fun final =>
      Except.ok (final.plan failures totalCapitalUsd now ordered.length)) = _
  rw [hfinal]
  rfl

/-- What a valid request accepts is within the limits. -/
theorem within_of_foldlM
    (h : ValidRequest settings totalCapitalUsd maxVenueFraction maxAssetFraction maxAllocations)
    {ordered : List UnifiedPaperCandidate} {overlay : PortfolioRiskOverlay}
    {final : AllocationState}
    (hoverlay : PortfolioRiskOverlay.init settings totalCapitalUsd = .ok overlay)
    (hfinal : ordered.foldlM (AllocationState.step
      (planLimits settings totalCapitalUsd maxVenueFraction maxAssetFraction maxAllocations))
      (AllocationState.start overlay) = .ok final) :
    ∃ accepted, WithinLimits settings
      (planLimits settings totalCapitalUsd maxVenueFraction maxAssetFraction maxAllocations)
      accepted final := by
  obtain ⟨overlay', hoverlay', htallies⟩ := h.init
  obtain rfl : overlay = overlay' := Except.ok.inj (hoverlay.symm.trans hoverlay')
  -- at the start nothing is accepted, and no budget is negative
  have hstart : WithinLimits settings
      (planLimits settings totalCapitalUsd maxVenueFraction maxAssetFraction maxAllocations)
      [] (AllocationState.start overlay) :=
    { charged := ⟨_, htallies, fun _ => le_rfl⟩
      count := h.count.le
      fits := fun budget => add_nonneg (h.cap_nonneg budget) (by norm_num [budgetTolerance])
      disjoint := List.Pairwise.nil }
  obtain ⟨final', hfinal', hwithin⟩ := foldlM_total
    (P := fun _ s => ∃ accepted, WithinLimits settings (planLimits settings totalCapitalUsd
      maxVenueFraction maxAssetFraction maxAllocations) accepted s)
    (fun _ _ item (_ : item ∈ ordered) hs => hs.elim fun _ hs => hs.step item)
    ⟨[], hstart⟩
  obtain rfl : final' = final := Except.ok.inj (hfinal'.symm.trans hfinal)
  -- every item keeps the limits, so the accepted ones of the whole fold do
  exact hwithin

/-- Restoring the allocations of the proxies gives those of the candidates. -/
theorem map_restore {velocity : UnifiedPaperCandidate → ℚ≥0}
    {adjusted accepted : List UnifiedPaperCandidate}
    (hdistinct : (adjusted.map UnifiedPaperCandidate.candidateId).Nodup)
    (haccepted : ∀ item ∈ accepted, item ∈ adjusted) :
    (accepted.map (fun item => (rankProxy (velocity item) item).toAllocation)).map
        (restore (Dict.collect UnifiedPaperCandidate.candidateId adjusted))
      = accepted.map (fun item => relabel item.toAllocation) := by
  rw [List.map_map]
  exact List.map_congr_left
    (fun item hitem => restore_toAllocation hdistinct (haccepted item hitem) _)

/-- The families of the allocations do not enter their profit. -/
theorem sum_profit_relabel (allocations : List UnifiedPaperAllocation) :
    ((allocations.map relabel).map UnifiedPaperAllocation.expectedProfitUsdPerDeployment).sum
      = (allocations.map UnifiedPaperAllocation.expectedProfitUsdPerDeployment).sum := by
  rw [List.map_map]
  exact congrArg List.sum (List.map_congr_left (fun a _ => (relabel_economics a).2.2.1))

/-- Nor do they enter their weighted return. -/
theorem sum_weighted_relabel (allocations : List UnifiedPaperAllocation) :
    ((allocations.map relabel).map (fun item =>
      item.capitalRequiredUsd * item.expectedReturnOnReservedCapital)).sum
      = (allocations.map (fun item =>
        item.capitalRequiredUsd * item.expectedReturnOnReservedCapital)).sum := by
  rw [List.map_map]
  refine congrArg List.sum (List.map_congr_left (fun a _ => ?_))
  rw [Function.comp_apply, (relabel_economics a).2.1, (relabel_economics a).2.2.2]

section Restored

variable {velocity : UnifiedPaperCandidate → ℚ≥0}
  {adjusted ordered accepted refused : List UnifiedPaperCandidate} {final final' : AllocationState}

/-- The restored plan of the run over the proxies is that of the run over the candidates, but for
    the families. -/
theorem SameRun.restoredPlan_eq (h : SameRun velocity ordered accepted refused final final')
    (hdistinct : (adjusted.map UnifiedPaperCandidate.candidateId).Nodup)
    (haccepted : ∀ item ∈ accepted, item ∈ adjusted) (failures : List FamilyFailure)
    (totalCapitalUsd : ℚ) (now : Instant) (count : ℕ) :
    restoredPlan (Dict.collect UnifiedPaperCandidate.candidateId adjusted) totalCapitalUsd
        (final'.plan failures totalCapitalUsd now count)
      = { final.plan failures totalCapitalUsd now count with
          allocations := final.allocations.map relabel } := by
  have hconverted : (final'.plan failures totalCapitalUsd now count).allocations.map
      (restore (Dict.collect UnifiedPaperCandidate.candidateId adjusted))
      = final.allocations.map relabel := by
    rw [h.proxies, h.allocations, List.map_map]
    exact map_restore hdistinct haccepted
  unfold restoredPlan
  dsimp only
  rw [hconverted, sum_profit_relabel, sum_weighted_relabel, h.proxies]
  rfl

/-- The ids of the restored allocations are those of the accepted candidates. -/
theorem SameRun.map_candidateId (h : SameRun velocity ordered accepted refused final final') :
    (final.allocations.map relabel).map UnifiedPaperAllocation.candidateId
      = accepted.map UnifiedPaperCandidate.candidateId := by
  rw [h.allocations, List.map_map, List.map_map]
  exact List.map_congr_left (fun item _ => (relabel_economics item.toAllocation).1)

/-- Every candidate read is among the allocations or is skipped, each once. -/
theorem SameRun.split_ids (h : SameRun velocity ordered accepted refused final final')
    (hperm : ordered.Perm adjusted) {reads : CandidateReads} {laneSkipped : List SkippedByLane}
    (hsplit : (adjusted.map UnifiedPaperCandidate.candidateId
      ++ laneSkipped.map (fun row => row.about.1)).Perm
        (reads.candidates.map UnifiedPaperCandidate.candidateId)) :
    ((final.allocations.map relabel).map UnifiedPaperAllocation.candidateId
      ++ ((reads.bridgeStale ++ reads.mechanismStale).map SkippedRow.stale
        ++ laneSkipped.map SkippedRow.lane
        ++ final.skipped.map SkippedRow.plan).map SkippedRow.candidateId).Perm reads.ids := by
  have hrows : ((reads.bridgeStale ++ reads.mechanismStale).map SkippedRow.stale
      ++ laneSkipped.map SkippedRow.lane ++ final.skipped.map SkippedRow.plan).map
        SkippedRow.candidateId
      = (reads.bridgeStale ++ reads.mechanismStale).map StaleCandidate.candidateId
        ++ laneSkipped.map (fun row => row.about.1)
        ++ refused.map UnifiedPaperCandidate.candidateId := by
    rw [List.map_append, List.map_append, List.map_map, List.map_map, List.map_map, ← h.skipped]
    rfl
  have htaken := (h.split.trans hperm).map UnifiedPaperCandidate.candidateId
  rw [h.map_candidateId, hrows, CandidateReads.ids]
  -- both sides hold the same ids, each as often
  refine List.perm_iff_count.mpr (fun id => ?_)
  have hcount := htaken.count_eq id
  have hcount' := hsplit.count_eq id
  simp only [List.map_append, List.count_append] at hcount hcount' ⊢
  omega

end Restored

/-- **The allocator over the proxies**, its allocations restored, does what the greedy allocator
    does over the candidates by decreasing velocity. The proxies rank by their velocity and have
    the candidates' own figures otherwise, so the two runs accept at the same steps, which is
    what restoring relies on. -/
theorem exists_plan_rankProxies (now : Instant)
    (h : ValidRequest settings totalCapitalUsd maxVenueFraction maxAssetFraction maxAllocations)
    {velocity : UnifiedPaperCandidate → ℚ≥0} {adjusted : List UnifiedPaperCandidate}
    {reads : CandidateReads} {laneSkipped : List SkippedByLane}
    (hdistinct : (adjusted.map UnifiedPaperCandidate.candidateId).Nodup)
    (hvelocity : ∀ item ∈ adjusted, (velocity item : ℚ) = rankVelocity item)
    (hsplit : (adjusted.map UnifiedPaperCandidate.candidateId
      ++ laneSkipped.map (fun row => row.about.1)).Perm
        (reads.candidates.map UnifiedPaperCandidate.candidateId)) :
    ∃ plan, allocatePrequalifiedCandidates settings
        (adjusted.map (fun item => rankProxy (velocity item) item)) reads.failures totalCapitalUsd
        maxVenueFraction maxAssetFraction maxAllocations now = .ok plan
      ∧ RanksOnly adjusted reads settings totalCapitalUsd maxVenueFraction maxAssetFraction
        maxAllocations now
        ⟨laneSuccessRankBasis, restoredPlan
            (Dict.collect UnifiedPaperCandidate.candidateId adjusted) totalCapitalUsd plan,
          (reads.bridgeStale ++ reads.mechanismStale).map SkippedRow.stale
            ++ laneSkipped.map SkippedRow.lane ++ plan.skipped.map SkippedRow.plan⟩ := by
  obtain ⟨ordered, hperm, hsorted, hpairwise⟩ := exists_ordered velocity adjusted
  obtain ⟨overlay, hoverlay, -⟩ := h.init
  obtain ⟨final, final', hfinal, hfinal', accepted, refused, hrun⟩ := run_rankProxy velocity
    (planLimits settings totalCapitalUsd maxVenueFraction maxAssetFraction maxAllocations) overlay
    ordered
  -- what the run accepts was adjusted before
  have haccepted : ∀ item ∈ accepted, item ∈ adjusted := fun item hitem =>
    hperm.mem_iff.mp (hrun.split.mem_iff.mp (List.mem_append_left _ hitem))
  have hplan : allocatePrequalifiedCandidates settings
      (adjusted.map (fun item => rankProxy (velocity item) item)) reads.failures totalCapitalUsd
      maxVenueFraction maxAssetFraction maxAllocations now
      = .ok (final'.plan reads.failures totalCapitalUsd now ordered.length) := by
    rw [allocatePrequalifiedCandidates_eq h, hsorted, greedyPlan_eq hoverlay hfinal',
      List.length_map]
  have hskipped : (final'.plan reads.failures totalCapitalUsd now ordered.length).skipped
      = final.skipped := by
    rw [hrun.proxies]
    rfl
  refine ⟨_, hplan, ?_⟩
  rw [hrun.restoredPlan_eq hdistinct haccepted, hskipped]
  refine
    { greedy := ⟨ordered, _, hperm, ?_, greedyPlan_eq hoverlay hfinal, rfl⟩
      economics := ?_
      profit := (sum_profit_relabel final.allocations).symm
      weighted := congrArg (· / totalCapitalUsd) (sum_weighted_relabel final.allocations).symm
      split := hrun.split_ids hperm hsplit
      limits := ?_ }
  -- the order of the proxies is that of the velocities
  · refine hpairwise.imp_of_mem (fun {a b} ha hb hle => ?_)
    rw [← hvelocity a (hperm.mem_iff.mp ha), ← hvelocity b (hperm.mem_iff.mp hb)]
    exact_mod_cast hle
  · intro allocation hmem
    have hmem' : allocation ∈ final.allocations.map relabel := hmem
    rw [hrun.allocations, List.map_map] at hmem'
    obtain ⟨item, hitem, rfl⟩ := List.mem_map.mp hmem'
    exact ⟨item, haccepted item hitem, rfl⟩
  · -- the limits hold of what the candidates' own run accepts
    obtain ⟨within, hwithin⟩ := within_of_foldlM h hoverlay hfinal
    obtain ⟨spent, htallies, -⟩ := hwithin.charged
    refine ⟨within, ?_, hwithin.count, hwithin.fits, hwithin.disjoint⟩
    show final.allocations.map relabel = _
    rw [show final.allocations = within.map UnifiedPaperCandidate.toAllocation from
      htallies.allocations, List.map_map]
    rfl

/-- Only a valid request gets a result. -/
theorem validRequest_of_allocateSync {R : FeedbackRuntime} {history : List LaneOutcome}
    {reads : CandidateReads} {currentRegime : String} {result : LaneSuccessPlan}
    (h : allocateSync R history settings reads currentRegime totalCapitalUsd maxVenueFraction
      maxAssetFraction maxAllocations now = .ok result) :
    ValidRequest settings totalCapitalUsd maxVenueFraction maxAssetFraction maxAllocations := by
  unfold allocateSync at h
  split at h
  · cases h
  · dsimp only at h
    split at h
    · obtain ⟨plan, hplan, -⟩ := bind_eq_ok h
      exact validRequest_of_ok hplan
    · obtain ⟨plan, hplan, -⟩ := bind_eq_ok h
      exact validRequest_of_ok hplan

/-- A valid request with distinct ids gets the plan of the greedy allocator by velocity. -/
theorem exists_allocateSync (R : FeedbackRuntime) (history : List LaneOutcome)
    {reads : CandidateReads} (hreads : reads.ids.Nodup) (currentRegime : String) (now : Instant)
    (h : ValidRequest settings totalCapitalUsd maxVenueFraction maxAssetFraction maxAllocations) :
    ∃ result, allocateSync R history settings reads currentRegime totalCapitalUsd maxVenueFraction
        maxAssetFraction maxAllocations now = .ok result
      ∧ RanksOnly (adjustedCandidates R history reads currentRegime) reads settings totalCapitalUsd
        maxVenueFraction maxAssetFraction maxAllocations now result := by
  obtain ⟨hsplit, hdiagnostics, -⟩ := adjustedCandidates_spec R history currentRegime reads
  have hcandidates : (reads.candidates.map UnifiedPaperCandidate.candidateId).Nodup :=
    (List.nodup_append.mp hreads).2.1
  have hdistinct : ((adjustedCandidates R history reads currentRegime).map
      UnifiedPaperCandidate.candidateId).Nodup :=
    (List.nodup_append.mp (hsplit.nodup_iff.mpr hcandidates)).1
  obtain ⟨plan, hplan, hranks⟩ := exists_plan_rankProxies now h hdistinct
    (fun item hitem => coe_decisionVelocity R history currentRegime hcandidates hitem) hsplit
  unfold allocateSync
  rw [if_neg (not_le.mpr h.total)]
  dsimp only
  by_cases hempty : reads.candidates.isEmpty = true
  · -- nothing is adjusted, and the allocator has nothing to take
    have hnil : reads.candidates.map UnifiedPaperCandidate.candidateId = [] := by
      rw [List.isEmpty_iff.mp hempty]
      rfl
    rw [hnil] at hsplit
    obtain ⟨hids, hlane⟩ := List.append_eq_nil_iff.mp (List.perm_nil.mp hsplit)
    rw [List.map_eq_nil_iff.mp hids] at hplan hranks ⊢
    rw [List.map_eq_nil_iff.mp hlane] at hranks
    obtain ⟨overlay, hoverlay, -⟩ := h.init
    have hstart : allocatePrequalifiedCandidates settings [] reads.failures totalCapitalUsd
        maxVenueFraction maxAssetFraction maxAllocations now
        = .ok ((AllocationState.start overlay).plan reads.failures totalCapitalUsd now 0) := by
      rw [allocatePrequalifiedCandidates_eq h]
      exact greedyPlan_eq hoverlay rfl
    obtain rfl := Except.ok.inj (hplan.symm.trans hstart)
    rw [if_pos hempty, hstart]
    refine ⟨_, rfl, ?_⟩
    rw [List.map_nil, List.append_nil] at hranks
    exact hranks
  · rw [if_neg hempty]
    rw [← hdiagnostics] at hplan
    refine ⟨_, ?_, hranks⟩
    exact congrArg (fun made => made >>= fun plan => Except.ok (LaneSuccessPlan.mk
      laneSuccessRankBasis (restoredPlan (Dict.collect UnifiedPaperCandidate.candidateId
        (adjustedCandidates R history reads currentRegime)) totalCapitalUsd plan)
      ((reads.bridgeStale ++ reads.mechanismStale).map SkippedRow.stale
        ++ (adjustAndDiversify R history currentRegime (reads.candidates.map laneCandidate)
          (some currentRegime)).2.1.map SkippedRow.lane
        ++ plan.skipped.map SkippedRow.plan))) hplan

end Whole

/-- **Ranking by capital velocity changes only the order.** For all candidates that were read, with
    distinct ids, and every history of outcomes, a request gets a result if it is valid; and the
    result is the plan of the greedy allocator over the adjusted candidates by decreasing velocity,
    with their own economics. -/
theorem allocateSync_ranksOnly (R : FeedbackRuntime) (history : List LaneOutcome)
    (settings : AllocatorSettings) (reads : {reads : CandidateReads // reads.ids.Nodup})
    (currentRegime : String) (totalCapitalUsd : ℚ) (maxVenueFraction maxAssetFraction : Option ℚ)
    (maxAllocations : Option ℤ) (now : Instant) :
    match allocateSync R history settings reads.val currentRegime totalCapitalUsd maxVenueFraction
      maxAssetFraction maxAllocations now with
    | .ok result => RanksOnly (adjustedCandidates R history reads.val currentRegime) reads.val
        settings totalCapitalUsd maxVenueFraction maxAssetFraction maxAllocations now result
    | .error _ =>
      ¬ValidRequest settings totalCapitalUsd maxVenueFraction maxAssetFraction maxAllocations := by
  cases hresult : allocateSync R history settings reads.val currentRegime totalCapitalUsd
      maxVenueFraction maxAssetFraction maxAllocations now with
  | ok result =>
    obtain ⟨result', hok, hranks⟩ := exists_allocateSync R history reads.property
      currentRegime now (validRequest_of_allocateSync hresult)
    obtain rfl : result = result' := Except.ok.inj (hresult.symm.trans hok)
    exact hranks
  | error raised =>
    intro hvalid
    obtain ⟨result, hok, -⟩ :=
      exists_allocateSync R history reads.property currentRegime now hvalid
    cases hresult.symm.trans hok

/-! ### A candidate without an id, and one that lists a venue twice -/

deriving instance DecidableEq for PaperSettlementLeg, UnifiedPaperCandidate

/-- A runtime that leaves texts as they are. -/
def plainFeedback : FeedbackRuntime := { Runtime.sample with lower := id, repr := id }

/-- A candidate with the empty id that earns 200 with 100 in an hour. -/
def fastUnnamed : UnifiedPaperCandidate :=
  { Sample.candidate "" "BTC-USD" .marketNeutral .spot 100 with
    expectedReturnOnReservedCapital := 2
    expectedProfitUsdPerDeployment := 200 }

/-- A candidate that earns half of that elsewhere. -/
def slowNamed : UnifiedPaperCandidate :=
  { Sample.candidate "named" "ETH-USD" .marketNeutral .spot 100 with
    asset := "ETH"
    venues := ["coinbase"]
    expectedReturnOnReservedCapital := 1
    expectedProfitUsdPerDeployment := 100 }

/-- A structural candidate that lists its venue twice. -/
def twiceListed : UnifiedPaperCandidate :=
  { fastUnnamed with
    family := .coreCex
    venues := ["kraken", "kraken"] }

/-- The reads that give these candidates. -/
def readsOf (candidates : List UnifiedPaperCandidate) : CandidateReads :=
  ⟨candidates, [], [], [], []⟩

/-- A candidate that the lane-success control has left as it is. -/
def calibrated (item : UnifiedPaperCandidate) : UnifiedPaperCandidate :=
  { item with sourceReturnMetric := item.sourceReturnMetric ++ "|lane_success_calibrated" }

/-- The capital that allocations place at a venue, by equal shares of the venues they list. -/
def venueCapital (allocations : List UnifiedPaperAllocation) (venue : String) : ℚ :=
  (allocations.map (fun item =>
    item.capitalRequiredUsd * (item.venues.count venue : ℚ)
      / (max 1 item.venues.length : ℕ))).sum

theorem adjustedCandidates_unnamed :
    adjustedCandidates plainFeedback [] (readsOf [fastUnnamed, slowNamed]) "calm"
      = [calibrated fastUnnamed, calibrated slowNamed] := by
  decide +kernel

/-- With room for one allocation the candidate with an id gets it. -/
theorem allocateSync_unnamed :
    (allocateSync plainFeedback [] defaultFractions (readsOf [fastUnnamed, slowNamed]) "calm" 1000
      (some 1) (some 1) (some 1) 0).toOption.map
        (fun result => result.plan.allocations.map UnifiedPaperAllocation.candidateId)
      = some ["named"] := by
  decide +kernel

/-- By velocity the candidate without an id would get it. -/
theorem greedyPlan_unnamed :
    (greedyPlan defaultFractions [calibrated fastUnnamed, calibrated slowNamed] [] 1000
      (some 1) (some 1) (some 1) 0).toOption.map
        (fun plan => plan.allocations.map UnifiedPaperAllocation.candidateId)
      = some [""] := by
  decide +kernel

/-- Of the adjusted candidates the one without an id has the greater velocity. -/
theorem ordered_unnamed {ordered : List UnifiedPaperCandidate}
    (hperm : ordered.Perm [calibrated fastUnnamed, calibrated slowNamed])
    (hsorted : ordered.Pairwise (fun a b => capitalVelocity b ≤ capitalVelocity a)) :
    ordered = [calibrated fastUnnamed, calibrated slowNamed] := by
  refine hperm.eq_of_pairwise ?_ hsorted (by decide +kernel)
  intro a b ha hb hle hge
  have hdistinct : ∀ a ∈ [calibrated fastUnnamed, calibrated slowNamed],
      ∀ b ∈ [calibrated fastUnnamed, calibrated slowNamed],
        capitalVelocity b ≤ capitalVelocity a → capitalVelocity a ≤ capitalVelocity b → a = b := by
    decide +kernel
  exact hdistinct a (hperm.mem_iff.mp ha) b hb hle hge

/-- **Neither for a candidate with the empty id nor for one that lists a venue twice.** The first is
    ranked as if it stood still, whatever its velocity; and all the capital of the second may be
    placed at a venue where half of it would fill the limit. -/
theorem not_ranksOnly_unnamed :
    (¬∀ (R : FeedbackRuntime) (history : List LaneOutcome) (settings : AllocatorSettings)
        (reads : {reads : CandidateReads // reads.ids.Nodup}) (currentRegime : String)
        (totalCapitalUsd : ℚ) (maxVenueFraction maxAssetFraction : Option ℚ)
        (maxAllocations : Option ℤ) (now : Instant) (result : LaneSuccessPlan),
      0 < totalCapitalUsd →
      allocateSync R history settings reads.val currentRegime totalCapitalUsd maxVenueFraction
        maxAssetFraction maxAllocations now = .ok result →
      ∃ ordered plan, ordered.Perm (adjustedCandidates R history reads.val currentRegime)
        ∧ ordered.Pairwise (fun a b => capitalVelocity b ≤ capitalVelocity a)
        ∧ greedyPlan settings ordered reads.val.failures totalCapitalUsd maxVenueFraction
          maxAssetFraction maxAllocations now = .ok plan
        ∧ result.plan = { plan with allocations := plan.allocations.map relabel })
    ∧ ¬∀ (R : FeedbackRuntime) (history : List LaneOutcome) (settings : AllocatorSettings)
        (reads : {reads : CandidateReads // reads.ids.Nodup}) (currentRegime : String)
        (totalCapitalUsd : ℚ) (maxVenueFraction maxAssetFraction : Option ℚ)
        (maxAllocations : Option ℤ) (now : Instant) (result : LaneSuccessPlan),
      0 < totalCapitalUsd →
      allocateSync R history settings reads.val currentRegime totalCapitalUsd maxVenueFraction
        maxAssetFraction maxAllocations now = .ok result →
      ∀ venue, venueCapital result.plan.allocations venue
        ≤ (planLimits settings totalCapitalUsd maxVenueFraction maxAssetFraction
          maxAllocations).venueCap + budgetTolerance := by
  constructor
  -- the unnamed candidate is faster, and yet the plan places the named one first
  · intro h
    obtain ⟨result, hresult, hids⟩ := Option.map_eq_some_iff.mp allocateSync_unnamed
    obtain ⟨ordered, plan, hperm, hsorted, hplan, hsame⟩ := h plainFeedback [] defaultFractions
      ⟨readsOf [fastUnnamed, slowNamed], by decide +kernel⟩ "calm" 1000 (some 1) (some 1) (some 1) 0
      result (by norm_num) (ok_of_toOption hresult)
    rw [adjustedCandidates_unnamed] at hperm
    rw [ordered_unnamed hperm hsorted] at hplan
    obtain ⟨plan', hplan', hids'⟩ := Option.map_eq_some_iff.mp greedyPlan_unnamed
    obtain rfl : plan' = plan :=
      Except.ok.inj ((ok_of_toOption hplan').symm.trans hplan)
    have hkept : result.plan.allocations.map UnifiedPaperAllocation.candidateId
        = plan'.allocations.map UnifiedPaperAllocation.candidateId := by
      rw [hsame, List.map_map]
      exact List.map_congr_left (fun item _ => (relabel_economics item).1)
    rw [hids, hids'] at hkept
    exact absurd hkept (by decide)
  -- the venue listed twice is charged a share for each of its places
  · intro h
    have hplaced : (allocateSync plainFeedback [] defaultFractions (readsOf [twiceListed]) "calm"
        100 (some (6 / 10)) (some 1) (some 10) 0).toOption.map
          (fun result => venueCapital result.plan.allocations "kraken") = some 100 := by
      decide +kernel
    obtain ⟨result, hresult, hcapital⟩ := Option.map_eq_some_iff.mp hplaced
    have hle := h plainFeedback [] defaultFractions ⟨readsOf [twiceListed], by decide +kernel⟩
      "calm" 100 (some (6 / 10)) (some 1) (some 10) 0 result (by norm_num)
      (ok_of_toOption hresult) "kraken"
    rw [hcapital] at hle
    exact absurd hle (by decide +kernel)

end InefficiencyEngine.Feedback
