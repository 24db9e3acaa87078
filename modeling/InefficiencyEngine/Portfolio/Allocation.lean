import InefficiencyEngine.Lib.Loop
import InefficiencyEngine.Portfolio.Market
import Mathlib.Data.List.Sort
import Mathlib.Data.List.Perm.Basic
import Mathlib.Algebra.Order.BigOperators.Group.List

namespace InefficiencyEngine.Portfolio

/-!
# The allocator — candidates, the risk overlay, and one allocation plan

`allocate_prequalified_candidates` of `qualified_opportunity.py` walks the offered
candidates from the best expected return down and takes each one that passes the
count, conflict, capital, venue, asset and risk gates.  The risk gate is the
`PortfolioRiskOverlay` of `portfolio_risk.py`: budgets for alpha, directional and
same-direction capital as fractions of the capital *of this plan*, charged only with
what this plan has registered.

The main result (`allocatePrequalifiedCandidates_within`) bounds what one plan allocates
in each risk class by the class's fraction of the plan's own capital, in every prefix of
the plan.
-/

/-! ### Candidates, allocations, plans -/

/-- `ExposureKind`. -/
inductive ExposureKind
  | marketNeutral
  | directionalLong
  | directionalShort
  deriving DecidableEq

/-- The text of an exposure kind. -/
def ExposureKind.value : ExposureKind → String
  | .marketNeutral => "market_neutral"
  | .directionalLong => "directional_long"
  | .directionalShort => "directional_short"

/-- `Literal["core_cex", "cex_dex", "alpha"]`. -/
inductive Family
  | coreCex
  | cexDex
  | alpha
  deriving DecidableEq

/-- The text of a candidate's family. -/
def Family.value : Family → String
  | .coreCex => "core_cex"
  | .cexDex => "cex_dex"
  | .alpha => "alpha"

/-- `PaperSettlementLeg`: point-in-time leg metadata for forward settlement. -/
structure PaperSettlementLeg where
  venue : String
  asset : String
  marketKind : String
  side : Side
  symbol : String
  baseQuantity : Positive
  entryPrice : Positive
  entryNotionalUsd : Positive

/-- `UnifiedPaperCandidate`. What a family offers to the plan, whose validated amounts are
    subtypes here. -/
structure UnifiedPaperCandidate where
  candidateId : String
  family : Family
  strategy : String
  asset : String
  venues : List String
  capitalRequiredUsd : Positive
  notionalUsdPerLeg : Positive
  expectedProfitUsdPerDeployment : ℚ≥0
  expectedReturnOnReservedCapital : ℚ≥0
  modeledHoldingHours : Option Positive
  sourceReturnMetric : String
  sourceReturnValue : ℚ
  exposureKind : ExposureKind
  sourceObservedAt : Option Instant
  instrumentSymbol : Option String
  instrumentMarketKind : Option String
  entryReferencePrice : Option Positive
  modeledRoundtripCostReturn : Option ℚ≥0
  settlementLegs : List PaperSettlementLeg
  modeledNonSlippageCostBps : Option ℚ≥0
  modeledSafetyBufferBps : Option ℚ≥0
  capitalMultiple : Option Positive
  conflictKeys : List String
  evidenceId : Option String
  opportunityId : Option String

/-- `UnifiedPaperAllocation`.  Unlike a candidate's, its capital, notional and expected
    profit are unconstrained. -/
structure UnifiedPaperAllocation where
  candidateId : String
  family : String
  strategy : String
  asset : String
  venues : List String
  capitalRequiredUsd : ℚ
  notionalUsdPerLeg : ℚ
  expectedProfitUsdPerDeployment : ℚ
  expectedReturnOnReservedCapital : ℚ
  modeledHoldingHours : Option ℚ
  sourceReturnMetric : String
  sourceReturnValue : ℚ
  exposureKind : ExposureKind
  sourceObservedAt : Option Instant
  instrumentSymbol : Option String
  instrumentMarketKind : Option String
  entryReferencePrice : Option Positive
  modeledRoundtripCostReturn : Option ℚ≥0
  settlementLegs : List PaperSettlementLeg
  modeledNonSlippageCostBps : Option ℚ≥0
  modeledSafetyBufferBps : Option ℚ≥0
  capitalMultiple : Option Positive
  evidenceId : Option String
  opportunityId : Option String

/-- The allocation an accepted candidate becomes. -/
def UnifiedPaperCandidate.toAllocation (item : UnifiedPaperCandidate) :
    UnifiedPaperAllocation where
  candidateId := item.candidateId
  family := item.family.value
  strategy := item.strategy
  asset := item.asset
  venues := item.venues
  capitalRequiredUsd := item.capitalRequiredUsd
  notionalUsdPerLeg := item.notionalUsdPerLeg
  expectedProfitUsdPerDeployment := item.expectedProfitUsdPerDeployment
  expectedReturnOnReservedCapital := item.expectedReturnOnReservedCapital
  modeledHoldingHours := item.modeledHoldingHours.map (fun h => (h : ℚ))
  sourceReturnMetric := item.sourceReturnMetric
  sourceReturnValue := item.sourceReturnValue
  exposureKind := item.exposureKind
  sourceObservedAt := item.sourceObservedAt
  instrumentSymbol := item.instrumentSymbol
  instrumentMarketKind := item.instrumentMarketKind
  entryReferencePrice := item.entryReferencePrice
  modeledRoundtripCostReturn := item.modeledRoundtripCostReturn
  settlementLegs := item.settlementLegs
  modeledNonSlippageCostBps := item.modeledNonSlippageCostBps
  modeledSafetyBufferBps := item.modeledSafetyBufferBps
  capitalMultiple := item.capitalMultiple
  evidenceId := item.evidenceId
  opportunityId := item.opportunityId

/-- An entry of a plan's `family_failures`. -/
structure FamilyFailure where
  family : String
  errorType : String
  reason : String
  deriving DecidableEq

/-- An entry of a plan's `skipped`. -/
structure SkippedCandidate where
  candidateId : String
  reason : String
  deriving DecidableEq

/-- `PortfolioRiskBudget`. What the plan has used of each budget. -/
structure PortfolioRiskBudget where
  totalCapitalUsd : ℚ
  alphaCapitalUsd : ℚ
  marketNeutralCapitalUsd : ℚ
  directionalCapitalUsd : ℚ
  directionalLongCapitalUsd : ℚ
  directionalShortCapitalUsd : ℚ
  directionalNetCapitalUsd : ℚ
  strategyCapitalUsd : List (String × ℚ)

/-- `UnifiedPaperAllocationPlan`. The plan: what is allocated, what was skipped and why, and the
    cash left. -/
structure UnifiedPaperAllocationPlan where
  observedAt : Instant
  totalCapitalUsd : ℚ
  allocatedCapitalUsd : ℚ
  unusedCashUsd : ℚ
  expectedProfitUsdCurrentDeployments : ℚ
  weightedExpectedReturnOnReservedCapital : ℚ
  candidateCount : ℕ
  allocations : List UnifiedPaperAllocation
  skipped : List SkippedCandidate
  familyFailures : List FamilyFailure
  portfolioRiskBudget : PortfolioRiskBudget

/-! ### The risk overlay -/

/-- The settings the allocator reads.  The risk fractions are read with `getattr`, so a
    settings object may lack them. -/
structure AllocatorSettings where
  allocatorMaxVenueFraction : ℚ
  allocatorMaxAssetFraction : ℚ
  allocatorMaxAllocations : ℤ
  allocatorMaxAlphaFraction : Option ℚ
  allocatorMaxDirectionalFraction : Option ℚ
  allocatorMaxSameDirectionFraction : Option ℚ
  allocatorMaxAlphaStrategyFraction : Option ℚ

namespace AllocatorSettings

/-- `getattr(settings, "allocator_max_alpha_fraction", 0.40)`. -/
def maxAlphaFraction (s : AllocatorSettings) : ℚ := s.allocatorMaxAlphaFraction.getD (40 / 100)

/-- `getattr(settings, "allocator_max_directional_fraction", 0.35)`. -/
def maxDirectionalFraction (s : AllocatorSettings) : ℚ :=
  s.allocatorMaxDirectionalFraction.getD (35 / 100)

/-- `getattr(settings, "allocator_max_same_direction_fraction", 0.25)`. -/
def maxSameDirectionFraction (s : AllocatorSettings) : ℚ :=
  s.allocatorMaxSameDirectionFraction.getD (25 / 100)

/-- `getattr(settings, "allocator_max_alpha_strategy_fraction", 0.20)`. -/
def maxAlphaStrategyFraction (s : AllocatorSettings) : ℚ :=
  s.allocatorMaxAlphaStrategyFraction.getD (20 / 100)

end AllocatorSettings

/-- The tolerance of every budget comparison, `1e-9`. -/
def budgetTolerance : ℚ := 1 / 10 ^ 9

/-- `PortfolioRiskOverlay`: budgets of one plan and what it has used of them. -/
structure PortfolioRiskOverlay where
  total : ℚ
  maxAlphaFraction : ℚ
  maxDirectionalFraction : ℚ
  maxSameDirectionFraction : ℚ
  maxAlphaStrategyFraction : ℚ
  alphaUsed : ℚ
  marketNeutralUsed : ℚ
  directionalUsed : ℚ
  longUsed : ℚ
  shortUsed : ℚ
  strategyUsed : Dict String ℚ

/-- `PortfolioRiskDecision`. -/
structure PortfolioRiskDecision where
  candidateId : String
  accepted : Bool
  reason : Option String
  deriving DecidableEq

namespace PortfolioRiskOverlay

/-- The message of the constructor for a fraction outside `(0, 1]`. -/
def fractionError (name : String) : Raised := .valueError (name ++ " must be in (0, 1]")

/-- A fraction is valid when it lies in `(0, 1]`. -/
def checkFraction (name : String) (value : ℚ) : Except Raised Unit :=
  if 0 < value ∧ value ≤ 1 then .ok () else .error (fractionError name)

/-- `PortfolioRiskOverlay.__init__`. The tallies start at zero for each plan. -/
def init (settings : AllocatorSettings) (totalCapitalUsd : ℚ) :
    Except Raised PortfolioRiskOverlay :=
  if totalCapitalUsd ≤ 0 then .error (.valueError "total_capital_usd must be positive")
  else do
    checkFraction "allocator_max_alpha_fraction" settings.maxAlphaFraction
    checkFraction "allocator_max_directional_fraction" settings.maxDirectionalFraction
    checkFraction "allocator_max_same_direction_fraction" settings.maxSameDirectionFraction
    checkFraction "allocator_max_alpha_strategy_fraction" settings.maxAlphaStrategyFraction
    return {
      total := totalCapitalUsd
      maxAlphaFraction := settings.maxAlphaFraction
      maxDirectionalFraction := settings.maxDirectionalFraction
      maxSameDirectionFraction := settings.maxSameDirectionFraction
      maxAlphaStrategyFraction := settings.maxAlphaStrategyFraction
      alphaUsed := 0
      marketNeutralUsed := 0
      directionalUsed := 0
      longUsed := 0
      shortUsed := 0
      strategyUsed := Dict.empty }

/-- `used + capital > total * fraction + 1e-9`. -/
def exceeds (used capital total fraction : ℚ) : Prop :=
  total * fraction + budgetTolerance < used + capital

instance (used capital total fraction : ℚ) : Decidable (exceeds used capital total fraction) :=
  inferInstanceAs (Decidable (_ < _))

/-- Why the overlay rejects a candidate, if it does. The checks stand in the order of the
    source, and the first that fails gives the reason. -/
def rejection (o : PortfolioRiskOverlay) (c : UnifiedPaperCandidate) : Option String :=
  let capital : ℚ := c.capitalRequiredUsd
  if capital ≤ 0 then some "non-positive capital requirement"
  else if c.family = .alpha ∧ exceeds o.alphaUsed capital o.total o.maxAlphaFraction then
    some "predictive alpha portfolio risk budget"
  -- the strategy tally is shared by the families, though only alpha is checked against it
  else if c.family = .alpha ∧ exceeds ((o.strategyUsed.get? c.strategy).getD 0) capital o.total
      o.maxAlphaStrategyFraction then
    some "predictive alpha strategy concentration budget"
  else if c.exposureKind ≠ .marketNeutral
      ∧ exceeds o.directionalUsed capital o.total o.maxDirectionalFraction then
    some "total directional risk budget"
  else if c.exposureKind = .directionalLong
      ∧ exceeds o.longUsed capital o.total o.maxSameDirectionFraction then
    some "long directional risk budget"
  else if c.exposureKind = .directionalShort
      ∧ exceeds o.shortUsed capital o.total o.maxSameDirectionFraction then
    some "short directional risk budget"
  else none

/-- The overlay after a decision: reading `strategy_used` of an alpha candidate that
    passed the alpha budget creates the entry. -/
def afterDecision (o : PortfolioRiskOverlay) (c : UnifiedPaperCandidate) :
    PortfolioRiskOverlay :=
  if c.family = .alpha ∧ ¬ exceeds o.alphaUsed c.capitalRequiredUsd o.total o.maxAlphaFraction then
    { o with strategyUsed := o.strategyUsed.add c.strategy 0 }
  else o

/-- `PortfolioRiskOverlay.decision`. -/
def decision (o : PortfolioRiskOverlay) (c : UnifiedPaperCandidate) : PortfolioRiskDecision :=
  match o.rejection c with
  | some reason => { candidateId := c.candidateId, accepted := false, reason := some reason }
  | none => { candidateId := c.candidateId, accepted := true, reason := none }

/-- The bookkeeping of `register` once the decision is taken. -/
def charge (o : PortfolioRiskOverlay) (c : UnifiedPaperCandidate) : PortfolioRiskOverlay :=
  let capital : ℚ := c.capitalRequiredUsd
  { o with
    strategyUsed := o.strategyUsed.add c.strategy capital
    alphaUsed := if c.family = .alpha then o.alphaUsed + capital else o.alphaUsed
    marketNeutralUsed :=
      if c.exposureKind = .marketNeutral then o.marketNeutralUsed + capital
      else o.marketNeutralUsed
    directionalUsed :=
      if c.exposureKind = .marketNeutral then o.directionalUsed else o.directionalUsed + capital
    longUsed :=
      if c.exposureKind = .directionalLong then o.longUsed + capital else o.longUsed
    shortUsed :=
      if c.exposureKind = .directionalShort then o.shortUsed + capital else o.shortUsed }

/-- `PortfolioRiskOverlay.register`, which decides again before it charges. -/
def register (o : PortfolioRiskOverlay) (c : UnifiedPaperCandidate) :
    Except Raised PortfolioRiskOverlay :=
  match o.rejection c with
  | some reason => .error (.valueError reason)
  | none => .ok ((o.afterDecision c).charge c)

/-- `PortfolioRiskOverlay.snapshot`. The tallies as the plan reports them; the strategies are
    sorted by their names. -/
def snapshot (o : PortfolioRiskOverlay) : PortfolioRiskBudget where
  totalCapitalUsd := o.total
  alphaCapitalUsd := o.alphaUsed
  marketNeutralCapitalUsd := o.marketNeutralUsed
  directionalCapitalUsd := o.directionalUsed
  directionalLongCapitalUsd := o.longUsed
  directionalShortCapitalUsd := o.shortUsed
  directionalNetCapitalUsd := o.longUsed - o.shortUsed
  strategyCapitalUsd := o.strategyUsed.items.insertionSort (fun p q => p.1 ≤ q.1)

end PortfolioRiskOverlay

/-! ### The allocation loop -/

/-- The constraints of one plan. -/
structure AllocationLimits where
  totalCapitalUsd : ℚ
  venueCap : ℚ
  assetCap : ℚ
  allocationLimit : ℤ

/-- The accumulators of the allocation loop. -/
structure AllocationState where
  overlay : PortfolioRiskOverlay
  allocated : ℚ
  venueUsed : Dict String ℚ
  assetUsed : Dict String ℚ
  usedConflicts : List String
  allocations : List UnifiedPaperAllocation
  skipped : List SkippedCandidate

/-- `a` ranks no later than `b`: by expected return, then expected profit, both
    descending, then by required capital ascending. -/
def ranksBefore (a b : UnifiedPaperCandidate) : Prop :=
  b.expectedReturnOnReservedCapital < a.expectedReturnOnReservedCapital
    ∨ b.expectedReturnOnReservedCapital = a.expectedReturnOnReservedCapital
      ∧ (b.expectedProfitUsdPerDeployment < a.expectedProfitUsdPerDeployment
        ∨ b.expectedProfitUsdPerDeployment = a.expectedProfitUsdPerDeployment
          ∧ a.capitalRequiredUsd ≤ b.capitalRequiredUsd)

instance : DecidableRel ranksBefore := fun _ _ => inferInstanceAs (Decidable (_ ∨ _))

/-- The share of an item's capital booked against each of its venues. -/
def venueShare (item : UnifiedPaperCandidate) : ℚ :=
  (item.capitalRequiredUsd : ℚ) / max 1 item.venues.length

/-- The gate ahead of the risk overlay that an item fails, if any. -/
def AllocationState.refusal (limits : AllocationLimits) (s : AllocationState)
    (item : UnifiedPaperCandidate) : Option String :=
  let capital : ℚ := item.capitalRequiredUsd
  if limits.allocationLimit ≤ s.allocations.length then some "allocation count limit"
  else if ∃ key ∈ item.conflictKeys, key ∈ s.usedConflicts then
    some "shared instrument or route conflict"
  else if limits.totalCapitalUsd + budgetTolerance < s.allocated + capital then
    some "total capital constraint"
  else if ∃ venue ∈ item.venues,
      limits.venueCap + budgetTolerance < (s.venueUsed.get? venue).getD 0 + venueShare item then
    some "venue concentration cap"
  else if limits.assetCap + budgetTolerance < (s.assetUsed.get? item.asset).getD 0 + capital then
    some "asset concentration cap"
  else none

/-- The bookkeeping of an accepted item. -/
def AllocationState.accept (s : AllocationState) (item : UnifiedPaperCandidate)
    (overlay : PortfolioRiskOverlay) : AllocationState where
  overlay := overlay
  allocated := s.allocated + item.capitalRequiredUsd
  venueUsed := item.venues.foldl (fun d venue => d.add venue (venueShare item)) s.venueUsed
  assetUsed := s.assetUsed.add item.asset item.capitalRequiredUsd
  usedConflicts := s.usedConflicts ++ item.conflictKeys
  allocations := s.allocations ++ [item.toAllocation]
  skipped := s.skipped

/-- The bookkeeping of a refused item. -/
def AllocationState.skip (s : AllocationState) (item : UnifiedPaperCandidate)
    (overlay : PortfolioRiskOverlay) (reason : String) : AllocationState :=
  { s with overlay := overlay, skipped := s.skipped ++ [⟨item.candidateId, reason⟩] }

/-- One iteration of the allocation loop. -/
def AllocationState.step (limits : AllocationLimits) (s : AllocationState)
    (item : UnifiedPaperCandidate) : Except Raised AllocationState :=
  match s.refusal limits item with
  | some reason => .ok (s.skip item s.overlay reason)
  | none =>
    let riskDecision := s.overlay.decision item
    let overlay := s.overlay.afterDecision item
    if riskDecision.accepted then
      match overlay.register item with
      | .ok overlay => .ok (s.accept item overlay)
      | .error e => .error e
    else .ok (s.skip item overlay (riskDecision.reason.getD "portfolio risk budget"))

/-- `x or default` for a number: both `None` and zero fall back. -/
def orDefault (x : Option ℚ) (default : ℚ) : ℚ :=
  match x with
  | some q => if q = 0 then default else q
  | none => default

/-- The plan a finished loop reports. -/
def AllocationState.plan (s : AllocationState) (familyFailures : List FamilyFailure)
    (totalCapitalUsd : ℚ) (observedAt : Instant) (candidateCount : ℕ) :
    UnifiedPaperAllocationPlan where
  observedAt := observedAt
  totalCapitalUsd := totalCapitalUsd
  allocatedCapitalUsd := s.allocated
  unusedCashUsd := max 0 (totalCapitalUsd - s.allocated)
  expectedProfitUsdCurrentDeployments :=
    (s.allocations.map UnifiedPaperAllocation.expectedProfitUsdPerDeployment).sum
  weightedExpectedReturnOnReservedCapital :=
    (s.allocations.map
      (fun a => a.capitalRequiredUsd * a.expectedReturnOnReservedCapital)).sum / totalCapitalUsd
  candidateCount := candidateCount
  allocations := s.allocations
  skipped := s.skipped
  familyFailures := familyFailures
  portfolioRiskBudget := s.overlay.snapshot

/-- `max_allocations or settings.allocator_max_allocations`. -/
def AllocatorSettings.allocationLimit (settings : AllocatorSettings)
    (maxAllocations : Option ℤ) : ℤ :=
  match maxAllocations with
  | some n => if n = 0 then settings.allocatorMaxAllocations else n
  | none => settings.allocatorMaxAllocations

/-- The accumulators before the first candidate. -/
def AllocationState.start (overlay : PortfolioRiskOverlay) : AllocationState where
  overlay := overlay
  allocated := 0
  venueUsed := Dict.empty
  assetUsed := Dict.empty
  usedConflicts := []
  allocations := []
  skipped := []

/-- `0 < fraction <= 1`. -/
def validFraction (fraction : ℚ) : Bool := 0 < fraction ∧ fraction ≤ 1

/-- `allocate_prequalified_candidates`. The candidates are ranked once, and the loop takes them
    in that order against the limits and the overlay. -/
def allocatePrequalifiedCandidates (settings : AllocatorSettings)
    (candidates : List UnifiedPaperCandidate) (familyFailures : List FamilyFailure)
    (totalCapitalUsd : ℚ) (maxVenueFraction maxAssetFraction : Option ℚ)
    (maxAllocations : Option ℤ) (observedAt : Instant) :
    Except Raised UnifiedPaperAllocationPlan :=
  let venueFraction := orDefault maxVenueFraction settings.allocatorMaxVenueFraction
  -- an argument that is not given falls back to the setting
  let assetFraction := orDefault maxAssetFraction settings.allocatorMaxAssetFraction
  let allocationLimit := settings.allocationLimit maxAllocations
  if totalCapitalUsd ≤ 0 then .error (.valueError "total_capital_usd must be positive")
  else if ¬ validFraction venueFraction ∨ ¬ validFraction assetFraction ∨ allocationLimit ≤ 0 then
    .error (.valueError "invalid allocation constraints")
  else do
    let ordered := candidates.insertionSort ranksBefore
    let limits : AllocationLimits :=
      { totalCapitalUsd := totalCapitalUsd
        venueCap := totalCapitalUsd * venueFraction
        assetCap := totalCapitalUsd * assetFraction
        allocationLimit := allocationLimit }
    let overlay ← PortfolioRiskOverlay.init settings totalCapitalUsd
    let final ← ordered.foldlM (AllocationState.step limits) (AllocationState.start overlay)
    return final.plan familyFailures totalCapitalUsd observedAt ordered.length

/-! ### Deciding and registering -/

namespace PortfolioRiskOverlay

/-- Adding zero to an entry does not change what is read from it. -/
private theorem getD_get?_add_zero (d : Dict String ℚ) (k k' : String) :
    ((d.add k 0).get? k').getD 0 = (d.get? k').getD 0 := by
  rw [Dict.add, Dict.get?_set]
  by_cases hk : k = k'
  · rw [if_pos hk, hk, Option.getD_some, add_zero]
  · rw [if_neg hk]

/-- The entry a decision may create does not change any decision. -/
theorem rejection_afterDecision (o : PortfolioRiskOverlay) (c c' : UnifiedPaperCandidate) :
    (o.afterDecision c).rejection c' = o.rejection c' := by
  unfold afterDecision
  split
  · simp only [rejection, getD_get?_add_zero]
  · rfl

/-- **Register after accept.** Registering the item just accepted never raises. -/
theorem register_of_accepted (o : PortfolioRiskOverlay) (c : UnifiedPaperCandidate)
    (h : (o.decision c).accepted = true) :
    (o.afterDecision c).register c = .ok (((o.afterDecision c).afterDecision c).charge c) := by
  have hnone : o.rejection c = none := by
    unfold decision at h
    cases hr : o.rejection c with
    | none => rfl
    | some reason =>
      rw [hr] at h
      cases h
  rw [register, rejection_afterDecision, hnone]

end PortfolioRiskOverlay

/-! ### Risk classes -/

/-- The classes of capital the portfolio budgets speak of. -/
inductive RiskClass
  | alpha
  | directional
  | directionalLong
  deriving DecidableEq

namespace RiskClass

/-- Whether capital of a family and an exposure kind counts against the class. -/
def Covers (K : RiskClass) (family exposureKind : String) : Prop :=
  match K with
  | .alpha => family = Family.alpha.value
  | .directional => exposureKind ≠ ExposureKind.marketNeutral.value
  | .directionalLong => exposureKind = ExposureKind.directionalLong.value

instance (K : RiskClass) (family exposureKind : String) :
    Decidable (K.Covers family exposureKind) :=
  match K with
  | .alpha => inferInstanceAs (Decidable (_ = _))
  | .directional => inferInstanceAs (Decidable (_ ≠ _))
  | .directionalLong => inferInstanceAs (Decidable (_ = _))

/-- The budget of the class as a fraction of capital. -/
def fraction (K : RiskClass) (settings : AllocatorSettings) : ℚ :=
  match K with
  | .alpha => settings.maxAlphaFraction
  | .directional => settings.maxDirectionalFraction
  | .directionalLong => settings.maxSameDirectionFraction

/-- What an overlay has charged to the class. -/
def used (K : RiskClass) (o : PortfolioRiskOverlay) : ℚ :=
  match K with
  | .alpha => o.alphaUsed
  | .directional => o.directionalUsed
  | .directionalLong => o.longUsed

/-- What an item charges to the class. -/
def weight (K : RiskClass) (family exposureKind : String) (capital : ℚ) : ℚ :=
  if K.Covers family exposureKind then capital else 0

/-- The capital a list of allocations puts into the class. -/
def allocated (K : RiskClass) (allocations : List UnifiedPaperAllocation) : ℚ :=
  (allocations.map (fun a => K.weight a.family a.exposureKind.value a.capitalRequiredUsd)).sum

/-- The capital a list of candidates asks for in the class. -/
def offered (K : RiskClass) (candidates : List UnifiedPaperCandidate) : ℚ :=
  (candidates.map
    (fun c => K.weight c.family.value c.exposureKind.value c.capitalRequiredUsd)).sum

theorem weight_nonneg (K : RiskClass) (family exposureKind : String) {capital : ℚ}
    (h : 0 ≤ capital) : 0 ≤ K.weight family exposureKind capital := by
  unfold weight
  split
  · exact h
  · exact le_refl _

theorem allocated_append (K : RiskClass) (l₁ l₂ : List UnifiedPaperAllocation) :
    K.allocated (l₁ ++ l₂) = K.allocated l₁ + K.allocated l₂ := by
  simp only [allocated, List.map_append, List.sum_append]

/-- Accepting candidates allocates what they asked for. -/
theorem allocated_map_toAllocation (K : RiskClass) (items : List UnifiedPaperCandidate) :
    K.allocated (items.map UnifiedPaperCandidate.toAllocation) = K.offered items := by
  simp only [allocated, offered, List.map_map]
  rfl

/-- Fewer candidates ask for no more. -/
theorem offered_le_of_sublist (K : RiskClass) {l₁ l₂ : List UnifiedPaperCandidate}
    (h : l₁.Sublist l₂) : K.offered l₁ ≤ K.offered l₂ := by
  refine (h.map _).sum_le_sum ?_
  intro x hx
  obtain ⟨c, -, rfl⟩ := List.mem_map.mp hx
  exact K.weight_nonneg _ _ c.capitalRequiredUsd.2.le

/-- The order of the candidates does not matter to what they ask for. -/
theorem offered_eq_of_perm (K : RiskClass) {l₁ l₂ : List UnifiedPaperCandidate}
    (h : l₁.Perm l₂) : K.offered l₁ = K.offered l₂ :=
  (h.map _).sum_eq

/-- Distinct families have distinct texts. -/
private theorem family_value_eq_alpha_iff (f : Family) :
    f.value = Family.alpha.value ↔ f = .alpha := by
  cases f <;> decide

/-- Exposure kinds are told apart by their texts. -/
private theorem exposureKind_value_inj (a b : ExposureKind) : a.value = b.value ↔ a = b := by
  cases a <;> cases b <;> decide

/-- Charging an item raises the class by the item's weight. -/
theorem used_charge (K : RiskClass) (o : PortfolioRiskOverlay) (c : UnifiedPaperCandidate) :
    K.used (o.charge c)
      = K.used o + K.weight c.family.value c.exposureKind.value c.capitalRequiredUsd := by
  cases K with
  | alpha =>
    simp only [used, PortfolioRiskOverlay.charge, weight, Covers, family_value_eq_alpha_iff]
    split <;> simp
  | directional =>
    simp only [used, PortfolioRiskOverlay.charge, weight, Covers, ne_eq, exposureKind_value_inj,
      ite_not]
    split <;> simp
  | directionalLong =>
    simp only [used, PortfolioRiskOverlay.charge, weight, Covers, exposureKind_value_inj]
    split <;> simp

/-- A decision charges nothing. -/
@[simp] theorem used_afterDecision (K : RiskClass) (o : PortfolioRiskOverlay)
    (c : UnifiedPaperCandidate) : K.used (o.afterDecision c) = K.used o := by
  unfold PortfolioRiskOverlay.afterDecision
  split <;> cases K <;> rfl

/-- The budget an overlay enforces for the class. -/
def budget (K : RiskClass) (o : PortfolioRiskOverlay) : ℚ :=
  match K with
  | .alpha => o.total * o.maxAlphaFraction
  | .directional => o.total * o.maxDirectionalFraction
  | .directionalLong => o.total * o.maxSameDirectionFraction

/-- Bookkeeping leaves the budgets alone. -/
@[simp] theorem budget_charge_afterDecision (K : RiskClass) (o : PortfolioRiskOverlay)
    (c : UnifiedPaperCandidate) :
    K.budget (o.charge c) = K.budget o ∧ K.budget (o.afterDecision c) = K.budget o := by
  refine ⟨by cases K <;> rfl, ?_⟩
  unfold PortfolioRiskOverlay.afterDecision
  split <;> cases K <;> rfl

/-- **Gate soundness.** An item the overlay does not reject fits into the budget of every
    class it counts against. -/
theorem used_add_le_of_not_rejected (K : RiskClass) {o : PortfolioRiskOverlay}
    {c : UnifiedPaperCandidate} (h : o.rejection c = none)
    (hcovers : K.Covers c.family.value c.exposureKind.value) :
    K.used o + c.capitalRequiredUsd ≤ K.budget o + budgetTolerance := by
  unfold PortfolioRiskOverlay.rejection at h
  dsimp only at h
  split_ifs at h with hpos halpha hstrategy hdirectional hlong hshort
  cases K with
  | alpha =>
    have hfamily : c.family = .alpha := (family_value_eq_alpha_iff _).mp hcovers
    exact not_lt.mp (fun hlt => halpha ⟨hfamily, hlt⟩)
  | directional =>
    have hkind : c.exposureKind ≠ .marketNeutral := fun he => hcovers (congrArg _ he)
    exact not_lt.mp (fun hlt => hdirectional ⟨hkind, hlt⟩)
  | directionalLong =>
    have hkind : c.exposureKind = .directionalLong := (exposureKind_value_inj _ _).mp hcovers
    exact not_lt.mp (fun hlt => hlong ⟨hkind, hlt⟩)

end RiskClass

/-! ### What one plan allocates -/

/-- What the loop maintains over the candidates seen: the overlay's budgets are those of
    the settings, it has charged exactly what was allocated, every class is within its
    budget, and what was allocated are candidates in the order seen. -/
structure AllocationState.Sound (settings : AllocatorSettings) (total : ℚ)
    (seen : List UnifiedPaperCandidate) (s : AllocationState) : Prop where
  budget : ∀ K : RiskClass, K.budget s.overlay = total * K.fraction settings
  used : ∀ K : RiskClass, K.used s.overlay = K.allocated s.allocations
  within : ∀ K : RiskClass,
    K.allocated s.allocations ≤ total * K.fraction settings + budgetTolerance
  accepted : ∃ items : List UnifiedPaperCandidate,
    items.Sublist seen ∧ s.allocations = items.map UnifiedPaperCandidate.toAllocation

/-- One iteration either books the item, which neither the gates nor the overlay rejected,
    or leaves what was allocated, charged and in use alone. -/
theorem AllocationState.step_cases {limits : AllocationLimits} {s s' : AllocationState}
    {item : UnifiedPaperCandidate} (h : s.step limits item = .ok s') :
    (s.refusal limits item = none ∧ s.overlay.rejection item = none
        ∧ s' = s.accept item (((s.overlay.afterDecision item).afterDecision item).charge item))
      ∨ s'.allocations = s.allocations ∧ s'.usedConflicts = s.usedConflicts
        ∧ (∀ K : RiskClass, K.used s'.overlay = K.used s.overlay)
        ∧ ∀ K : RiskClass, K.budget s'.overlay = K.budget s.overlay := by
  unfold AllocationState.step at h
  cases hrefused : s.refusal limits item with
  -- a refused item is only noted
  | some reason =>
    rw [hrefused] at h
    injection h with h
    subst h
    exact Or.inr ⟨rfl, rfl, fun _ => rfl, fun _ => rfl⟩
  | none =>
    rw [hrefused] at h
    cases hrejected : s.overlay.rejection item with
    -- the overlay rejects it: its decision is noted, and nothing is charged
    | some reason =>
      simp only [PortfolioRiskOverlay.decision, hrejected] at h
      injection h with h
      subst h
      exact Or.inr ⟨rfl, rfl, fun K => K.used_afterDecision _ _,
        fun K => (K.budget_charge_afterDecision _ _).2⟩
    -- it is accepted, and registered in each of its classes
    | none =>
      have haccepted : (s.overlay.decision item).accepted = true := by
        rw [PortfolioRiskOverlay.decision, hrejected]
      simp only [haccepted, if_true, s.overlay.register_of_accepted item haccepted] at h
      injection h with h
      exact Or.inl ⟨rfl, rfl, h.symm⟩

/-- **Step lemma.** One iteration keeps the loop sound. An accepted candidate charges each class
    that covers it by its capital, which the overlay had checked against the budget of the
    class. -/
theorem AllocationState.Sound.step {settings : AllocatorSettings} {total : ℚ}
    {limits : AllocationLimits} {seen : List UnifiedPaperCandidate} {s s' : AllocationState}
    {item : UnifiedPaperCandidate} (hs : s.Sound settings total seen)
    (h : s.step limits item = .ok s') : s'.Sound settings total (seen ++ [item]) := by
  obtain ⟨items, hsub, hitems⟩ := hs.accepted
  rcases AllocationState.step_cases h with ⟨-, hnot, rfl⟩ | ⟨hsame, -, hused, hbudget⟩
  -- accepted: the allocated capital of each class grows by its weight
  · have hallocated : ∀ K : RiskClass, K.allocated (s.allocations ++ [item.toAllocation])
        = K.allocated s.allocations
          + K.weight item.family.value item.exposureKind.value item.capitalRequiredUsd := by
      intro K
      rw [K.allocated_append]
      simp [RiskClass.allocated, UnifiedPaperCandidate.toAllocation]
    refine ⟨?_, ?_, ?_, items ++ [item], hsub.append (List.Sublist.refl _), ?_⟩
    · intro K
      show K.budget (PortfolioRiskOverlay.charge _ item) = _
      simp only [(K.budget_charge_afterDecision _ _).1, (K.budget_charge_afterDecision _ _).2,
        hs.budget]
    · intro K
      show K.used (PortfolioRiskOverlay.charge _ item) = K.allocated (s.allocations ++ _)
      rw [K.used_charge, K.used_afterDecision, K.used_afterDecision, hallocated, hs.used]
    · intro K
      show K.allocated (s.allocations ++ _) ≤ _
      rw [hallocated]
      by_cases hcovers : K.Covers item.family.value item.exposureKind.value
      · have hfits := K.used_add_le_of_not_rejected hnot hcovers
        rw [hs.used, hs.budget] at hfits
        rw [RiskClass.weight, if_pos hcovers]
        exact hfits
      · rw [RiskClass.weight, if_neg hcovers, add_zero]
        exact hs.within K
    · show s.allocations ++ [item.toAllocation] = _
      rw [hitems, List.map_append, List.map_singleton]
  -- skipped: nothing is allocated or used
  · refine ⟨?_, ?_, ?_, items, hsub.trans (List.sublist_append_left _ _), ?_⟩
    · exact fun K => (hbudget K).trans (hs.budget K)
    · exact fun K => (hused K).trans (by rw [hs.used K, hsame])
    · exact fun K => by rw [hsame]; exact hs.within K
    · rw [hsame, hitems]

/-- A successful constructor has checked the fractions and charged nothing. -/
theorem PortfolioRiskOverlay.init_eq_ok {settings : AllocatorSettings} {total : ℚ}
    {o : PortfolioRiskOverlay} (h : PortfolioRiskOverlay.init settings total = .ok o) :
    0 < total ∧ (∀ K : RiskClass, 0 < K.fraction settings ∧ K.fraction settings ≤ 1)
      ∧ (∀ K : RiskClass, K.budget o = total * K.fraction settings)
      ∧ ∀ K : RiskClass, K.used o = 0 := by
  -- the constructor raises on a fraction that is not in the unit interval
  have hcheck : ∀ {name : String} {value : ℚ} {u : Unit},
      checkFraction name value = .ok u → 0 < value ∧ value ≤ 1 := by
    intro name value u hu
    unfold checkFraction at hu
    split at hu
    · assumption
    · cases hu
  unfold PortfolioRiskOverlay.init at h
  split at h
  · cases h
  -- the four checks of the constructor, of which the last is of no risk class
  · rename_i htotal
    obtain ⟨_, halpha, h⟩ := bind_eq_ok h
    obtain ⟨_, hdirectional, h⟩ := bind_eq_ok h
    obtain ⟨_, hsame, h⟩ := bind_eq_ok h
    obtain ⟨_, -, h⟩ := bind_eq_ok h
    injection h with h
    subst h
    refine ⟨not_le.mp htotal, ?_, ?_, ?_⟩
    · intro K
      cases K with
      | alpha => exact hcheck halpha
      | directional => exact hcheck hdirectional
      | directionalLong => exact hcheck hsame
    · intro K
      cases K <;> rfl
    · intro K
      cases K <;> rfl

/-- **One plan.** What a plan allocates are offered candidates, each at most as often as it was
    offered, and in each risk class they take at most the class's fraction of the plan's
    capital. Its loop is one fold over the sorted candidates, and the invariant of a step
    carries it. -/
theorem allocatePrequalifiedCandidates_within {settings : AllocatorSettings}
    {candidates : List UnifiedPaperCandidate} {familyFailures : List FamilyFailure} {total : ℚ}
    {maxVenueFraction maxAssetFraction : Option ℚ} {maxAllocations : Option ℤ}
    {observedAt : Instant} {plan : UnifiedPaperAllocationPlan}
    (h : allocatePrequalifiedCandidates settings candidates familyFailures total
      maxVenueFraction maxAssetFraction maxAllocations observedAt = .ok plan) :
    (∃ items : List UnifiedPaperCandidate, items.Subperm candidates
        ∧ plan.allocations = items.map UnifiedPaperCandidate.toAllocation)
      ∧ ∀ K : RiskClass,
        K.allocated plan.allocations ≤ total * K.fraction settings + budgetTolerance := by
  unfold allocatePrequalifiedCandidates at h
  split at h
  · cases h
  · dsimp only at h
    split at h
    · cases h
    -- the overlay is built, and then every candidate is tried once
    · obtain ⟨overlay, hoverlay, h⟩ := bind_eq_ok h
      obtain ⟨final, hfinal, h⟩ := bind_eq_ok h
      obtain ⟨htotal, hfraction, hbudget, hused⟩ := PortfolioRiskOverlay.init_eq_ok hoverlay
      have hsound := foldlM_invariant
        (P := fun seen s => AllocationState.Sound settings total seen s)
        (fun _ _ _ _ hs hstep => hs.step hstep) ⟨hbudget, hused, ?_, [], List.Sublist.refl _, rfl⟩
        hfinal
      · injection h with h
        subst h
        -- the accepted ones are a part of the sorted candidates, and sorting permutes them
        obtain ⟨items, hsub, hitems⟩ := hsound.accepted
        exact ⟨⟨items, (List.Sublist.subperm hsub).trans
          (List.perm_insertionSort _ _).subperm, hitems⟩, hsound.within⟩
      -- at the start nothing is charged
      · intro K
        have hcap : 0 ≤ total * K.fraction settings := mul_nonneg htotal.le (hfraction K).1.le
        show (0 : ℚ) ≤ _
        exact add_nonneg hcap (by norm_num [budgetTolerance])

end InefficiencyEngine.Portfolio
