import InefficiencyEngine.Lib.Bisection
import InefficiencyEngine.Execution.Costs
import InefficiencyEngine.Execution.DepthWalks
import Mathlib.Order.WithBot

namespace InefficiencyEngine.Execution

open Portfolio

/-!
# Qualifying an opportunity

`qualify_opportunity` of `execution.py`.  An opportunity of two legs is evaluated at a notional
against the books of its legs: the books have to hold the target quantity with its reserve, the
costs have to be known, and what is left of the edge has to clear the hurdle.  The tiers are
evaluated one by one, and the capacity is searched for by bisection below what the books hold.

The texts of the rejections are their kinds here; the numbers that some of them print are the
arguments.
-/

/-! ### Tiers -/

/-- Why a tier is rejected. -/
inductive Rejection
  | notTwoLegs
  | missingBooks (names : List String)
  | staleBook
  | bookSkew (seconds : ℚ)
  | reserve (ratio : ℚ)
  | costs (message : String)
  | depth
  | belowHurdle
  deriving DecidableEq

/-- `LegExecutionEstimate`. The estimate of one leg, whose validated fields are subtypes here.
    -/
structure LegExecutionEstimate where
  venue : String
  asset : String
  marketKind : MarketKind
  tradeSide : TradeSide
  requestedBaseQuantity : Positive
  filledBaseQuantity : Positive
  filledNotionalUsd : Positive
  averagePrice : Positive
  bestPrice : Positive
  slippageBps : ℚ≥0
  levelsConsumed : { levels : ℕ // 0 < levels }

/-- `CapitalTierQualification`.  The costs of a tier that was never costed are zero. -/
structure CapitalTierQualification where
  opportunityId : String
  notionalUsdPerLeg : Positive
  targetBaseQuantity : Option ℚ
  executable : Bool
  passesReturnHurdle : Bool
  grossEdgeBpsPerHour : ℚ
  staticModeledCostBps : ℚ
  costs : Option EconomicCostBreakdown
  observedEntrySlippageBps : ℚ
  assumedExitSlippageBps : ℚ
  totalModeledCostBps : ℚ
  netEdgeBpsPerHour : ℚ
  /-- `float("-inf")` is `⊥`. -/
  netAnnualizedReturn : WithBot ℚ
  legNotionalNetAnnualizedReturn : ℚ
  legEstimates : List LegExecutionEstimate
  rejectionReason : Option Rejection

/-- A tier that counts. -/
def CapitalTierQualification.qualifies (tier : CapitalTierQualification) : Bool :=
  tier.executable && tier.passesReturnHurdle

/-- `OpportunityExecutability`. What is known of an opportunity: its tiers, the largest that
    qualifies, and where the search for its capacity ended. -/
structure OpportunityExecutability where
  opportunityId : String
  strategy : Strategy
  asset : String
  observedAt : Instant
  tiers : List CapitalTierQualification
  maxQualifiedNotionalUsd : ℚ
  visibleDepthCeilingUsd : ℚ
  estimatedCapacityNotionalUsd : ℚ
  capacityFrontierNetAnnualizedReturn : Option (WithBot ℚ)

/-- `_rejected_tier`. It reports the gross edge and the modelled cost of the opportunity, and no
    return. -/
def rejectedTier (opportunity : Opportunity) (notional : ℚ) (reason : Rejection) :
    Except Raised CapitalTierQualification := do
  let notional ← positive "CapitalTierQualification" "notional_usd_per_leg" notional
  .ok
    { opportunityId := opportunity.id
      notionalUsdPerLeg := notional
      targetBaseQuantity := none
      executable := false
      passesReturnHurdle := false
      grossEdgeBpsPerHour := opportunity.grossEdgeBpsPerHour
      staticModeledCostBps := opportunity.modeledCostBps
      costs := none
      observedEntrySlippageBps := 0
      assumedExitSlippageBps := 0
      totalModeledCostBps := opportunity.modeledCostBps
      netEdgeBpsPerHour := 0
      netAnnualizedReturn := (0 : ℚ)
      legNotionalNetAnnualizedReturn := 0
      legEstimates := []
      rejectionReason := some reason }

/-! ### The books of the legs -/

/-- `_trade_side`. -/
def tradeSide : Side → TradeSide
  | .long => .buy
  | .short => .sell

/-- `_book_key`. -/
def bookKey (book : OrderBookSnapshot) : String × String × String :=
  (book.venue, book.asset, book.marketKind.value)

/-- `_leg_key`. -/
def legKey (leg : OpportunityLeg) : String × String × String :=
  (leg.venue, leg.asset, leg.marketKind.value)

/-- The lowest ask or the highest bid. -/
def touchPrice (book : OrderBookSnapshot) (side : TradeSide) : ℚ :=
  let prices := (levelsFor book side).map (fun level => (level.price : ℚ))
  match side with
  | .buy => prices.min?.getD 0
  | .sell => prices.max?.getD 0

/-- What the evaluations of one opportunity share. -/
structure PairContext where
  opportunity : Opportunity
  settings : Settings
  latencyModel : Option EmpiricalLatencyModel
  latencyModelResolver : Option (Opportunity → ℚ → EmpiricalLatencyModel)
  legBooks : List (OpportunityLeg × OrderBookSnapshot)
  bookAges : List ℚ

namespace PairContext

variable (ctx : PairContext)

/-- `side_pairs`. -/
def sidePairs : List (TradeSide × OrderBookSnapshot) :=
  ctx.legBooks.map (fun pair => (tradeSide pair.1.side, pair.2))

/-- `conservative_reference`. -/
def conservativeReference : ℚ :=
  (ctx.sidePairs.map (fun pair => touchPrice pair.2 pair.1)).max?.getD 0

/-- `reserve_ratio`. -/
def reserveRatio : ℚ := max 1 ctx.settings.hedgeLiquidityReserveRatio

/-- `max_shared_quantity`. -/
def maxSharedQuantity : ℚ :=
  (ctx.sidePairs.map (fun pair => maxExecutableQuantity pair.2 pair.1)).min?.getD 0

/-- `visible_depth_ceiling`. -/
def visibleDepthCeiling : ℚ :=
  ctx.conservativeReference * ctx.maxSharedQuantity / ctx.reserveRatio

/-- `worst_book_age`. -/
def worstBookAge : ℚ := ctx.bookAges.max?.getD 0

/-- The latency model at a notional: the resolver's, where there is one. -/
def effectiveLatencyModel (notional : ℚ) : Option EmpiricalLatencyModel :=
  match ctx.latencyModelResolver with
  | some resolver => some (resolver ctx.opportunity notional)
  | none => ctx.latencyModel

/-! ### Evaluating a notional -/

/-- The validation of a leg's estimate. -/
def legEstimate (leg : OpportunityLeg) (targetQuantity : ℚ)
    (estimate : QuantityExecutionEstimate) : Except Raised LegExecutionEstimate := do
  let model := "LegExecutionEstimate"
  let requested ← positive model "requested_base_quantity" targetQuantity
  let filled ← positive model "filled_base_quantity" estimate.filledBaseQuantity
  let notional ← positive model "filled_notional_usd" estimate.filledNotionalUsd
  let average ← positive model "average_price" estimate.averagePrice
  let best ← positive model "best_price" estimate.bestPrice
  let slippage ← nonNegative model "slippage_bps" estimate.slippageBps
  if h : 0 < estimate.levelsConsumed then
    .ok
      { venue := leg.venue
        asset := leg.asset
        marketKind := leg.marketKind
        tradeSide := tradeSide leg.side
        requestedBaseQuantity := requested
        filledBaseQuantity := filled
        filledNotionalUsd := notional
        averagePrice := average
        bestPrice := best
        slippageBps := slippage
        levelsConsumed := ⟨estimate.levelsConsumed, h⟩ }
  else .error (.validationError model "levels_consumed")

/-- The loop over the legs, which ends at the first that the book cannot fill: the estimates up to
    there, and whether that is all of them. -/
def estimateLegs (targetQuantity : ℚ) :
    List (OpportunityLeg × OrderBookSnapshot) → List LegExecutionEstimate →
      Except Raised (List LegExecutionEstimate × Bool)
  | [], estimates => .ok (estimates, true)
  | (leg, book) :: rest, estimates =>
    match estimateMarketOrderQuantity book (tradeSide leg.side) targetQuantity true with
    | .error .insufficientDepth => .ok (estimates, false)
    | .error .valueError => .error (.valueError "base_quantity must be positive")
    | .ok estimate => do
      let legEstimate ← legEstimate leg targetQuantity estimate
      estimateLegs targetQuantity rest (estimates ++ [legEstimate])

/-- The total cost at an entry slippage: the exit is assumed to slip a multiple of it. -/
def totalCostBps (costs : EconomicCostBreakdown) (entrySlippage : ℚ) : ℚ :=
  costs.totalNonSlippageCostBps + entrySlippage
    + entrySlippage * ctx.settings.exitSlippageMultiplier

/-- `net_hourly_bps_on_leg_notional`. -/
def netHourlyBps (costs : EconomicCostBreakdown) (entrySlippage : ℚ) : ℚ :=
  (ctx.opportunity.grossEdgeBpsPerHour * ctx.opportunity.holdingHours
      - ctx.totalCostBps costs entrySlippage
      - ctx.opportunity.safetyBufferBpsPerHour * ctx.opportunity.holdingHours)
    / ctx.opportunity.holdingHours

/-- `leg_notional_annualized`. -/
def legNotionalAnnualized (costs : EconomicCostBreakdown) (entrySlippage : ℚ) : ℚ :=
  ctx.netHourlyBps costs entrySlippage / 10000 * 24 * 365

/-- `capital_adjusted_annualized`. -/
def capitalAdjustedAnnualized (costs : EconomicCostBreakdown) (entrySlippage : ℚ) : WithBot ℚ :=
  if 0 < costs.capitalMultiple then
    ((ctx.legNotionalAnnualized costs entrySlippage / costs.capitalMultiple : ℚ) : WithBot ℚ)
  else ⊥

/-- `passes`. -/
def Clears (costs : EconomicCostBreakdown) (entrySlippage : ℚ) : Prop :=
  0 < ctx.netHourlyBps costs entrySlippage
    ∧ (ctx.settings.minNetAnnualizedReturn : WithBot ℚ)
      ≤ ctx.capitalAdjustedAnnualized costs entrySlippage

instance (costs : EconomicCostBreakdown) (entrySlippage : ℚ) :
    Decidable (ctx.Clears costs entrySlippage) :=
  inferInstanceAs (Decidable (_ ∧ _))

/-- The tier of a notional whose legs are filled. -/
def filledTier (notional targetQuantity : ℚ) (costs : EconomicCostBreakdown)
    (legEstimates : List LegExecutionEstimate) : Except Raised CapitalTierQualification := do
  let model := "CapitalTierQualification"
  let entrySlippage := (legEstimates.map (fun estimate => (estimate.slippageBps : ℚ))).sum
  let notional ← positive model "notional_usd_per_leg" notional
  let target ← positive model "target_base_quantity" targetQuantity
  .ok
    { opportunityId := ctx.opportunity.id
      notionalUsdPerLeg := notional
      targetBaseQuantity := some target
      executable := true
      passesReturnHurdle := ctx.Clears costs entrySlippage
      grossEdgeBpsPerHour := ctx.opportunity.grossEdgeBpsPerHour
      staticModeledCostBps := ctx.opportunity.modeledCostBps
      costs := some costs
      observedEntrySlippageBps := entrySlippage
      assumedExitSlippageBps := entrySlippage * ctx.settings.exitSlippageMultiplier
      totalModeledCostBps := ctx.totalCostBps costs entrySlippage
      netEdgeBpsPerHour := ctx.netHourlyBps costs entrySlippage
      netAnnualizedReturn := ctx.capitalAdjustedAnnualized costs entrySlippage
      legNotionalNetAnnualizedReturn := ctx.legNotionalAnnualized costs entrySlippage
      legEstimates := legEstimates
      rejectionReason := if ctx.Clears costs entrySlippage then none else some .belowHurdle }

/-- Some book does not hold the quantity. -/
def ShortOf (quantity : ℚ) : Prop :=
  ∃ pair ∈ ctx.sidePairs, maxExecutableQuantity pair.2 pair.1 + 1 / 10 ^ 12 < quantity

instance (quantity : ℚ) : Decidable (ctx.ShortOf quantity) :=
  inferInstanceAs (Decidable (∃ pair ∈ ctx.sidePairs, _))

/-- `evaluate`. Missing depth and unknown costs reject the tier; a value that is no cost at all
    raises. -/
def evaluate (notional : ℚ) : Except Raised CapitalTierQualification :=
  let targetQuantity := notional / ctx.conservativeReference
  let rejected (reason : Rejection) (legEstimates : List LegExecutionEstimate) :=
    (rejectedTier ctx.opportunity notional reason).map
      (fun tier => { tier with
        targetBaseQuantity := some targetQuantity
        legEstimates := legEstimates })
  -- the reserve is asked for before the costs are known
  if ctx.ShortOf (targetQuantity * ctx.reserveRatio) then rejected (.reserve ctx.reserveRatio) []
  else
    match economicCosts ctx.opportunity notional ctx.settings ctx.worstBookAge
      (ctx.effectiveLatencyModel notional) with
    | .error (.unknownVenueFee message) => rejected (.costs message) []
    | .error (.borrowCostUnavailable message) => rejected (.costs message) []
    | .error (.valueError message) => .error (.valueError message)
    | .ok costs => do
      let (legEstimates, complete) ← estimateLegs targetQuantity ctx.legBooks []
      if complete then ctx.filledTier notional targetQuantity costs legEstimates
      else rejected .depth legEstimates

/-! ### The search for the capacity -/

/-- `tolerance`. -/
def tolerance : ℚ := max (1 / 100) ctx.settings.capacitySearchToleranceUsd

/-- The capacity and the return at it. The ceiling is tried first and a probe of one tolerance
    next, and only between the two is there something to search. -/
def capacitySearch : Except Raised (ℚ × Option (WithBot ℚ)) :=
  if 0 < ctx.visibleDepthCeiling then do
    let upper := ctx.visibleDepthCeiling
    let upperEval ← ctx.evaluate upper
    -- the whole visible depth passes
    if upperEval.qualifies then .ok (upper, some upperEval.netAnnualizedReturn)
    else
      let probe := min ctx.tolerance upper
      let probeEval ← ctx.evaluate probe
      if probeEval.qualifies then
        -- the probe qualifies and the ceiling does not: 64 halvings at most
        let bracket ← bisect ctx.evaluate CapitalTierQualification.qualifies ctx.tolerance 64
          ⟨probe, upper, probeEval⟩
        .ok (bracket.low, some bracket.best.netAnnualizedReturn)
      else .ok (0, none)
  else .ok (0, none)

end PairContext

/-! ### The qualification -/

/-- What the checks on the legs and their books come to. -/
inductive Preparation
  | rejected (reason : Rejection)
  | ready (ctx : PairContext)

/-- The checks on the legs and their books. The books are looked up by venue, asset and market,
    the last one listed for each, and the first check that fails rejects the pair. -/
def prepare (opportunity : Opportunity) (books : List OrderBookSnapshot) (settings : Settings)
    (now : Instant) (latencyModel : Option EmpiricalLatencyModel)
    (latencyModelResolver : Option (Opportunity → ℚ → EmpiricalLatencyModel)) : Preparation :=
  if opportunity.legs.length ≠ 2 then .rejected .notTwoLegs
  else
    let bookMap := Dict.collect bookKey books
    let missing := opportunity.legs.filter (fun leg => (bookMap.get? (legKey leg)).isNone)
    let legBooks := opportunity.legs.filterMap
      -- the legs with a book, in the order of the opportunity
      (fun leg => (bookMap.get? (legKey leg)).map (fun book => (leg, book)))
    if missing ≠ [] then
      .rejected (.missingBooks (missing.map
        (fun leg => leg.venue ++ ":" ++ leg.asset ++ ":" ++ leg.marketKind.value)))
    else
      let observed := legBooks.map (fun pair => pair.2.observedAt)
      let bookAges := observed.map (fun observedAt => max 0 (totalSeconds (now - observedAt)))
      let skew := match observed with
        | [first, second] => |totalSeconds (first - second)|
        | _ => 0
      if ∃ age ∈ bookAges, settings.maxOrderBookAgeSeconds < age then .rejected .staleBook
      else if settings.maxOrderBookSkewSeconds < skew then .rejected (.bookSkew skew)
      else .ready ⟨opportunity, settings, latencyModel, latencyModelResolver, legBooks, bookAges⟩

/-- `qualify_opportunity`. A pair that cannot be prepared is rejected at every rung with the
    same reason and has no capacity. -/
def qualifyOpportunity (opportunity : Opportunity) (books : List OrderBookSnapshot)
    (settings : Settings) (notionalsUsd : Option (List ℚ)) (now : Instant)
    (latencyModel : Option EmpiricalLatencyModel)
    (latencyModelResolver : Option (Opportunity → ℚ → EmpiricalLatencyModel)) :
    Except Raised OpportunityExecutability :=
  -- an empty list of notionals is no list, and the tiers of the settings are used
  let notionals := match notionalsUsd with
    | some (notional :: rest) => notional :: rest
    | _ => settings.capitalTiersUsd
  match prepare opportunity books settings now latencyModel latencyModelResolver with
  | .rejected reason => do
    let tiers ← notionals.mapM (fun notional => rejectedTier opportunity notional reason)
    .ok
      { opportunityId := opportunity.id
        strategy := opportunity.strategy
        asset := opportunity.asset
        observedAt := now
        tiers := tiers
        maxQualifiedNotionalUsd := 0
        visibleDepthCeilingUsd := 0
        estimatedCapacityNotionalUsd := 0
        capacityFrontierNetAnnualizedReturn := none }
  | .ready ctx => do
    let tiers ← notionals.mapM ctx.evaluate
    let (capacity, capacityReturn) ← ctx.capacitySearch
    .ok
      { opportunityId := opportunity.id
        strategy := opportunity.strategy
        asset := opportunity.asset
        observedAt := now
        tiers := tiers
        maxQualifiedNotionalUsd := ((tiers.filter CapitalTierQualification.qualifies).map
          (fun tier => (tier.notionalUsdPerLeg : ℚ))).max?.getD 0
        visibleDepthCeilingUsd := ctx.visibleDepthCeiling
        estimatedCapacityNotionalUsd := capacity
        capacityFrontierNetAnnualizedReturn := capacityReturn }

end InefficiencyEngine.Execution
