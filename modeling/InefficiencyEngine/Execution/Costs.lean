import InefficiencyEngine.Lib.Loop
import InefficiencyEngine.Portfolio.Market
import Mathlib.Tactic.FieldSimp
import Mathlib.Tactic.Ring

namespace InefficiencyEngine.Execution

open Portfolio

/-!
# Economic costs

`costs.py`: the fees, financing, collateral and latency costs of a pair.  Of all of them only the
capital required depends on the notional, and in proportion, so that the costs of any notional are
those of one dollar (`economicCosts_eq`): the capital multiple and every cost in basis points are
the same.
-/

/-! ### What costs are read from -/

/-- The settings that costs and qualification read. -/
structure Settings where
  minNetAnnualizedReturn : ℚ
  maxOrderBookAgeSeconds : ℚ
  maxOrderBookSkewSeconds : ℚ
  exitSlippageMultiplier : ℚ
  capacitySearchToleranceUsd : ℚ
  coinbaseSpotTakerFeeBps : ℚ
  hyperliquidPerpTakerFeeBps : ℚ
  bybitSpotTakerFeeBps : ℚ
  bybitDerivativesTakerFeeBps : ℚ
  krakenSpotTakerFeeBps : ℚ
  okxSpotTakerFeeBps : ℚ
  okxDerivativesTakerFeeBps : ℚ
  spotCollateralFraction : ℚ
  perpCollateralFraction : ℚ
  collateralOpportunityCostAnnual : ℚ
  spotShortBorrowAnnual : Option ℚ
  expectedOrderAckLatencyMs : ℚ
  expectedHedgeLatencyMs : ℚ
  latencyRiskBpsPerSecond : ℚ
  hedgeLiquidityReserveRatio : ℚ
  hedgeRecoveryBufferBps : ℚ
  capitalTiersUsd : List ℚ

/-- `Strategy`. The four strategies whose opportunities the scan builds. -/
inductive Strategy
  | fundingDispersion
  | spotPerpBasis
  | futuresBasis
  | cexSpotDislocation
  deriving DecidableEq

/-- The fields of an `OpportunityLeg` that are read. -/
structure OpportunityLeg where
  venue : String
  asset : String
  marketKind : MarketKind
  side : Side

/-- The fields of an `Opportunity` that are read. -/
structure Opportunity where
  id : String
  strategy : Strategy
  asset : String
  legs : List OpportunityLeg
  grossEdgeBpsPerHour : ℚ
  modeledCostBps : ℚ
  holdingHours : ℚ
  safetyBufferBpsPerHour : ℚ

/-- How a latency was interpolated. -/
inductive InterpolationMode
  | fixed
  | singleHorizon
  | linearInterval
  deriving DecidableEq

/-- The figures of a latency model that costs carry over as they are, with the values they have
    without a model. -/
structure LatencyFigures where
  modelScope : String := "fixed"
  scopeFallbacks : List String := []
  collectorLatencyReferenceMs : Option ℚ := none
  executionLatencyEmpirical : Bool := false
  referenceUpperHorizonSeconds : Option ℚ := none
  referenceLowerHorizonSeconds : Option ℚ := none
  interpolationWeight : ℚ := 0
  interpolationMode : InterpolationMode := .fixed
  cohortSampleCount : ℕ := 0
  effectiveSampleSize : ℕ := 0
  confidenceGatePassed : Bool := false
  pairFillProbability : Option ℚ := none
  pairFillCiLower : Option ℚ := none
  reserveFillProbability : Option ℚ := none
  captureProbability : Option ℚ := none
  captureCiLower : Option ℚ := none
  hedgeRecoveryProbability : Option ℚ := none
  partialFillProbability : Option ℚ := none
  unhedgedFractionP95 : Option ℚ := none
  hedgeRecoveryLossP95Bps : Option ℚ := none
  queuePositionSupported : Bool := false

/-- The fields of an `EmpiricalLatencyModel` that are read. -/
structure EmpiricalLatencyModel where
  figures : LatencyFigures
  usableForQualification : Bool
  effectiveDecisionToHedgeLatencyMs : Option ℚ
  referenceLatencyMs : Option ℚ
  empiricalLatencyRiskBps : Option ℚ

/-! ### The costs -/

/-- Where a latency cost comes from. -/
inductive LatencySource
  | fixed
  | empiricalShadow
  deriving DecidableEq

/-- Where a recovery buffer comes from. -/
inductive BufferSource
  | fixed
  | maxFixedEmpirical
  deriving DecidableEq

/-- `EconomicCostBreakdown`. The costs of an opportunity one by one, with the sources of the
    modelled ones and their total. -/
structure EconomicCostBreakdown where
  screeningCostFloorBps : ℚ
  venueRoundtripFeeBps : ℚ
  transactionCostBps : ℚ
  financingCostBps : ℚ
  collateralOpportunityCostBps : ℚ
  latencyRiskBps : ℚ
  latencyModelSource : LatencySource
  latencyReferenceMs : Option ℚ
  figures : LatencyFigures
  hedgeRecoveryBufferBps : ℚ
  hedgeRecoveryBufferSource : BufferSource
  totalNonSlippageCostBps : ℚ
  capitalRequiredUsd : ℚ
  capitalMultiple : ℚ

/-- What the costs raise. -/
inductive CostError
  /-- `UnknownVenueFeeError`. -/
  | unknownVenueFee (message : String)
  /-- `BorrowCostUnavailableError`. -/
  | borrowCostUnavailable (message : String)
  | valueError (message : String)
  deriving DecidableEq

/-- `taker_fee_bps`. A leg without a fee of its own raises instead of being priced at zero. -/
def takerFeeBps (leg : OpportunityLeg) (settings : Settings) : Except CostError ℚ :=
  if leg.venue = "Coinbase" ∧ leg.marketKind = .spot then .ok settings.coinbaseSpotTakerFeeBps
  else if leg.venue = "HlPerp" ∧ leg.marketKind = .perpetual then
    .ok settings.hyperliquidPerpTakerFeeBps
  else if leg.venue = "Bybit" ∧ leg.marketKind = .spot then .ok settings.bybitSpotTakerFeeBps
  else if leg.venue = "Bybit" ∧ leg.marketKind ∈ [.perpetual, .future] then
    .ok settings.bybitDerivativesTakerFeeBps
  else if leg.venue = "Kraken" ∧ leg.marketKind = .spot then .ok settings.krakenSpotTakerFeeBps
  else if leg.venue = "OKX" ∧ leg.marketKind = .spot then .ok settings.okxSpotTakerFeeBps
  else if leg.venue = "OKX" ∧ leg.marketKind ∈ [.perpetual, .future] then
    .ok settings.okxDerivativesTakerFeeBps
  else .error (.unknownVenueFee
    ("no explicit taker fee model for " ++ leg.venue ++ ":" ++ leg.marketKind.value))

/-- `collateral_fraction`. -/
def collateralFraction (leg : OpportunityLeg) (settings : Settings) : ℚ :=
  match leg.marketKind with
  | .spot => settings.spotCollateralFraction
  | .perpetual | .future => settings.perpCollateralFraction

/-- `_financing_cost_bps`: only a short spot leg borrows. -/
def financingCostBps (leg : OpportunityLeg) (settings : Settings) (holdingHours : ℚ) :
    Except CostError ℚ :=
  if leg.marketKind = .spot ∧ leg.side = .short then
    match settings.spotShortBorrowAnnual with
    | none => .error (.borrowCostUnavailable
        ("spot short borrow cost unavailable for " ++ leg.venue ++ ":" ++ leg.asset))
    | some annual => .ok (annual * (holdingHours / (24 * 365)) * 10000)
  else .ok 0

/-- What the loop over the legs adds up. -/
structure LegTotals where
  roundtripFeeBps : ℚ
  financingBps : ℚ
  capitalRequired : ℚ

/-- One leg of the loop. -/
def addLeg (settings : Settings) (holdingHours notionalUsdPerLeg : ℚ) (totals : LegTotals)
    (leg : OpportunityLeg) : Except CostError LegTotals := do
  let fee ← takerFeeBps leg settings
  let financing ← financingCostBps leg settings holdingHours
  .ok
    { roundtripFeeBps := totals.roundtripFeeBps + fee * 2
      financingBps := totals.financingBps + financing
      capitalRequired := totals.capitalRequired
        + notionalUsdPerLeg * collateralFraction leg settings }

/-- The value of an optional number, where it is not zero. -/
def truthy (value : Option ℚ) : Option ℚ := value.filter (fun x => x ≠ 0)

/-- The latency terms of the costs: the risk of the hedge, the recovery buffer, and where they
    come from. -/
structure LatencyTerms where
  hedgeLatencyRiskBps : ℚ
  recoveryBufferBps : ℚ
  source : LatencySource
  referenceMs : Option ℚ
  figures : LatencyFigures
  bufferSource : BufferSource

/-- The latency terms without a model. -/
def fixedLatencyTerms (settings : Settings) : LatencyTerms :=
  let fixedExecutionLatencyMs :=
    max 0 settings.expectedOrderAckLatencyMs + max 0 settings.expectedHedgeLatencyMs
  { hedgeLatencyRiskBps := fixedExecutionLatencyMs / 1000 * settings.latencyRiskBpsPerSecond
    recoveryBufferBps := max 0 settings.hedgeRecoveryBufferBps
    source := .fixed
    referenceMs := some fixedExecutionLatencyMs
    figures := {}
    bufferSource := .fixed }

/-- The latency terms: those of a model that is usable, the fixed ones otherwise. A usable model
    replaces the fixed risk, while its recovery loss can only raise the fixed buffer. -/
def latencyTerms (settings : Settings) (latencyModel : Option EmpiricalLatencyModel) :
    LatencyTerms :=
  let fixed := fixedLatencyTerms settings
  match latencyModel with
  | none => fixed
  | some model =>
    if model.usableForQualification then
      { hedgeLatencyRiskBps := max 0 (model.empiricalLatencyRiskBps.getD 0)
        recoveryBufferBps := match model.figures.hedgeRecoveryLossP95Bps with
          | none => fixed.recoveryBufferBps
          | some loss => max fixed.recoveryBufferBps (max 0 loss)
        source := .empiricalShadow
        referenceMs := (truthy model.effectiveDecisionToHedgeLatencyMs).or model.referenceLatencyMs
        figures := model.figures
        bufferSource := match model.figures.hedgeRecoveryLossP95Bps with
          | none => .fixed
          | some _ => .maxFixedEmpirical }
    else fixed

/-- `economic_costs`, once the legs are added up. -/
def costBreakdown (opportunity : Opportunity) (notionalUsdPerLeg : ℚ) (settings : Settings)
    (worstBookAgeSeconds : ℚ) (latencyModel : Option EmpiricalLatencyModel) (totals : LegTotals) :
    EconomicCostBreakdown :=
  let capitalMultiple := totals.capitalRequired / notionalUsdPerLeg
  let collateralCostBps := settings.collateralOpportunityCostAnnual
    * (opportunity.holdingHours / (24 * 365)) * 10000 * capitalMultiple
  let bookAgeRiskBps := max 0 worstBookAgeSeconds * settings.latencyRiskBpsPerSecond
  let latency := latencyTerms settings latencyModel
  let latencyRiskBps := bookAgeRiskBps + latency.hedgeLatencyRiskBps
  let transactionCostBps := max opportunity.modeledCostBps totals.roundtripFeeBps
  { screeningCostFloorBps := opportunity.modeledCostBps
    venueRoundtripFeeBps := totals.roundtripFeeBps
    transactionCostBps := transactionCostBps
    financingCostBps := totals.financingBps
    collateralOpportunityCostBps := collateralCostBps
    latencyRiskBps := latencyRiskBps
    latencyModelSource := latency.source
    latencyReferenceMs := latency.referenceMs
    figures := latency.figures
    hedgeRecoveryBufferBps := latency.recoveryBufferBps
    hedgeRecoveryBufferSource := latency.bufferSource
    totalNonSlippageCostBps := transactionCostBps + totals.financingBps + collateralCostBps
      + latencyRiskBps + latency.recoveryBufferBps
    capitalRequiredUsd := totals.capitalRequired
    capitalMultiple := capitalMultiple }

/-- `economic_costs`. The costs of the legs are added up in their order, and the first leg
    without a fee ends the call. -/
def economicCosts (opportunity : Opportunity) (notionalUsdPerLeg : ℚ) (settings : Settings)
    (worstBookAgeSeconds : ℚ) (latencyModel : Option EmpiricalLatencyModel) :
    Except CostError EconomicCostBreakdown := do
  if notionalUsdPerLeg ≤ 0 then .error (.valueError "notional_usd_per_leg must be positive")
  else
    let totals ← opportunity.legs.foldlM
      (addLeg settings opportunity.holdingHours notionalUsdPerLeg) ⟨0, 0, 0⟩
    .ok (costBreakdown opportunity notionalUsdPerLeg settings worstBookAgeSeconds latencyModel
      totals)

/-! ### Costs and notionals -/

/-- The totals of a notional, those of a dollar given. -/
def LegTotals.scale (n : ℚ) (totals : LegTotals) : LegTotals :=
  { totals with capitalRequired := n * totals.capitalRequired }

/-- The costs of a notional, those of a dollar given. -/
def EconomicCostBreakdown.scale (n : ℚ) (costs : EconomicCostBreakdown) : EconomicCostBreakdown :=
  { costs with capitalRequiredUsd := n * costs.capitalRequiredUsd }

variable {settings : Settings} {holdingHours n : ℚ}

/-- One leg requires capital in proportion to the notional. -/
theorem addLeg_scale (totals : LegTotals) (leg : OpportunityLeg) :
    addLeg settings holdingHours n (totals.scale n) leg
      = (addLeg settings holdingHours 1 totals leg).map (LegTotals.scale n) := by
  unfold addLeg
  cases takerFeeBps leg settings with
  | error e => rfl
  | ok fee =>
    cases financingCostBps leg settings holdingHours with
    | error e => rfl
    | ok financing =>
      have hcapital : n * totals.capitalRequired + n * collateralFraction leg settings
          = n * (totals.capitalRequired + 1 * collateralFraction leg settings) := by ring
      show Except.ok _ = Except.ok _
      simp only [LegTotals.scale, hcapital]

/-- So do all of them. -/
theorem foldlM_addLeg_scale (legs : List OpportunityLeg) (totals : LegTotals) :
    legs.foldlM (addLeg settings holdingHours n) (totals.scale n)
      = (legs.foldlM (addLeg settings holdingHours 1) totals).map (LegTotals.scale n) := by
  induction legs generalizing totals with
  | nil => rfl
  | cons leg rest ih =>
    rw [List.foldlM_cons, List.foldlM_cons, addLeg_scale]
    cases addLeg settings holdingHours 1 totals leg with
    | error e => rfl
    | ok next => exact ih next

variable {opportunity : Opportunity} {worstBookAgeSeconds : ℚ}
  {latencyModel : Option EmpiricalLatencyModel}

theorem costBreakdown_scale (hn : 0 < n) (totals : LegTotals) :
    costBreakdown opportunity n settings worstBookAgeSeconds latencyModel (totals.scale n)
      = (costBreakdown opportunity 1 settings worstBookAgeSeconds latencyModel totals).scale n := by
  have hmultiple : n * totals.capitalRequired / n = totals.capitalRequired / 1 := by
    rw [div_one, mul_div_cancel_left₀ _ hn.ne']
  simp only [costBreakdown, LegTotals.scale, EconomicCostBreakdown.scale, hmultiple]

/-- **Costs.** The costs of a notional are those of a dollar, but for the capital required. -/
theorem economicCosts_eq (hn : 0 < n) :
    economicCosts opportunity n settings worstBookAgeSeconds latencyModel
      = (economicCosts opportunity 1 settings worstBookAgeSeconds latencyModel).map
          (EconomicCostBreakdown.scale n) := by
  have hzero : (⟨0, 0, 0⟩ : LegTotals) = LegTotals.scale n ⟨0, 0, 0⟩ := by
    rw [LegTotals.scale, mul_zero]
  unfold economicCosts
  rw [if_neg (not_le.mpr hn), if_neg (by norm_num), hzero, foldlM_addLeg_scale, ← hzero]
  cases opportunity.legs.foldlM (addLeg settings opportunity.holdingHours 1) ⟨0, 0, 0⟩ with
  | error e => rfl
  | ok totals => exact congrArg Except.ok (costBreakdown_scale hn totals)

/-! ### What the costs do not raise -/

end InefficiencyEngine.Execution
