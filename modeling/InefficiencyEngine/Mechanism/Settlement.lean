import InefficiencyEngine.Mechanism.Lanes

namespace InefficiencyEngine.Mechanism

open Portfolio

/-!
# How a mechanism trial settles

`MechanismExecutionService.settle_trial`: each lane settles its trials on the evidence
stored when the cycle reaches them.  A trial whose evidence is not there yet has no
settlement and stays pending.  Only the price of a public trade that is no number can make
a settlement raise.
-/

/-- `text or default`. -/
def textOr (text default : String) : String := if text = "" then default else text

section Lookups

variable (R : MechanismRuntime) (evidence : StoredEvidence)

/-! ### Evidence of a trial -/

/-- `_next_yield_observation`: the first observation of the protocol and asset from the
    horizon on. -/
def nextYieldObservation (trial : MechanismForwardTrial) (payload : YieldPayload) :
    Option YieldObservation :=
  minBy YieldObservation.observedAt (evidence.yields.filter (fun row =>
    row.protocol = payload.protocol
      && R.upper row.asset = R.upper (textOr payload.asset trial.asset)
      && trial.dueAt ≤ row.observedAt))

/-- The first five thousand rows of the public trades between two instants. -/
def tradesBetween (start stop : Instant) : List SourceEventObservation :=
  (evidence.events.filter (fun event => event.laneId = "liquidity_provision"
    && event.eventType = "public_trade" && start ≤ event.eventAt && event.eventAt ≤ stop)).take 5000

/-- The trades of a maker trial's instrument between its source and its horizon. -/
def makerTrades (trial : MechanismForwardTrial) (payload : MakerPayload) :
    List SourceEventObservation :=
  (tradesBetween evidence trial.sourceObservedAt trial.dueAt).filter (fun event =>
    R.upper event.assetText = R.upper (textOr payload.asset trial.asset)
      && event.payload.venue = payload.venue && event.payload.symbol = payload.symbol)

/-- The quote a maker trial marks its inventory at. -/
def makerExitQuote (trial : MechanismForwardTrial) (payload : MakerPayload) :
    Option MarketQuote :=
  evidence.quoteAfter R payload.venue (textOr payload.asset trial.asset) trial.dueAt
    (some payload.marketKind.value) (some payload.symbol)

/-- What a maker trial must say to be settled. -/
def MakerPayload.settleable (payload : MakerPayload) : Bool :=
  payload.venue ≠ "" && payload.symbol ≠ "" && 0 < payload.bid && payload.bid < payload.ask
    && 0 < payload.mid

/-- An observation of a contract, its strike up to `1e-9`. -/
def OptionContract.matches (contract : OptionContract) (row : OptionQuoteObservation) : Bool :=
  row.venue = contract.venue && row.underlying = R.upper contract.underlying
    && row.expiry = contract.expiry && |row.strike - contract.strike| < 1 / 10 ^ 9
    && row.optionType = contract.optionType

/-- `_next_option` and `_next_surface_leg`: the first observation of a contract from an
    instant on. -/
def nextOption (contract : OptionContract) (dueAt : Instant) : Option OptionQuoteObservation :=
  minBy OptionQuoteObservation.observedAt (evidence.options.filter (fun row =>
    contract.matches R row && dueAt ≤ row.observedAt))

/-- The first five thousand rows of the opportunities after the source and up to the
    horizon, of which those of the location are counted. -/
def locationOpportunities (trial : MechanismForwardTrial) (payload : LocationPayload) :
    List StoredOpportunity :=
  ((evidence.opportunities.filter (fun row => trial.sourceObservedAt < row.observedAt
      && row.observedAt ≤ trial.dueAt)).take 5000).filter (fun row =>
    R.upper row.asset = R.upper (textOr payload.asset trial.asset) && 0 < row.netAnnualizedReturn
      && row.legVenues.any (fun venue => venue = payload.venue))

/-! ### The lanes -/

/-- `_settle_yield`. The yield at the exit is averaged with that at the entry, over the holding
    time. -/
def settleYield (trial : MechanismForwardTrial) (payload : YieldPayload) :
    Option MechanismSettlementResult :=
  (nextYieldObservation R evidence trial payload).map fun exit =>
    let seconds : ℚ := (trial.dueAt - trial.sourceObservedAt : Int) / 1000000
    let annualizedCost : ℚ := exit.entryExitCostBps / 10000 * 8760 / max 1 seconds * 3600
    let risk : ℚ := exit.creditOrProtocolRiskHaircutApy
      + exit.slashingOrLiquidationRiskHaircutApy + exit.incentiveDecayHaircutApy
    let exitNet := exit.grossApy - annualizedCost - risk
    let gross := fmean [payload.entryNetApy, exitNet]
      * hoursBetween trial.sourceObservedAt trial.dueAt / 8760
    { maturedAt := exit.observedAt
      grossReturn := gross
      netReturn :=
        if (exit.capacityUsd : ℚ) < trial.capitalUsd then -payload.entryExitCostBps / 10000
        else gross
      settlementMethod := "realized_yield_accrual_plus_exit_liquidity" }

/-- Whether a trade fills the resting bid: an absent price or a price of zero does not. -/
def fillsBid (bid : ℚ) (event : SourceEventObservation) : Except Raised Bool :=
  if R.lower event.payload.aggressorSide ≠ "sell" then .ok false
  else
    match event.payload.price with
    | .value q => .ok (q ≠ 0 && q ≤ bid)
    | .absent => .ok false
    | .unreadable => .error (.valueError "could not convert string to float")

/-- Whether a trade fills the resting ask. -/
def fillsAsk (ask : ℚ) (event : SourceEventObservation) : Except Raised Bool :=
  if R.lower event.payload.aggressorSide ≠ "buy" then .ok false
  else
    match event.payload.price.float? with
    | some q => .ok (ask ≤ q)
    | none => .error (.valueError "could not convert string to float")

/-- The gross return of a maker trial by which sides were filled. -/
def makerGross (payload : MakerPayload) (exitMid : ℚ) (bidFilled askFilled : Bool) : ℚ :=
  if bidFilled && askFilled then (payload.ask - payload.bid) / payload.mid
  else if bidFilled then (exitMid - payload.bid) / payload.mid
  else if askFilled then (payload.ask - exitMid) / payload.mid
  else 0

/-- `_settle_maker`. A side is filled once some trade crosses its price, and with neither side
    filled the trial earns and costs nothing. -/
def settleMaker (trial : MechanismForwardTrial) (payload : MakerPayload) :
    Except Raised (Option MechanismSettlementResult) :=
  if !payload.settleable then .ok none
  else
    match makerExitQuote R evidence trial payload with
    | none => .ok none
    | some exitQuote => do
      let trades := makerTrades R evidence trial payload
      let bidFilled ← trades.anyM (fillsBid R payload.bid)
      let askFilled ← trades.anyM (fillsAsk R payload.ask)
      let gross := makerGross payload exitQuote.mid bidFilled askFilled
      return some {
        maturedAt := exitQuote.observedAt
        grossReturn := gross
        netReturn :=
          if bidFilled || askFilled then gross - R.alphaResearchCostFloorBps / 10000 else 0
        settlementMethod := "shadow_post_only_fill_plus_inventory_mark" }

/-- The contract of a volatility trial, on the trial's asset when it names no underlying. -/
def volatilityContract (trial : MechanismForwardTrial) (payload : VolatilityPayload) :
    OptionContract :=
  { payload.contract with underlying := textOr payload.contract.underlying trial.asset }

/-- `_settle_volatility` of a trial on one option. The option is marked at its first quote from
    the horizon on, and the residual delta is charged on the move of the underlying, if that was
    quoted. -/
def settleVolatility (trial : MechanismForwardTrial) (payload : VolatilityPayload) :
    Option MechanismSettlementResult :=
  match nextOption R evidence (volatilityContract trial payload) trial.dueAt with
  | none => none
  | some option =>
    if payload.entryMid ≤ 0 then none
    else
      let optionReturn := option.mid / payload.entryMid - 1
      let directional :=
        if payload.direction = .longVolatility then optionReturn else -optionReturn
      let underlyingMove : ℚ :=
        -- a move that was not observed is no move
        match evidence.quoteAfter R "Coinbase" trial.asset trial.dueAt (some MarketKind.spot.value)
          none with
        | some quote =>
          if 0 < payload.underlyingEntryPrice then quote.mid / payload.underlyingEntryPrice - 1
          else 0
        | none => 0
      let residualDeltaPenalty := |underlyingMove| * |payload.entryDelta| * (25 / 100)
      some {
        maturedAt := option.observedAt
        grossReturn := directional
        netReturn := directional - payload.hedgeCostReturn - payload.spreadFraction
          - residualDeltaPenalty
        settlementMethod := "option_mark_forward_with_delta_hedge_cost_and_residual_penalty" }

/-- `_settle_liquidation`. A distressed price is settled at the first quote after the due time,
    less the costs. -/
def settleLiquidation (trial : MechanismForwardTrial) (payload : LiquidationPayload) :
    Option MechanismSettlementResult :=
  if payload.entryPrice ≤ 0 then none
  else
    (evidence.quoteAfter R payload.venue (textOr payload.asset trial.asset) trial.dueAt
      (some MarketKind.perpetual.value)
      (if payload.symbol = "" then none else some payload.symbol)).map fun quote =>
      let gross : ℚ :=
        if payload.direction = .long then quote.mid / payload.entryPrice - 1
        else 1 - quote.mid / payload.entryPrice
      { maturedAt := quote.observedAt
        grossReturn := gross
        netReturn := gross - payload.costReturn
        settlementMethod := "observed_liquidation_price_to_recovery_mark"
        detail := { captureAssumed := some false } }

/-- `_settle_location`: an empty window is evidence too, once the newest market quote row is
    from the horizon on. -/
def settleLocation (trial : MechanismForwardTrial) (payload : LocationPayload) :
    Option MechanismSettlementResult :=
  match evidence.marketQuotes.getLast? with
  | none => none
  | some latest =>
    if latest.observedAt < trial.dueAt then none
    else
      let hours := hoursBetween trial.sourceObservedAt trial.dueAt
      let opportunityValue := ((locationOpportunities R evidence trial payload).map (fun item =>
        max 0 item.netAnnualizedReturn * hours / 8760 * (10 / 100))).sum
      let transferCostReturn : ℚ := payload.transferCostUsd / trial.capitalUsd
      let latencyPenalty : ℚ := min (1 / 100) (payload.transferLatencySeconds / 86400 * (1 / 1000))
      some {
        maturedAt := trial.dueAt
        grossReturn := opportunityValue
        netReturn := opportunityValue - transferCostReturn - latencyPenalty
        settlementMethod := "forward_location_opportunity_incidence_minus_transfer_cost_latency" }

/-- `settle_trial`.  The service has no settlement for a surface payload: it has no expiry
    and no option type of its own, which no observation matches. -/
def settleMechanismTrial (trial : MechanismForwardTrial) :
    Except Raised (Option MechanismSettlementResult) :=
  match trial.settlementPayload with
  | .yield payload => .ok (settleYield R evidence trial payload)
  | .maker payload => settleMaker R evidence trial payload
  | .volatility payload => .ok (settleVolatility R evidence trial payload)
  | .surface _ => .ok none
  | .liquidation payload => .ok (settleLiquidation R evidence trial payload)
  | .location payload => .ok (settleLocation R evidence trial payload)

end Lookups

end InefficiencyEngine.Mechanism
