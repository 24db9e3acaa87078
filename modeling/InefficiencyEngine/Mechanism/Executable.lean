import InefficiencyEngine.Mechanism.Settlement

namespace InefficiencyEngine.Mechanism

open Portfolio

/-!
# The settlement of the production service

`ExecutableMechanismExecutionService` settles more conservatively than its base: a yield is
held for at least an hour, a maker order fills once the visible queue ahead of it has traded
through and pays for an adverse markout, an option pays for the turnover of its hedge, and a
liquidation is entered at the first quote after it was observed and weighted by the
probability of capturing it.  Locations settle as in the base.

No settlement here raises: a number that cannot be read counts as its default.
-/

section Executable

variable (R : MechanismRuntime) (evidence : StoredEvidence)

/-! ### Yield -/

/-- The hours a yield trial was held, at least one. -/
def yieldHoldingHours (trial : MechanismForwardTrial) : ℚ :=
  max 1 (hoursBetween trial.sourceObservedAt trial.dueAt)

/-- What a yield trial accrued up to its exit observation. -/
def yieldAccrual (trial : MechanismForwardTrial) (payload : YieldPayload)
    (exit : YieldObservation) : ℚ :=
  let annualizedCost : ℚ := exit.entryExitCostBps / 10000 * 8760 / yieldHoldingHours trial
  let risk : ℚ := exit.creditOrProtocolRiskHaircutApy
    + exit.slashingOrLiquidationRiskHaircutApy + exit.incentiveDecayHaircutApy
  fmean [payload.entryNetApy, exit.grossApy - annualizedCost - risk] * yieldHoldingHours trial
    / 8760

/-- `ExecutableMechanismExecutionService._settle_yield`. A position that the exit has no room
    for pays its costs and earns nothing. -/
def settleYieldHeld (trial : MechanismForwardTrial) (payload : YieldPayload) :
    Option MechanismSettlementResult :=
  (nextYieldObservation R evidence trial payload).map fun exit =>
    let gross := yieldAccrual trial payload exit
    { maturedAt := exit.observedAt
      grossReturn := gross
      netReturn :=
        if (exit.capacityUsd : ℚ) < trial.capitalUsd then -payload.entryExitCostBps / 10000
        else gross
      settlementMethod := "realized_yield_accrual_plus_exit_liquidity" }

/-! ### Liquidity provision -/

/-- What the trades of a window did to one side of a maker order. -/
structure SideFill where
  touched : Bool
  through : ℚ
  filledAt : Option Instant

/-- The notional of a trade, as far as its numbers can be read. -/
def tradeNotional (event : SourceEventObservation) : ℚ :=
  max 0 (event.payload.price.getD 0 * (event.payload.size.or event.payload.quantity).getD 0)

/-- One trade on a side: a trade through its price uses up the queue ahead of the order, which
    is filled by the trade that reaches the required notional. -/
def SideFill.step (crosses : SourceEventObservation → Bool) (required : ℚ) (fill : SideFill)
    (event : SourceEventObservation) : SideFill :=
  if crosses event then
    let through := fill.through + tradeNotional event
    { touched := true
      through := through
      filledAt :=
        if fill.filledAt.isNone ∧ required ≤ through then some event.eventAt else fill.filledAt }
  else fill

/-- The fill of a side by the trades of a window. -/
def sideFill (crosses : SourceEventObservation → Bool) (required : ℚ)
    (trades : List SourceEventObservation) : SideFill :=
  trades.foldl (SideFill.step crosses required) ⟨false, 0, none⟩

/-- A sale at the bid or below. -/
def crossesBid (bid : ℚ) (event : SourceEventObservation) : Bool :=
  let price := event.payload.price.getD 0
  R.lower event.payload.aggressorSide = "sell" && 0 < price && price ≤ bid

/-- A purchase at the ask or above. -/
def crossesAsk (ask : ℚ) (event : SourceEventObservation) : Bool :=
  R.lower event.payload.aggressorSide = "buy" && ask ≤ event.payload.price.getD 0

/-- A sale that fills the bid of a trial without a queue: an unreadable price is infinite. -/
def fillsLegacyBid (bid : ℚ) (event : SourceEventObservation) : Bool :=
  R.lower event.payload.aggressorSide = "sell"
    && match event.payload.price with
      | .value q => q ≤ bid
      | _ => false

/-- When the sides of a maker order were filled: whether the bid was, and at what trade, and
    the same of the ask. -/
def makerFills (trial : MechanismForwardTrial) (payload : MakerPayload) :
    (Bool × Option Instant) × (Bool × Option Instant) :=
  let trades := makerTrades R evidence trial payload
  match payload.queue with
  | some queue =>
    let order := max 0 queue.orderNotionalUsd
    let bid := sideFill (crossesBid R payload.bid) (max 0 queue.bidQueueAheadUsd + order) trades
    let ask := sideFill (crossesAsk R payload.ask) (max 0 queue.askQueueAheadUsd + order) trades
    ((bid.filledAt.isSome, bid.filledAt), (ask.filledAt.isSome, ask.filledAt))
  | none =>
    ((trades.any (crossesBid R payload.bid),
        (trades.find? (fillsLegacyBid R payload.bid)).map SourceEventObservation.eventAt),
      (trades.any (crossesAsk R payload.ask),
        (trades.find? (crossesAsk R payload.ask)).map SourceEventObservation.eventAt))

/-- `_maker_markout` five seconds after a fill. -/
def makerMarkout (trial : MechanismForwardTrial) (payload : MakerPayload) (fillAt : Instant)
    (fillPrice direction : ℚ) : Option ℚ :=
  match evidence.quoteAfter R payload.venue (textOr payload.asset trial.asset)
      (fillAt + 5000000) (some payload.marketKind.value) (some payload.symbol) with
  | none => none
  | some quote =>
    if trial.dueAt < quote.observedAt ∨ fillPrice ≤ 0 then none
    else some (direction * (quote.mid / fillPrice - 1))

/-- The penalty of a side's adverse markout. -/
def adversePenalty (trial : MechanismForwardTrial) (payload : MakerPayload)
    (fill : Bool × Option Instant) (fillPrice direction : ℚ) : ℚ :=
  match fill with
  | (true, some fillAt) =>
    match makerMarkout R evidence trial payload fillAt fillPrice direction with
    | some value => max 0 (-value) * (1 / 2)
    | none => 0
  | _ => 0

/-- `ExecutableMechanismExecutionService._settle_maker`. The sides that the trades filled are
    marked at the exit quote, less what the market moved against them. -/
def settleMakerQueued (trial : MechanismForwardTrial) (payload : MakerPayload) :
    Option MechanismSettlementResult :=
  if !payload.settleable then none
  else
    (makerExitQuote R evidence trial payload).map fun exitQuote =>
      let fills := makerFills R evidence trial payload
      let gross := makerGross payload exitQuote.mid fills.1.1 fills.2.1
      let penalty := adversePenalty R evidence trial payload fills.1 payload.bid 1
        + adversePenalty R evidence trial payload fills.2 payload.ask (-1)
      { maturedAt := exitQuote.observedAt
        grossReturn := gross
        netReturn :=
          if fills.1.1 || fills.2.1 then gross - R.alphaResearchCostFloorBps / 10000 - penalty
          else 0
        settlementMethod := "shadow_queue_through_fill_plus_markouts_and_inventory_mark" }

/-! ### Volatility -/

/-- `_any_spot_quote_after`: of the first 500 rows of the asset from an instant on, the first
    spot quote. -/
def anySpotQuoteAfter (asset : String) (dueAt : Instant) : Option MarketQuote :=
  ((evidence.marketQuotes.filter (fun row => row.asset = R.upper asset
      && dueAt ≤ row.observedAt)).take 500).find? (fun quote => quote.marketKind = .spot)

/-- What the hedge of an option position costs: its turnover, the delta left unhedged and the
    gamma over the underlying's move. -/
def greekCosts (hedgeCostReturn underlyingMove entryDelta exitDelta entryGamma : ℚ) : ℚ :=
  max 0 hedgeCostReturn * (1 + |exitDelta - entryDelta|)
    + |underlyingMove| * |(entryDelta + exitDelta) / 2| * (25 / 100)
    + min (2 / 100) (|entryGamma| * underlyingMove * underlyingMove * (1 / 2))

/-- The sign a surface leg is held with. -/
def SurfaceLeg.sign (leg : SurfaceLeg) : ℚ := if 0 < leg.directionSign then 1 else -1

/-- The exits of the legs of a surface trade, unless one of them is missing. -/
def surfaceExits (dueAt : Instant) :
    List SurfaceLeg → Option (List (SurfaceLeg × OptionQuoteObservation))
  | [] => some []
  | leg :: rest => do
    let exit ← nextOption R evidence leg.contract dueAt
    if leg.entryMid ≤ 0 then none
    else
      let exits ← surfaceExits dueAt rest
      return (leg, exit) :: exits

/-- The settlement of a surface trade whose legs have their exits. -/
def surfaceResult (payload : SurfacePayload) (underlyingExit : MarketQuote)
    (exits : List (SurfaceLeg × OptionQuoteObservation)) : MechanismSettlementResult :=
  let underlyingMove : ℚ := underlyingExit.mid / payload.underlyingEntryPrice - 1
  let gross := fmean (exits.map (fun p => p.1.sign * (p.2.mid / p.1.entryMid - 1)))
  let entryDelta := (exits.map (fun p => p.1.sign * p.1.entryDelta)).sum
  let exitDelta := (exits.map (fun p => p.1.sign * p.2.delta)).sum
  let entryGamma := (exits.map (fun p => p.1.sign * p.1.entryGamma)).sum
  { maturedAt := exits.foldl (fun latest p => max latest p.2.observedAt) underlyingExit.observedAt
    grossReturn := gross
    netReturn := gross - max 0 payload.spreadFraction
      - greekCosts payload.hedgeCostReturn underlyingMove entryDelta exitDelta entryGamma
    settlementMethod :=
      "option_surface_relative_value_with_dynamic_delta_hedge_and_greek_penalties" }

/-- `ExecutableMechanismExecutionService._settle_volatility` of a surface trade. -/
def settleSurface (trial : MechanismForwardTrial) (payload : SurfacePayload) :
    Option MechanismSettlementResult :=
  match anySpotQuoteAfter R evidence trial.asset trial.dueAt with
  | none => none
  | some underlyingExit =>
    if payload.underlyingEntryPrice ≤ 0 then none
    else if payload.legs.length ≠ 2 then none
    else (surfaceExits R evidence trial.dueAt payload.legs).map (surfaceResult payload underlyingExit)

/-- The settlement of an option at its exit quote. -/
def optionResult (payload : VolatilityPayload) (underlyingExit : MarketQuote)
    (option : OptionQuoteObservation) : MechanismSettlementResult :=
  let underlyingMove : ℚ := underlyingExit.mid / payload.underlyingEntryPrice - 1
  let optionReturn := option.mid / payload.entryMid - 1
  let directional :=
    if payload.direction = .longVolatility then optionReturn else -optionReturn
  { maturedAt := max option.observedAt underlyingExit.observedAt
    grossReturn := directional
    netReturn := directional - max 0 payload.spreadFraction
      - greekCosts payload.hedgeCostReturn underlyingMove payload.entryDelta option.delta
        payload.entryGamma
    settlementMethod := "option_mark_forward_with_dynamic_delta_hedge_and_greek_penalties" }

/-- `ExecutableMechanismExecutionService._settle_volatility` of a trial on one option. -/
def settleOption (trial : MechanismForwardTrial) (payload : VolatilityPayload) :
    Option MechanismSettlementResult :=
  match anySpotQuoteAfter R evidence trial.asset trial.dueAt with
  | none => none
  | some underlyingExit =>
    if payload.underlyingEntryPrice ≤ 0 then none
    else
      match nextOption R evidence (volatilityContract trial payload) trial.dueAt with
      | none => none
      | some option =>
        if payload.entryMid ≤ 0 then none else some (optionResult payload underlyingExit option)

/-! ### Liquidation distress -/

/-- The perpetual quote of a liquidation's instrument from an instant on. -/
def liquidationQuote (trial : MechanismForwardTrial) (payload : LiquidationPayload)
    (dueAt : Instant) : Option MarketQuote :=
  evidence.quoteAfter R payload.venue (textOr payload.asset trial.asset) dueAt
    (some MarketKind.perpetual.value)
    (if payload.symbol = "" then none else some payload.symbol)

/-- The probability with which a liquidation is taken to be captured. -/
def LiquidationPayload.capture (payload : LiquidationPayload) : ℚ :=
  max 0 (min 1 (payload.captureProbability.getD 0))

/-- The settlement of a liquidation entered at one quote and left at another. -/
def liquidationResult (payload : LiquidationPayload) (reachable recovery : MarketQuote) :
    MechanismSettlementResult :=
  let recovered : ℚ :=
    if payload.direction = .long then recovery.mid / reachable.mid - 1
    else 1 - recovery.mid / reachable.mid
  let gross := recovered * payload.capture
  { maturedAt := recovery.observedAt
    grossReturn := gross
    netReturn := gross - max 0 payload.costReturn * payload.capture
    settlementMethod := "latency_adjusted_capture_probability_recovery_shadow"
    detail := { captureAssumed := some false, paperCaptureProbabilityModel := true } }

/-- `ExecutableMechanismExecutionService._settle_liquidation`. It takes a quote when the
    position could be reached and another at the due time. -/
def settleCapturedLiquidation (trial : MechanismForwardTrial) (payload : LiquidationPayload) :
    Option MechanismSettlementResult :=
  if payload.entryPrice ≤ 0 then none
  else
    match liquidationQuote R evidence trial payload
        (payload.observedAt.getD trial.sourceObservedAt),
      liquidationQuote R evidence trial payload trial.dueAt with
    | some reachable, some recovery => some (liquidationResult payload reachable recovery)
    | _, _ => none

/-! ### All lanes -/

/-- `settle_trial` of the production service. -/
def settleExecutable (trial : MechanismForwardTrial) : Option MechanismSettlementResult :=
  match trial.settlementPayload with
  | .yield payload => settleYieldHeld R evidence trial payload
  | .maker payload => settleMakerQueued R evidence trial payload
  | .volatility payload => settleOption R evidence trial payload
  | .surface payload => settleSurface R evidence trial payload
  | .liquidation payload => settleCapturedLiquidation R evidence trial payload
  | .location payload => settleLocation R evidence trial payload

/-- The entries of `detail` a lane's settlements carry: those of a liquidation say that the
    capture was modelled, not observed. -/
def SettlementPayload.detail : SettlementPayload → SettlementDetail
  | .liquidation _ => { captureAssumed := some false, paperCaptureProbabilityModel := true }
  | _ => {}

variable {R evidence} in
/-- The entries of a settlement's `detail` are those of its lane. Every lane builds its result
    with the detail of its payload on every path that returns one. -/
theorem detail_of_settleExecutable {trial : MechanismForwardTrial}
    {result : MechanismSettlementResult} (h : settleExecutable R evidence trial = some result) :
    result.detail = trial.settlementPayload.detail := by
  unfold settleExecutable at h
  cases hpayload : trial.settlementPayload with
  | yield payload =>
    rw [hpayload] at h
    obtain ⟨exit, -, rfl⟩ := Option.map_eq_some_iff.mp h
    rfl
  -- the maker lane has one result, built from its exit quote
  | maker payload =>
    rw [hpayload] at h
    change settleMakerQueued R evidence trial payload = some result at h
    unfold settleMakerQueued at h
    split at h
    · cases h
    · obtain ⟨exitQuote, -, rfl⟩ := Option.map_eq_some_iff.mp h
      rfl
  -- the option lane builds one result too, whatever its hedge costs
  | volatility payload =>
    rw [hpayload] at h
    change settleOption R evidence trial payload = some result at h
    unfold settleOption at h
    grind [SettlementPayload.detail, optionResult]
  | surface payload =>
    rw [hpayload] at h
    change settleSurface R evidence trial payload = some result at h
    unfold settleSurface at h
    split at h
    · cases h
    · split at h
      · cases h
      · split at h
        · cases h
        · obtain ⟨exits, -, rfl⟩ := Option.map_eq_some_iff.mp h
          rfl
  -- a liquidation has its result from a quote in reach and one at the due time
  | liquidation payload =>
    rw [hpayload] at h
    change settleCapturedLiquidation R evidence trial payload = some result at h
    unfold settleCapturedLiquidation at h
    grind [SettlementPayload.detail, liquidationResult]
  | location payload =>
    rw [hpayload] at h
    change settleLocation R evidence trial payload = some result at h
    unfold settleLocation at h
    grind [SettlementPayload.detail]

/-- The horizon of a candidate: `observed_at + timedelta(hours=holding_hours)`. -/
def MechanismPaperCandidate.dueAt (candidate : MechanismPaperCandidate) : Instant :=
  candidate.observedAt + timedeltaHours candidate.holdingHours

/-- The trial `settle_canonical_candidate` rebuilds from a stored candidate. -/
def MechanismPaperCandidate.canonicalTrial (candidate : MechanismPaperCandidate)
    (trialId : Uuid) (dueAt : Option Instant) : MechanismForwardTrial where
  trialId := trialId
  cohortKey := candidate.cohortKey
  asset := candidate.asset
  venues := candidate.venues
  sourceObservedAt := candidate.observedAt
  dueAt := dueAt.getD candidate.dueAt
  capitalUsd := candidate.capitalUsd
  predictedNetReturn := candidate.expectedNetReturn
  predictedProfitUsd := candidate.expectedProfitUsd
  settlementPayload := candidate.settlementPayload
  conflictKeys := candidate.conflictKeys
  stamps := candidate.stamps

/-- `settle_canonical_candidate`; `canonicalId` is the id of the rebuilt trial. -/
def settleCanonicalCandidate (ledger : MechanismLedger) (canonicalId : String → Uuid)
    (candidateId : String) (dueAt : Option Instant) : Option MechanismSettlementResult :=
  match ledger.candidate? candidateId with
  | none => none
  | some candidate =>
    settleExecutable R evidence (candidate.canonicalTrial (canonicalId candidateId) dueAt)

end Executable

end InefficiencyEngine.Mechanism
