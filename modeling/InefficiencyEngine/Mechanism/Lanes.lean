import InefficiencyEngine.Mechanism.Ledger

namespace InefficiencyEngine.Mechanism

open Portfolio

/-!
# What the lanes discover

`MechanismExecutionService.discover_specs`: each of the five lanes reads its own stored
evidence and the snapshot of the cycle, and dates its specs by that evidence.

* the yield lane dates a spec by the yield observation (`yieldSpecs`);
* the maker lane by the order book (`makerSpecs`);
* the volatility lane by the option it picks, whatever its age (`volatilitySpecs`);
* the liquidation lane by the liquidation (`liquidationSpecs`);
* the location lane by the completion of the snapshot (`locationSpecs`).
-/

/-! ### Sorting and selecting -/

/-- `rows.sort(key=key, reverse=True)`. -/
def sortDescending {α : Type} (key : α → ℚ) (rows : List α) : List α :=
  rows.insertionSort (fun a b => key b ≤ key a)

/-- `min(rows, key=key)`: the first of the smallest. -/
def minBy {α κ : Type} [LE κ] [DecidableLE κ] (key : α → κ) : List α → Option α
  | [] => none
  | row :: rest =>
    match minBy key rest with
    | none => some row
    | some best => if key row ≤ key best then some row else some best

/-- `statistics.median`. -/
def median (values : List ℚ) : ℚ :=
  let ordered := values.insertionSort (· ≤ ·)
  let n := ordered.length
  if n % 2 = 1 then ordered.getD (n / 2) 0
  else (ordered.getD (n / 2 - 1) 0 + ordered.getD (n / 2) 0) / 2

section Lanes

variable (R : MechanismRuntime) (evidence : StoredEvidence) (totalCapitalUsd : Positive)

/-! ### Yield -/

/-- `YieldCandidate`. An observation that passed the checks, with the yield after its costs and
    its risk. -/
structure YieldCandidate where
  observationId : String
  protocol : String
  asset : String
  kind : YieldKind
  observedAt : Instant
  capacityUsd : Positive
  holdingHours : Positive
  grossApy : ℚ
  annualizedEntryExitCost : ℚ
  totalRiskHaircutApy : ℚ
  conservativeNetApy : ℚ

/-- The candidate of an observation that is fresh and admitted. An observation that is stale, or
    not authoritative, commercial and point in time, gives none. -/
def yieldCandidate? (now : Instant) (maxAgeHours : ℚ) (observation : YieldObservation) :
    Option YieldCandidate :=
  if maxAgeHours < max 0 (hoursBetween observation.asOfAt now) then none
  else if ¬ (observation.authoritative && observation.commercialUsePermitted
      && observation.pointInTime) then none
  else
    let annualizedCost : ℚ := observation.entryExitCostBps / 10000 * 8760 / observation.holdingHours
    let risk : ℚ := observation.creditOrProtocolRiskHaircutApy
      + observation.slashingOrLiquidationRiskHaircutApy + observation.incentiveDecayHaircutApy
    some {
      observationId := observation.observationId
      protocol := observation.protocol
      asset := observation.asset
      kind := observation.kind
      observedAt := observation.observedAt
      capacityUsd := observation.capacityUsd
      holdingHours := observation.holdingHours
      grossApy := observation.grossApy
      annualizedEntryExitCost := annualizedCost
      totalRiskHaircutApy := risk
      conservativeNetApy := observation.grossApy - annualizedCost - risk }

/-- `YieldResearchService.candidates`: the best net yield first. -/
def yieldCandidates (now : Instant) : List YieldCandidate :=
  (evidence.yields.filterMap (yieldCandidate? now 24)).insertionSort (fun a b =>
    b.conservativeNetApy < a.conservativeNetApy
      ∨ b.conservativeNetApy = a.conservativeNetApy ∧ (b.capacityUsd : ℚ) ≤ a.capacityUsd)

/-- The hours a yield is held: those of the candidate, from one hour up to a week. -/
def yieldHolding (candidate : YieldCandidate) : Positive :=
  ⟨max 1 (min candidate.holdingHours (24 * 7)), lt_of_lt_of_le one_pos (le_max_left _ _)⟩

/-- The spec of a yield candidate. A twentieth of the capital goes into it at most, and a tenth
    of what the pool can take. -/
def yieldSpec? (observations : Dict String YieldObservation) (candidate : YieldCandidate) :
    Option MechanismTrialSpec :=
  match observations.get? candidate.observationId with
  | none => none
  | some observation =>
    if candidate.conservativeNetApy ≤ 0 then none
    else
      let holding := yieldHolding candidate
      let predicted : ℚ := candidate.conservativeNetApy * holding / 8760
      if predicted ≤ 0 then none
      else
        let capital : ℚ := min (totalCapitalUsd * (5 / 100)) (candidate.capacityUsd * (10 / 100))
        if h : 0 < capital then
          some {
            cohortKey := "yield|" ++ candidate.protocol ++ "|" ++ candidate.asset ++ "|"
              ++ candidate.kind.value
            asset := candidate.asset
            venues := [candidate.protocol]
            sourceObservedAt := observation.observedAt
            holdingHours := holding
            capitalUsd := ⟨capital, h⟩
            predictedNetReturn := predicted
            conflictKeys := ["yield:" ++ candidate.protocol ++ ":" ++ candidate.asset]
            settlementPayload := .yield {
              observationId := observation.observationId
              protocol := observation.protocol
              asset := observation.asset
              kind := observation.kind
              entryNetApy := candidate.conservativeNetApy
              entryExitCostBps := observation.entryExitCostBps
              capacityUsd := observation.capacityUsd } }
        else none

/-- `_yield_specs`. -/
def yieldSpecs (now : Instant) : List MechanismTrialSpec :=
  let observations := Dict.collect YieldObservation.observationId evidence.yields
  ((yieldCandidates evidence now).filterMap (yieldSpec? totalCapitalUsd observations)).take 12

/-! ### Liquidity provision -/

/-- The highest price of a side. -/
def maxPrice (levels : List OrderBookLevel) : ℚ :=
  levels.foldl (fun best level => max best level.price) 0

/-- The lowest price of a side. -/
def minPrice : List OrderBookLevel → ℚ
  | [] => 0
  | level :: rest => rest.foldl (fun best level => min best level.price) level.price

/-- The size quoted at a price. -/
def sizeAt (levels : List OrderBookLevel) (price : ℚ) : ℚ :=
  ((levels.filter (fun level => (level.price : ℚ) = price)).map
    (fun level => (level.size : ℚ))).sum

/-- The spec of a book, when the recent flow makes resting on both sides worth it. A book
    without four recent trades, with a crossed or empty top or with an edge below the adverse
    selection gives none. -/
def makerSpec? (snapshot : ScanSnapshot) (book : OrderBookSnapshot) : Option MechanismTrialSpec :=
  let trades := evidence.recentTrades R book.asset book.venue snapshot.completedAt (1 / 4) 500
  if trades.length < 4 then none
  else
    let bestBid := maxPrice book.bids
    let bestAsk := minPrice book.asks
    let mid := (bestBid + bestAsk) / 2
    if mid ≤ 0 ∨ bestAsk ≤ bestBid then none
    else
      let topDepth := min (sizeAt book.bids bestBid * bestBid) (sizeAt book.asks bestAsk * bestAsk)
      if topDepth ≤ 0 then none
      else
        let flow := (trades.map PublicTrade.notionalUsd).sum
        -- the share of the flow that reaches the top of the book
        let fillProbability := min (90 / 100) (flow / max (flow + topDepth) 1)
        let spreadReturn := (bestAsk - bestBid) / mid
        let adverseBuffer := max (1 / 10000) (R.alphaResearchCostFloorBps / 10000)
        -- the spread when filled, less the buffer against adverse selection
        let predicted := fillProbability * spreadReturn - adverseBuffer
        if predicted ≤ 0 then none
        else
          let capital : ℚ := min (totalCapitalUsd * (2 / 100)) (topDepth * (5 / 100))
          if h : 0 < capital then
            some {
              cohortKey := "maker|" ++ book.venue ++ "|" ++ R.upper book.asset ++ "|" ++ book.symbol
              asset := R.upper book.asset
              venues := [book.venue]
              sourceObservedAt := book.observedAt
              holdingHours := ⟨1 / 4, by norm_num⟩
              capitalUsd := ⟨capital, h⟩
              predictedNetReturn := predicted
              conflictKeys := ["maker:" ++ book.venue ++ ":" ++ book.symbol]
              settlementPayload := .maker {
                venue := book.venue
                asset := R.upper book.asset
                symbol := book.symbol
                marketKind := book.marketKind
                bid := bestBid
                ask := bestAsk
                mid := mid
                quantity := capital / mid
                estimatedFillProbability := fillProbability
                queue := none } }
          else none

/-- `_maker_specs`. -/
def makerSpecs (snapshot : ScanSnapshot) : List MechanismTrialSpec :=
  (sortDescending MechanismTrialSpec.predictedNetReturn
    (snapshot.orderBooks.filterMap (makerSpec? R evidence totalCapitalUsd snapshot))).take 8

/-! ### Volatility -/

/-- The annualized squared returns between consecutive quotes. -/
def varianceRates (ordered : List MarketQuote) : List ℚ :=
  (ordered.zip ordered.tail).filterMap (fun (previous, current) =>
    let dt : ℚ := (current.observedAt - previous.observedAt : Int) / 1000000
    if dt ≤ 0 then none
    else
      let r := R.log (current.mid / previous.mid)
      some (r * r * (365 * 24 * 3600) / dt))

/-- `_realized_volatility` of an underlying, from the spot quotes among the newest five
    thousand of a day. -/
def realizedVolatility (now : Instant) (underlying : String) : Option ℚ :=
  let cutoff := now - timedeltaHours 24
  let rows := ((evidence.marketQuotes.filter (fun row => cutoff ≤ row.observedAt)).reverse).take 5000
  let quotes := rows.filter (fun quote => quote.marketKind = .spot
    && (underlying = "BTC" || underlying = "ETH") && R.upper quote.asset = underlying)
  let rates := varianceRates R
    (quotes.insertionSort (fun a b => a.observedAt ≤ b.observedAt))
  if 3 ≤ rates.length then some (R.sqrt (max 0 (fmean rates))) else none

/-- How far the delta of an option is from that of an option at the money. -/
def OptionQuoteObservation.moneyness (row : OptionQuoteObservation) : ℚ := |(|row.delta| - 1 / 2)|

/-- The quotes near the money by underlying and expiry, in the order of their first quote. -/
def optionGroups : Dict (String × Instant) (List OptionQuoteObservation) :=
  (evidence.options.filter (fun row => row.authoritative && row.commercialUsePermitted
      && row.pointInTime && row.moneyness ≤ 20 / 100)).foldl
    (fun groups row => groups.set (row.underlying, row.expiry)
      ((groups.get? (row.underlying, row.expiry)).getD [] ++ [row])) Dict.empty

/-- `VolatilityResearchCandidate`. What a surface of options says about an underlying, and which
    way it trades it. -/
structure VolatilityCandidate where
  underlying : String
  observedAt : Instant
  expiry : Instant
  optionQuoteCount : ℕ
  medianAtmImpliedVolatility : ℚ
  realizedVolatility : ℚ
  volatilityRiskPremium : ℚ
  direction : VolatilityDirection
  representativeSpreadFraction : ℚ
  hedgeCostBps : ℚ

/-- The candidate of a group of options. -/
def volatilityCandidate? (now : Instant) (hedgeCostBps minAbsVrp : ℚ)
    (group : (String × Instant) × List OptionQuoteObservation) : Option VolatilityCandidate :=
  let ((underlying, expiry), rows) := group
  match realizedVolatility R evidence now underlying with
  | none => none
  | some realized =>
    if realized ≤ 0 ∨ rows.length < 2 then none
    else
      let iv := median (rows.map (fun row => (row.impliedVolatility : ℚ)))
      let vrp := iv - realized
      if |vrp| < minAbsVrp then none
      else some {
        underlying := underlying
        observedAt := rows.foldl (fun latest row => max latest row.observedAt)
          (rows.head?.elim 0 OptionQuoteObservation.observedAt)
        expiry := expiry
        optionQuoteCount := rows.length
        medianAtmImpliedVolatility := iv
        realizedVolatility := realized
        volatilityRiskPremium := vrp
        direction := if 0 < vrp then .shortVolatility else .longVolatility
        representativeSpreadFraction := median (rows.map (fun row => (row.ask - row.bid) / row.mid))
        hedgeCostBps := hedgeCostBps }

/-- `VolatilityResearchService.candidates`: the largest premium first. -/
def volatilityCandidates (now : Instant) (hedgeCostBps minAbsVrp : ℚ) : List VolatilityCandidate :=
  sortDescending (fun candidate => |candidate.volatilityRiskPremium|)
    ((optionGroups evidence).items.filterMap
      (volatilityCandidate? R evidence now hedgeCostBps minAbsVrp))

/-- The hours an option is held: a quarter of the time to its expiry, within bounds. -/
def volatilityHolding (snapshot : ScanSnapshot) (expiry : Instant) : Positive :=
  ⟨max 1 (min 24 (hoursBetween snapshot.completedAt expiry / 4)),
    lt_of_lt_of_le one_pos (le_max_left _ _)⟩

/-- The capital of a volatility trial. -/
def volatilityCapital : Positive :=
  ⟨min (totalCapitalUsd * (2 / 100)) (max 100 (totalCapitalUsd * (5 / 1000))),
    lt_min (mul_pos totalCapitalUsd.2 (by norm_num))
      (lt_of_lt_of_le (by norm_num) (le_max_left _ _))⟩

/-- The spec of a volatility candidate on the option closest to the money, of any age. The
    premium counts with a twentieth of its size, less the spread of the option and the cost of
    the hedge. -/
def volatilitySpec? (snapshot : ScanSnapshot) (candidate : VolatilityCandidate) :
    Option MechanismTrialSpec :=
  match minBy OptionQuoteObservation.moneyness (evidence.options.filter (fun row =>
      row.underlying = candidate.underlying && row.expiry = candidate.expiry
        && row.moneyness ≤ 20 / 100)) with
  | none => none
  | some option =>
    let entryMid := option.mid
    let spread : ℚ := (option.ask - option.bid) / entryMid
    let hedgeCost := candidate.hedgeCostBps / 10000
    let predicted := max 0 (|candidate.volatilityRiskPremium| * (5 / 100) - spread - hedgeCost)
    if predicted ≤ 0 then none
    else
      -- the underlying enters at its first listed spot quote
      match snapshot.marketQuotes.find? (fun quote =>
          R.upper quote.asset = candidate.underlying && quote.marketKind = .spot) with
      | none => none
      | some underlyingQuote =>
        some {
          cohortKey := "vol|" ++ option.venue ++ "|" ++ candidate.underlying ++ "|"
            ++ candidate.direction.value
          asset := candidate.underlying
          venues := [option.venue]
          sourceObservedAt := option.observedAt
          holdingHours := volatilityHolding snapshot candidate.expiry
          capitalUsd := volatilityCapital totalCapitalUsd
          predictedNetReturn := predicted
          conflictKeys := ["option:" ++ option.venue ++ ":" ++ option.underlying ++ ":"
            ++ R.isoformat option.expiry ++ ":" ++ R.formatNumber option.strike ++ ":"
            ++ option.optionType.value]
          settlementPayload := .volatility {
            contract := ⟨option.venue, option.underlying, option.expiry, option.strike,
              option.optionType⟩
            entryMid := entryMid
            entryDelta := option.delta
            entryGamma := 0
            underlyingEntryPrice := underlyingQuote.mid
            direction := candidate.direction
            spreadFraction := spread
            hedgeCostReturn := hedgeCost } }

/-- `_volatility_specs`. -/
def volatilitySpecs (snapshot : ScanSnapshot) : List MechanismTrialSpec :=
  ((volatilityCandidates R evidence snapshot.completedAt (max 2 R.alphaResearchCostFloorBps)
    (3 / 100)).filterMap (volatilitySpec? R evidence totalCapitalUsd snapshot)).take 6

/-! ### Liquidation distress -/

/-- The spec of a liquidation, on the side that absorbs it. Whoever absorbs a forced sale goes
    long, and half of the gap to the current quote is taken as the edge, up to one percent. -/
def liquidationSpec? (snapshot : ScanSnapshot) (event : SourceEventObservation) :
    Option MechanismTrialSpec :=
  match event.payload.price.float?, (event.payload.quantity.or event.payload.size).float? with
  | some price, some quantity =>
    let side := R.lower event.payload.side
    if price ≤ 0 ∨ quantity ≤ 0 ∨ ¬ (side = "buy" ∨ side = "sell") then none
    else
      -- the reference is the first listed Bybit perpetual of the asset
      match snapshot.marketQuotes.find? (fun quote => quote.venue = "Bybit"
          && R.upper quote.asset = R.upper event.assetText && quote.marketKind = .perpetual) with
      | none => none
      | some quote =>
        let direction : Side := if side = "sell" then .long else .short
        let immediateEdge : ℚ :=
          if direction = .long then quote.mid / price - 1 else 1 - quote.mid / price
        let cost := R.alphaResearchCostFloorBps / 10000
        -- half of the edge, at most one percent, less the research cost floor
        let predicted := min (1 / 100) (max 0 (immediateEdge * (1 / 2))) - cost
        if predicted ≤ 0 then none
        else
          let capital : ℚ := min (totalCapitalUsd * (2 / 100)) (price * quantity * (5 / 100))
          if h : 0 < capital then
            some {
              cohortKey := "liquidation|Bybit|" ++ R.upper event.assetText ++ "|" ++ direction.value
              asset := R.upper event.assetText
              venues := ["Bybit"]
              sourceObservedAt := event.eventAt
              holdingHours := 1
              capitalUsd := ⟨capital, h⟩
              predictedNetReturn := predicted
              conflictKeys := ["liquidation:" ++ event.eventId]
              settlementPayload := .liquidation {
                eventId := event.eventId
                venue := "Bybit"
                asset := R.upper event.assetText
                symbol := if event.payload.symbol = "" then event.asset.getD "None" ++ "USDT"
                  else event.payload.symbol
                entryPrice := price
                direction := direction
                quantity := quantity
                costReturn := cost
                observedAt := none
                captureProbability := none } }
          else none
  | _, _ => none

/-- `_liquidation_specs`. -/
def liquidationSpecs (snapshot : ScanSnapshot) : List MechanismTrialSpec :=
  ((evidence.liquidationEvents snapshot.completedAt).filterMap
    (liquidationSpec? R totalCapitalUsd snapshot)).take 8

/-! ### Capital location -/

/-- `CapitalLocationScore`. How well a venue and an asset have paid, and the reserve recommended
    there. -/
structure CapitalLocationScore where
  venue : String
  asset : String
  opportunityCount : ℕ
  meanPositiveNetAnnualizedReturn : ℚ
  recommendedWeight : ℚ
  recommendedReserveUsd : ℚ

/-- The returns of the positive opportunities by venue and asset. -/
def returnsByLocation : Dict (String × String) (List ℚ) :=
  (evidence.opportunities.filter (fun item => 0 < item.netAnnualizedReturn)).foldl
    (fun byLocation item => item.legVenues.foldl (fun byLocation venue =>
      byLocation.set (venue, R.upper item.asset)
        ((byLocation.get? (venue, R.upper item.asset)).getD [] ++ [item.netAnnualizedReturn]))
      byLocation) Dict.empty

/-- `CapitalLocationResearchService.plan`: its recommendations, the largest weight first. The
    score of a location is the number of its opportunities times the logarithm of their mean,
    and no location gets more than 35 percent before the weights are scaled. -/
def locationRecommendations (reserveCapitalUsd : ℚ) : List CapitalLocationScore :=
  let raw : List ((String × String) × List ℚ × ℚ) :=
    (returnsByLocation R evidence).items.map (fun (key, values) =>
      (key, values, max 0 (values.length * R.log1p (max 0 (fmean values)))))
  let totalScore : ℚ := (raw.map (fun row => row.2.2)).sum
  if totalScore ≤ 0 then []
  else
    let preliminary : List ((String × String) × List ℚ × ℚ) :=
      raw.map (fun (key, values, score) => (key, values, min (35 / 100) (score / totalScore)))
    let total : ℚ := (preliminary.map (fun row => row.2.2)).sum
    let normalization : ℚ := if total = 0 then 1 else total
    sortDescending CapitalLocationScore.recommendedWeight
      (preliminary.map (fun (key, values, weight) => {
        venue := key.1
        asset := key.2
        opportunityCount := values.length
        meanPositiveNetAnnualizedReturn := fmean values
        recommendedWeight := weight / normalization
        recommendedReserveUsd := reserveCapitalUsd * (weight / normalization) }))

/-- The spec of a recommendation, when a transfer to it was observed within a day. The
    historical edge is that of a day, taken at a tenth, less the cost and the latency of the
    transfer. -/
def locationSpec? (now : Instant) (recommendation : CapitalLocationScore) :
    Option MechanismTrialSpec :=
  match evidence.latestTransfer R recommendation.venue recommendation.asset with
  | none => none
  | some transfer =>
    if 24 < max 0 (hoursBetween transfer.observedAt now) then none
    else
      let capital : ℚ := min (totalCapitalUsd * (5 / 100)) recommendation.recommendedReserveUsd
      if h : 0 < capital then
        let transferCostReturn : ℚ := transfer.transferCostUsd / max capital 1
        let historicalEdge :=
          max 0 recommendation.meanPositiveNetAnnualizedReturn * 24 / 8760 * (10 / 100)
        let latencyPenalty : ℚ :=
          min (1 / 100) (transfer.transferLatencySeconds / 86400 * (1 / 1000))
        let predicted := historicalEdge - transferCostReturn - latencyPenalty
        if predicted ≤ 0 then none
        else
          some {
            cohortKey := "location|" ++ recommendation.venue ++ "|" ++ recommendation.asset
            asset := recommendation.asset
            venues := [recommendation.venue]
            sourceObservedAt := now
            holdingHours := 24
            capitalUsd := ⟨capital, h⟩
            predictedNetReturn := predicted
            conflictKeys := ["capital-location:" ++ recommendation.venue ++ ":" ++ recommendation.asset]
            settlementPayload := .location {
              venue := recommendation.venue
              asset := recommendation.asset
              historicalOpportunityCount := recommendation.opportunityCount
              historicalMeanAnnualizedReturn := recommendation.meanPositiveNetAnnualizedReturn
              transferCostUsd := transfer.transferCostUsd
              transferLatencySeconds := transfer.transferLatencySeconds } }
      else none

/-- `_location_specs`. -/
def locationSpecs (now : Instant) : List MechanismTrialSpec :=
  ((locationRecommendations R evidence (max 1000 (totalCapitalUsd * (20 / 100)))).take 8).filterMap
    (locationSpec? R evidence totalCapitalUsd now)

/-! ### All lanes -/

/-- `discover_specs`: the specs of all lanes, the best prediction first. -/
def discoverSpecs (snapshot : ScanSnapshot) : List MechanismTrialSpec :=
  sortDescending MechanismTrialSpec.predictedNetReturn
    (yieldSpecs evidence totalCapitalUsd snapshot.completedAt
      ++ makerSpecs R evidence totalCapitalUsd snapshot
      ++ volatilitySpecs R evidence totalCapitalUsd snapshot
      ++ liquidationSpecs R evidence totalCapitalUsd snapshot
      ++ locationSpecs R evidence totalCapitalUsd snapshot.completedAt)

end Lanes

end InefficiencyEngine.Mechanism
