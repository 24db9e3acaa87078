import InefficiencyEngine.Mechanism.Executable

namespace InefficiencyEngine.Mechanism

open Portfolio

/-!
# What the production service discovers

`ExecutableMechanismExecutionService` reworks the specs of three lanes: a maker spec is
priced with the visible queue ahead of it, an option spec carries the gamma of its contract
and is joined by skew and term-structure specs on the option surface, and a liquidation spec
starts when it was observed and is weighted by the probability of capturing it.

`inLane_of_mem_executableSpecs`: whatever the evidence, the cohort of a discovered spec begins
with the name of its lane.
-/

section ExecutableLanes

variable (R : MechanismRuntime) (evidence : StoredEvidence) (totalCapitalUsd : Positive)

/-! ### Liquidity provision -/

/-- The last book of a maker spec's instrument. -/
def makerBook? (snapshot : ScanSnapshot) (asset : String) (payload : MakerPayload) :
    Option OrderBookSnapshot :=
  snapshot.orderBooks.reverse.find? (fun book => book.venue = payload.venue
    && R.upper book.asset = R.upper (textOr payload.asset asset) && book.symbol = payload.symbol)

/-- The notional quoted at a price. -/
def queueAt (levels : List OrderBookLevel) (price : ℚ) : ℚ :=
  ((levels.filter (fun level => (level.price : ℚ) = price)).map
    (fun level => (level.size : ℚ) * level.price)).sum

/-- A maker spec behind the visible queue. The fill probability is recomputed with the queues
    ahead of the order on both sides, and the spec keeps them for its settlement. -/
def queuedMakerSpec? (snapshot : ScanSnapshot) (spec : MechanismTrialSpec) :
    Option MechanismTrialSpec :=
  match spec.settlementPayload with
  | .maker payload =>
    match makerBook? R snapshot spec.asset payload with
    | none => none
    | some book =>
      if payload.bid ≤ 0 ∨ payload.ask ≤ payload.bid ∨ payload.mid ≤ 0 then none
      else
        let bidQueueUsd := queueAt book.bids payload.bid
        let askQueueUsd := queueAt book.asks payload.ask
        let trades := evidence.recentTrades R spec.asset payload.venue snapshot.completedAt (1 / 4) 500
        let flowNotional := (trades.map PublicTrade.notionalUsd).sum
        let orderNotional : ℚ := max 1 spec.capitalUsd
        -- the flow must go through both queues and both orders
        let queueBurden := bidQueueUsd + askQueueUsd + 2 * orderNotional
        let queueFillProbability :=
          min (80 / 100) (flowNotional / max (flowNotional + queueBurden) 1)
        let spreadReturn := (payload.ask - payload.bid) / payload.mid
        let costFloor := max (1 / 10000) (R.alphaResearchCostFloorBps / 10000)
        let predicted := queueFillProbability * spreadReturn - costFloor
        if predicted ≤ 0 then none
        else
          some { spec with
            predictedNetReturn := predicted
            settlementPayload := .maker { payload with
              estimatedFillProbability := queueFillProbability
              queue := some ⟨bidQueueUsd, askQueueUsd, orderNotional⟩ } }
  | _ => none

/-- `ExecutableMechanismExecutionService._maker_specs`. -/
def queuedMakerSpecs (snapshot : ScanSnapshot) : List MechanismTrialSpec :=
  (sortDescending MechanismTrialSpec.predictedNetReturn
    ((makerSpecs R evidence totalCapitalUsd snapshot).filterMap
      (queuedMakerSpec? R evidence snapshot))).take 8

/-! ### Volatility -/

/-- `max(rows, key=key)`: the first of the largest. -/
def maxBy {α κ : Type} [LE κ] [DecidableLE κ] (key : α → κ) : List α → Option α
  | [] => none
  | row :: rest =>
    match maxBy key rest with
    | none => some row
    | some best => if key best ≤ key row then some row else some best

/-- A spec on one option, with the gamma of the newest observation of its contract. -/
def greekSpec (spec : MechanismTrialSpec) : MechanismTrialSpec :=
  match spec.settlementPayload with
  | .volatility payload =>
    let contract :=
      { payload.contract with underlying := textOr payload.contract.underlying spec.asset }
    match maxBy OptionQuoteObservation.observedAt (evidence.options.filter (contract.matches R)) with
    | none => spec
    | some option =>
      { spec with
        settlementPayload := .volatility { payload with entryGamma := option.gamma.getD 0 } }
  | _ => spec

/-- The leg of a surface trade on an option, whose middle is positive. -/
def surfaceLeg (option : OptionQuoteObservation) (sign : ℚ) : SurfaceLeg where
  contract := ⟨option.venue, option.underlying, option.expiry, option.strike, option.optionType⟩
  entryMid := option.mid
  entryDelta := option.delta
  entryGamma := option.gamma.getD 0
  directionSign := sign

/-- Half the relative spread of an option. -/
def halfSpread (option : OptionQuoteObservation) : ℚ :=
  (option.ask - option.bid) / option.mid * (1 / 2)

/-- The hedge cost of a surface trade. -/
def surfaceHedgeCost : ℚ := max 2 R.alphaResearchCostFloorBps / 10000

/-- What a surface trade on two options of one underlying is named by. -/
structure SurfaceTrade where
  venue : String
  underlying : String
  kind : String
  conflictKey : String
  /-- The expiry that bounds the holding time. -/
  expiry : Instant
  first : OptionQuoteObservation
  second : OptionQuoteObservation

/-- The spec of a surface trade: the option of the higher volatility is sold and the other
    bought, when their gap of at least three points pays for spread and hedge. -/
def surfaceSpec? (snapshot : ScanSnapshot) (spot : MarketQuote) (trade : SurfaceTrade) :
    Option MechanismTrialSpec :=
  let ivGap : ℚ := trade.second.impliedVolatility - trade.first.impliedVolatility
  if |ivGap| < 3 / 100 then none
  else
    let high := if 0 < ivGap then trade.second else trade.first
    let low := if 0 < ivGap then trade.first else trade.second
    let spreadCost := halfSpread high + halfSpread low
    let predicted := |ivGap| * (2 / 100) - spreadCost - surfaceHedgeCost R
    if predicted ≤ 0 then none
    else
      some {
        cohortKey := "vol|" ++ trade.venue ++ "|" ++ trade.underlying ++ "|" ++ trade.kind
        asset := trade.underlying
        venues := [trade.venue]
        sourceObservedAt := max trade.first.observedAt trade.second.observedAt
        holdingHours :=
          ⟨max 1 (min 12 (hoursBetween snapshot.completedAt trade.expiry / 4)),
            lt_of_lt_of_le one_pos (le_max_left _ _)⟩
        capitalUsd :=
          ⟨max 100 (totalCapitalUsd * (1 / 100)), lt_of_lt_of_le (by norm_num) (le_max_left _ _)⟩
        predictedNetReturn := predicted
        settlementPayload := .surface {
          legs := [surfaceLeg high (-1), surfaceLeg low 1]
          underlyingEntryPrice := spot.mid
          spreadFraction := spreadCost
          hedgeCostReturn := surfaceHedgeCost R }
        conflictKeys := [trade.conflictKey] }

/-- The option of a type whose delta is closest to a target. -/
def closestDelta (target : ℚ) (rows : List OptionQuoteObservation) : Option OptionQuoteObservation :=
  minBy (fun row => |(|row.delta| - target)|) rows

/-- The skew trade of an expiry: the call against the put near a delta of 0.4. -/
def skewTrade? (venue underlying : String) (surface : List OptionQuoteObservation)
    (expiry : Instant) : Option SurfaceTrade :=
  let rows := surface.filter (fun row => row.expiry = expiry)
  match closestDelta (40 / 100) (rows.filter (fun row => row.optionType = .call)),
    closestDelta (40 / 100) (rows.filter (fun row => row.optionType = .put)) with
  | some call, some put => some {
      venue := venue
      underlying := underlying
      kind := "skew_relative_value"
      conflictKey := "option-surface:" ++ venue ++ ":" ++ underlying ++ ":" ++ R.isoformat expiry
        ++ ":skew"
      expiry := expiry
      first := call
      second := put }
  | _, _ => none

/-- The term trade of a type: the nearest against the next expiry at the money. -/
def termTrade? (venue underlying : String) (surface : List OptionQuoteObservation)
    (near far : Instant) (optionType : OptionType) : Option SurfaceTrade :=
  let rows := surface.filter (fun row => row.optionType = optionType)
  match closestDelta (50 / 100) (rows.filter (fun row => row.expiry = near)),
    closestDelta (50 / 100) (rows.filter (fun row => row.expiry = far)) with
  | some nearOption, some farOption => some {
      venue := venue
      underlying := underlying
      kind := "term_relative_value|" ++ optionType.value
      conflictKey := "option-surface:" ++ venue ++ ":" ++ underlying ++ ":" ++ optionType.value
        ++ ":term"
      expiry := near
      first := nearOption
      second := farOption }
  | _, _ => none

/-- The trades on the surface of a venue and underlying. -/
def surfaceTrades (venue underlying : String) (surface : List OptionQuoteObservation) :
    List SurfaceTrade :=
  let expiries := ((surface.map OptionQuoteObservation.expiry).dedup).insertionSort (· ≤ ·)
  (expiries.take 2).filterMap (skewTrade? R venue underlying surface)
    ++ match expiries with
      | near :: far :: _ =>
        [OptionType.call, OptionType.put].filterMap (termTrade? venue underlying surface near far)
      | _ => []

/-- The options of the last quarter of an hour, by venue and underlying in the order of their
    first observation. -/
def surfaceGroups (now : Instant) : Dict (String × String) (List OptionQuoteObservation) :=
  (evidence.options.filter (fun row => now - timedeltaHours (15 / 60) ≤ row.observedAt)).foldl
    (fun groups row => groups.set (row.venue, row.underlying)
      ((groups.get? (row.venue, row.underlying)).getD [] ++ [row])) Dict.empty

/-- The surface specs of a group of options. -/
def surfaceSpecs (snapshot : ScanSnapshot)
    (group : (String × String) × List OptionQuoteObservation) : List MechanismTrialSpec :=
  match snapshot.marketQuotes.find? (fun quote =>
      R.upper quote.asset = group.1.2 && quote.marketKind = .spot) with
  | none => []
  | some spot =>
    (surfaceTrades R group.1.1 group.1.2 group.2).filterMap
      (surfaceSpec? R totalCapitalUsd snapshot spot)

/-- `ExecutableMechanismExecutionService._volatility_specs`. -/
def hedgedVolatilitySpecs (snapshot : ScanSnapshot) : List MechanismTrialSpec :=
  (sortDescending MechanismTrialSpec.predictedNetReturn
    ((volatilitySpecs R evidence totalCapitalUsd snapshot).map (greekSpec R evidence)
      ++ (surfaceGroups evidence snapshot.completedAt).items.flatMap
        (surfaceSpecs R totalCapitalUsd snapshot))).take 10

/-! ### Liquidation distress -/

/-- A liquidation spec from the instant it was observed, weighted by its capture. -/
def capturedLiquidationSpec? (snapshot : ScanSnapshot) (spec : MechanismTrialSpec) :
    Option MechanismTrialSpec :=
  match spec.settlementPayload with
  | .liquidation payload =>
    match (evidence.liquidationEvents snapshot.completedAt).reverse.find?
        (fun event => event.eventId = payload.eventId) with
    | none => none
    | some event =>
      let latencySeconds : ℚ := max 0 ((event.observedAt - event.eventAt : Int) / 1000000)
      let eventNotional := payload.entryPrice * payload.quantity
      let sizeFactor : ℚ := min 1 (eventNotional / max ((spec.capitalUsd : ℚ) * 5) 1)
      let timeFactor := R.exp (-latencySeconds / 2)
      let captureProbability := max (2 / 100) (min (75 / 100) (timeFactor * sizeFactor))
      let predicted := spec.predictedNetReturn * captureProbability
      if predicted ≤ 0 then none
      else
        some { spec with
          sourceObservedAt := event.observedAt
          predictedNetReturn := predicted
          settlementPayload := .liquidation { payload with
            observedAt := some event.observedAt
            captureProbability := some captureProbability } }
  | _ => none

/-- `ExecutableMechanismExecutionService._liquidation_specs`. -/
def capturedLiquidationSpecs (snapshot : ScanSnapshot) : List MechanismTrialSpec :=
  (sortDescending MechanismTrialSpec.predictedNetReturn
    ((liquidationSpecs R evidence totalCapitalUsd snapshot).filterMap
      (capturedLiquidationSpec? R evidence snapshot))).take 8

/-! ### All lanes -/

/-- `discover_specs` with the lanes of the production service. -/
def executableSpecs (snapshot : ScanSnapshot) : List MechanismTrialSpec :=
  sortDescending MechanismTrialSpec.predictedNetReturn
    (yieldSpecs evidence totalCapitalUsd snapshot.completedAt
      ++ queuedMakerSpecs R evidence totalCapitalUsd snapshot
      ++ hedgedVolatilitySpecs R evidence totalCapitalUsd snapshot
      ++ capturedLiquidationSpecs R evidence totalCapitalUsd snapshot
      ++ locationSpecs R evidence totalCapitalUsd snapshot.completedAt)

/-! ### The cohort of a lane -/

/-- What the cohort keys of a lane begin with. -/
def MechanismId.cohortPrefix : MechanismId → String
  | .yield => "yield|"
  | .liquidityProvision => "maker|"
  | .volatility => "vol|"
  | .liquidationDistress => "liquidation|"
  | .capitalLocationSettlement => "location|"

/-- A cohort key of a lane. -/
def LaneCohort (mechanismId : MechanismId) (cohortKey : String) : Prop :=
  ∃ rest, cohortKey = mechanismId.cohortPrefix ++ rest

/-- No cohort key belongs to two lanes. -/
theorem LaneCohort.unique {a b : MechanismId} {cohortKey : String} (ha : LaneCohort a cohortKey)
    (hb : LaneCohort b cohortKey) : a = b := by
  obtain ⟨rest, rfl⟩ := ha
  obtain ⟨rest', heq⟩ := hb
  have hchars := congrArg String.toList heq
  clear heq
  cases a <;> cases b <;> simp [MechanismId.cohortPrefix] at hchars ⊢

/-- A lane's prefix with any text after it is a cohort key of the lane. -/
theorem LaneCohort.start (mechanismId : MechanismId) (rest : String) :
    LaneCohort mechanismId (mechanismId.cohortPrefix ++ rest) := ⟨rest, rfl⟩

/-- More text leaves a cohort key in its lane. -/
theorem LaneCohort.append {mechanismId : MechanismId} {cohortKey : String}
    (h : LaneCohort mechanismId cohortKey) (text : String) :
    LaneCohort mechanismId (cohortKey ++ text) := by
  obtain ⟨rest, rfl⟩ := h
  exact ⟨rest ++ text, String.append_assoc⟩

/-- The cohort of a spec is one of the spec's lane. -/
def MechanismTrialSpec.InLane (spec : MechanismTrialSpec) : Prop :=
  LaneCohort spec.mechanismId spec.cohortKey

variable {R evidence totalCapitalUsd}

/-- The yield lane names its cohorts. -/
theorem inLane_yieldSpec? {observations : Dict String YieldObservation}
    {candidate : YieldCandidate} {spec : MechanismTrialSpec}
    (h : yieldSpec? totalCapitalUsd observations candidate = some spec) : spec.InLane := by
  unfold yieldSpec? at h
  split at h
  · cases h
  · split at h
    · cases h
    · dsimp only at h
      split at h
      · cases h
      · split at h
        · injection h with h
          subst h
          exact ((((LaneCohort.start .yield _).append _).append _).append _).append _
        · cases h

/-- The maker lane names its cohorts. -/
theorem inLane_makerSpec? {snapshot : ScanSnapshot} {book : OrderBookSnapshot}
    {spec : MechanismTrialSpec}
    (h : makerSpec? R evidence totalCapitalUsd snapshot book = some spec) : spec.InLane := by
  unfold makerSpec? at h
  dsimp only at h
  split at h
  · cases h
  · split at h
    · cases h
    · split at h
      · cases h
      · split at h
        · cases h
        · split at h
          · injection h with h
            subst h
            exact ((((LaneCohort.start .liquidityProvision _).append _).append _).append _).append _
          · cases h

/-- The visible queue changes neither the lane nor the cohort of a maker spec. -/
theorem inLane_queuedMakerSpec? {snapshot : ScanSnapshot} {spec queued : MechanismTrialSpec}
    (h : queuedMakerSpec? R evidence snapshot spec = some queued) (hlane : spec.InLane) :
    queued.InLane := by
  unfold queuedMakerSpec? at h
  split at h
  · rename_i payload hpayload
    rw [MechanismTrialSpec.InLane, MechanismTrialSpec.mechanismId, hpayload] at hlane
    split at h
    · cases h
    · dsimp only at h
      split at h
      · cases h
      · split at h
        · cases h
        · injection h with h
          subst h
          exact hlane
  · cases h

/-- The volatility lane names its cohorts. -/
theorem inLane_volatilitySpec? {snapshot : ScanSnapshot} {candidate : VolatilityCandidate}
    {spec : MechanismTrialSpec}
    (h : volatilitySpec? R evidence totalCapitalUsd snapshot candidate = some spec) :
    spec.InLane := by
  unfold volatilitySpec? at h
  split at h
  · cases h
  · dsimp only at h
    split at h
    · cases h
    · split at h
      · cases h
      · injection h with h
        subst h
        exact ((((LaneCohort.start .volatility _).append _).append _).append _).append _

/-- The gamma of a contract changes neither the lane nor the cohort of an option spec. -/
theorem inLane_greekSpec {spec : MechanismTrialSpec} (hlane : spec.InLane) :
    (greekSpec R evidence spec).InLane := by
  unfold greekSpec
  split
  · rename_i payload hpayload
    dsimp only
    split
    · exact hlane
    · rw [MechanismTrialSpec.InLane, MechanismTrialSpec.mechanismId, hpayload] at hlane
      exact hlane
  · exact hlane

/-- A surface trade is of the volatility lane. -/
theorem inLane_surfaceSpec? {snapshot : ScanSnapshot} {spot : MarketQuote} {trade : SurfaceTrade}
    {spec : MechanismTrialSpec}
    (h : surfaceSpec? R totalCapitalUsd snapshot spot trade = some spec) : spec.InLane := by
  unfold surfaceSpec? at h
  dsimp only at h
  split at h
  · cases h
  · rw [Option.ite_none_left_eq_some] at h
    obtain ⟨-, h⟩ := h
    injection h with h
    subst h
    exact ((((LaneCohort.start .volatility _).append _).append _).append _).append _

/-- The liquidation lane names its cohorts. -/
theorem inLane_liquidationSpec? {snapshot : ScanSnapshot} {event : SourceEventObservation}
    {spec : MechanismTrialSpec}
    (h : liquidationSpec? R totalCapitalUsd snapshot event = some spec) : spec.InLane := by
  unfold liquidationSpec? at h
  split at h
  · dsimp only at h
    rw [Option.ite_none_left_eq_some] at h
    obtain ⟨-, h⟩ := h
    split at h
    · cases h
    · rw [Option.ite_none_left_eq_some] at h
      obtain ⟨-, h⟩ := h
      split at h
      · injection h with h
        subst h
        exact ((LaneCohort.start .liquidationDistress ("Bybit|" ++ _)).append _).append _
      · cases h
  · cases h

/-- The capture changes neither the lane nor the cohort of a liquidation spec. -/
theorem inLane_capturedLiquidationSpec? {snapshot : ScanSnapshot}
    {spec captured : MechanismTrialSpec}
    (h : capturedLiquidationSpec? R evidence snapshot spec = some captured)
    (hlane : spec.InLane) : captured.InLane := by
  unfold capturedLiquidationSpec? at h
  split at h
  · rename_i payload hpayload
    rw [MechanismTrialSpec.InLane, MechanismTrialSpec.mechanismId, hpayload] at hlane
    split at h
    · cases h
    · dsimp only at h
      split at h
      · cases h
      · injection h with h
        subst h
        exact hlane
  · cases h

/-- The location lane names its cohorts. -/
theorem inLane_locationSpec? {now : Instant} {recommendation : CapitalLocationScore}
    {spec : MechanismTrialSpec}
    (h : locationSpec? R evidence totalCapitalUsd now recommendation = some spec) :
    spec.InLane := by
  unfold locationSpec? at h
  split at h
  · cases h
  · split at h
    · cases h
    · dsimp only at h
      split at h
      · split at h
        · cases h
        · injection h with h
          subst h
          exact ((LaneCohort.start .capitalLocationSettlement _).append _).append _
      · cases h

/-- **Cohorts of the lanes.** Whatever the evidence, the cohort of a discovered spec is one of
    the spec's lane. Each lane builds its cohort key with its own prefix, and the later
    refinements of a spec keep the key. -/
theorem inLane_of_mem_executableSpecs {snapshot : ScanSnapshot} {spec : MechanismTrialSpec}
    (h : spec ∈ executableSpecs R evidence totalCapitalUsd snapshot) : spec.InLane := by
  rw [executableSpecs, sortDescending, List.mem_insertionSort] at h
  simp only [List.mem_append] at h
  rcases h with (((h | h) | h) | h) | h
  -- yields, queued makers, volatility and surfaces, liquidations, and locations
  · obtain ⟨candidate, -, h⟩ := List.mem_filterMap.mp (List.mem_of_mem_take h)
    exact inLane_yieldSpec? h
  · have h := List.mem_of_mem_take h
    rw [sortDescending, List.mem_insertionSort] at h
    obtain ⟨base, hbase, h⟩ := List.mem_filterMap.mp h
    have hbase := List.mem_of_mem_take hbase
    rw [sortDescending, List.mem_insertionSort] at hbase
    obtain ⟨book, -, hbase⟩ := List.mem_filterMap.mp hbase
    exact inLane_queuedMakerSpec? h (inLane_makerSpec? hbase)
  · have h := List.mem_of_mem_take h
    rw [sortDescending, List.mem_insertionSort, List.mem_append] at h
    rcases h with h | h
    · obtain ⟨base, hbase, rfl⟩ := List.mem_map.mp h
      obtain ⟨candidate, -, hbase⟩ := List.mem_filterMap.mp (List.mem_of_mem_take hbase)
      exact inLane_greekSpec (inLane_volatilitySpec? hbase)
    · obtain ⟨group, -, h⟩ := List.mem_flatMap.mp h
      unfold surfaceSpecs at h
      split at h
      · cases h
      · obtain ⟨trade, -, h⟩ := List.mem_filterMap.mp h
        exact inLane_surfaceSpec? h
  · have h := List.mem_of_mem_take h
    rw [sortDescending, List.mem_insertionSort] at h
    obtain ⟨base, hbase, h⟩ := List.mem_filterMap.mp h
    obtain ⟨event, -, hbase⟩ := List.mem_filterMap.mp (List.mem_of_mem_take hbase)
    exact inLane_capturedLiquidationSpec? h (inLane_liquidationSpec? hbase)
  · obtain ⟨recommendation, -, h⟩ := List.mem_filterMap.mp h
    exact inLane_locationSpec? h

end ExecutableLanes

end InefficiencyEngine.Mechanism
