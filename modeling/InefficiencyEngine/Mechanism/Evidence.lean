import InefficiencyEngine.Portfolio.Market
import Mathlib.Data.List.Sort

namespace InefficiencyEngine.Mechanism

open Portfolio

/-!
# The evidence of the mechanism lanes

The stored observations the five mechanism lanes read (`research_mechanisms.py`,
`source_coverage.py`, `trade_flow.py`): yield and option observations, public events,
opportunities, market quotes and capital transfers, each table in row order.  A payload of
an event is the record of the keys the code reads from it, with `""` for an absent text.

Functions of the standard library the model does not compute are the fields of
`MechanismRuntime`.
-/

/-! ### The runtime -/

/-- The library functions and settings the mechanism services use. -/
structure MechanismRuntime where
  /-- `str.upper`. -/
  upper : String → String
  /-- `str.lower`. -/
  lower : String → String
  /-- `str.strip`. -/
  strip : String → String
  /-- `math.sqrt`, `math.log`, `math.log1p` and `math.exp`. -/
  sqrt : ℚ → ℚ
  log : ℚ → ℚ
  log1p : ℚ → ℚ
  exp : ℚ → ℚ
  /-- `uuid.uuid4().hex` of the `i`-th trial recorded in a cycle. -/
  uuid4 : ℕ → ℕ → Uuid
  uuid4_injective : Function.Injective2 uuid4
  /-- `_stable` of a cohort key and a source time, and of a cohort key alone. -/
  stable : String → Instant → String
  stableKey : String → String
  /-- `isoformat` of an instant and the text of a number, as they stand in keys. -/
  isoformat : Instant → String
  formatNumber : ℚ → String
  /-- `settings.alpha_research_cost_floor_bps` and `settings.alpha_min_notional_usd`. -/
  alphaResearchCostFloorBps : ℚ
  alphaMinNotionalUsd : ℚ

/-- Hours from one instant to another. -/
def hoursBetween (start stop : Instant) : ℚ := (stop - start : Int) / 3600000000

/-- `statistics.fmean`. -/
def fmean (values : List ℚ) : ℚ := values.sum / values.length

/-! ### Observations -/

/-- `YieldKind`. Where a yield comes from. -/
inductive YieldKind
  | staking
  | lending
  | fixedYield
  | lpFee
  | incentive
  deriving DecidableEq

/-- The text of a yield kind. -/
def YieldKind.value : YieldKind → String
  | .staking => "staking"
  | .lending => "lending"
  | .fixedYield => "fixed_yield"
  | .lpFee => "lp_fee"
  | .incentive => "incentive"

/-- `YieldObservation`, whose asset is in upper case. -/
structure YieldObservation where
  observationId : String
  protocol : String
  asset : String
  kind : YieldKind
  observedAt : Instant
  asOfAt : Instant
  grossApy : ℚ
  capacityUsd : Positive
  holdingHours : Positive
  entryExitCostBps : ℚ≥0
  creditOrProtocolRiskHaircutApy : ℚ≥0
  slashingOrLiquidationRiskHaircutApy : ℚ≥0
  incentiveDecayHaircutApy : ℚ≥0
  authoritative : Bool
  commercialUsePermitted : Bool
  pointInTime : Bool
  as_of_le : asOfAt ≤ observedAt

/-- `option_type`. -/
inductive OptionType
  | call
  | put
  deriving DecidableEq

/-- The text of an option type. -/
def OptionType.value : OptionType → String
  | .call => "call"
  | .put => "put"

/-- `OptionQuoteObservation`, whose underlying is in upper case. -/
structure OptionQuoteObservation where
  venue : String
  underlying : String
  expiry : Instant
  strike : Positive
  optionType : OptionType
  bid : Positive
  ask : Positive
  impliedVolatility : Positive
  delta : ℚ
  gamma : Option ℚ := none
  observedAt : Instant
  authoritative : Bool
  commercialUsePermitted : Bool
  pointInTime : Bool
  bid_le_ask : (bid : ℚ) ≤ ask
  observed_lt_expiry : observedAt < expiry

/-- The middle of an option quote. -/
def OptionQuoteObservation.mid (row : OptionQuoteObservation) : ℚ := (row.bid + row.ask) / 2

/-- A number of an event's payload. -/
inductive PayloadNumber
  | absent
  | unreadable
  | value (q : ℚ)

/-- `_number(value, default)`. -/
def PayloadNumber.getD (default : ℚ) : PayloadNumber → ℚ
  | .value q => q
  | _ => default

/-- `float(value or 0.0)`, which raises on a text that is no number. -/
def PayloadNumber.float? : PayloadNumber → Option ℚ
  | .value q => some q
  | .absent => some 0
  | .unreadable => none

/-- `a or b` on payload numbers. -/
def PayloadNumber.or : PayloadNumber → PayloadNumber → PayloadNumber
  | .absent, b => b
  | .value q, b => if q = 0 then b else .value q
  | .unreadable, _ => .unreadable

/-- The keys the lanes read from the payload of an event. -/
structure EventPayload where
  venue : String
  symbol : String
  aggressorSide : String
  side : String
  price : PayloadNumber
  size : PayloadNumber
  quantity : PayloadNumber

/-- `SourceEventObservation`. An event of a lane that its source has stamped, with the payload
    that the lanes read. -/
structure SourceEventObservation where
  eventId : String
  laneId : String
  eventType : String
  eventAt : Instant
  observedAt : Instant
  asset : Option String
  payload : EventPayload

/-- `event.asset or ""`. -/
def SourceEventObservation.assetText (event : SourceEventObservation) : String :=
  event.asset.getD ""

/-- A stored `Opportunity`, with the venues of its legs. -/
structure StoredOpportunity where
  asset : String
  legVenues : List String
  netAnnualizedReturn : ℚ
  observedAt : Instant

/-- `CapitalTransferObservation`. What moving capital between venues took. -/
structure CapitalTransferObservation where
  venue : String
  asset : String
  observedAt : Instant
  transferCostUsd : ℚ≥0
  transferLatencySeconds : ℚ≥0

/-- The stored observations, each table in row order. -/
structure StoredEvidence where
  yieldObservations : List YieldObservation
  optionObservations : List OptionQuoteObservation
  events : List SourceEventObservation
  opportunities : List StoredOpportunity
  marketQuotes : List MarketQuote
  transfers : List CapitalTransferObservation

/-- Nothing is stored. -/
def StoredEvidence.empty : StoredEvidence := ⟨[], [], [], [], [], []⟩

/-! ### Reading the evidence -/

/-- `PublicTrade`. -/
structure PublicTrade where
  eventAt : Instant
  price : ℚ
  size : ℚ

/-- `notional_usd`. -/
def PublicTrade.notionalUsd (trade : PublicTrade) : ℚ := trade.price * trade.size

namespace StoredEvidence

variable (R : MechanismRuntime) (evidence : StoredEvidence)

/-- `YieldResearchService.observations`: oldest first. -/
def yields : List YieldObservation :=
  evidence.yieldObservations.insertionSort (fun a b => a.observedAt ≤ b.observedAt)

/-- `VolatilityResearchService.observations`: oldest first. -/
def options : List OptionQuoteObservation :=
  evidence.optionObservations.insertionSort (fun a b => a.observedAt ≤ b.observedAt)

/-- The trade an event of the trade flow reports, if it is one of an instrument. -/
def publicTrade? (asset venue : String) (event : SourceEventObservation) : Option PublicTrade :=
  let price := event.payload.price.getD 0
  let size := event.payload.size.getD 0
  let side := R.lower event.payload.aggressorSide
  if R.upper event.assetText ≠ R.upper asset then none
  else if event.payload.venue ≠ venue then none
  else if price ≤ 0 ∨ size ≤ 0 ∨ ¬ (side = "buy" ∨ side = "sell") then none
  else some ⟨event.eventAt, price, size⟩

/-- `TradeFlowLedger.recent`: of the newest `limit` rows of the window, the trades of the
    instrument, oldest first. -/
def recentTrades (asset venue : String) (before : Instant) (maxAgeHours : ℚ) (limit : ℕ) :
    List PublicTrade :=
  let cutoff := before - timedeltaHours (max (1 / 100) maxAgeHours)
  let rows := evidence.events.filter (fun event => event.laneId = "microstructure"
    && event.eventType = "public_trade" && cutoff ≤ event.eventAt && event.eventAt ≤ before)
  ((rows.reverse.take (max 1 (min 5000 limit))).filterMap (publicTrade? R asset venue)).insertionSort
    (fun a b => a.eventAt ≤ b.eventAt)

/-- `_liquidation_events`: the newest 200 rows not older than six minutes. -/
def liquidationEvents (now : Instant) : List SourceEventObservation :=
  let cutoff := now - timedeltaHours (1 / 10)
  ((evidence.events.filter (fun event => event.laneId = "liquidation_distress"
    && event.eventType = "exchange_liquidation" && cutoff ≤ event.eventAt)).reverse).take 200

/-- `_quote_after`: of the first 200 rows of the venue and asset from an instant on, the
    first of the instrument. -/
def quoteAfter (venue asset : String) (dueAt : Instant) (marketKind symbol : Option String) :
    Option MarketQuote :=
  ((evidence.marketQuotes.filter (fun row => row.venue = venue && row.asset = R.upper asset
      && dueAt ≤ row.observedAt)).take 200).find? (fun quote =>
    marketKind.all (fun kind => quote.marketKind.value = kind)
      && symbol.all (fun text => quote.symbol = text))

/-- `latest_transfer`. -/
def latestTransfer (venue asset : String) : Option CapitalTransferObservation :=
  (evidence.transfers.filter (fun row => row.venue = venue
    && R.upper row.asset = R.upper asset)).getLast?

end StoredEvidence

end InefficiencyEngine.Mechanism
