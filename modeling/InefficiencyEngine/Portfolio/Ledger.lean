import InefficiencyEngine.Lib.Durable
import InefficiencyEngine.Portfolio.Settlement

namespace InefficiencyEngine.Portfolio

/-!
# The canonical portfolio ledger

`CanonicalPaperPortfolioLedger`: an append-only log of hash-chained portfolio events, and
the account it replays to.  `currentState` is the replay of the whole log — cash, realized
profit and costs are running sums, positions are the opened events that no close event
names — followed by the valuation of each open position at its latest mark.

The replay drops an opened event whose texts are not all non-empty or whose price, horizon
or cost is missing; its cash has been debited all the same.
-/

/-! ### Events -/

/-- `PortfolioEventType`. The five kinds of events of the log. -/
inductive PortfolioEventType
  | genesis
  | open
  | mark
  | close
  | skip
  deriving DecidableEq

/-- The `details` of an event, by who wrote it. -/
inductive EventDetails
  | none
  | genesis (initialCapitalUsd : ℚ)
  /-- An opening: its source metrics, the time of its entry evidence and the embedded trial. -/
  | opened (expectedProfitUsd expectedReturnOnReservedCapital : ℚ) (sourceReturnMetric : String)
      (sourceReturnValue : ℚ) (valuationEvidenceObservedAt : Instant)
      (settlementTrial : PaperAllocationTrial) (conflictKeys : List String)
  /-- A mark or close of a spot position at a quote. -/
  | quoteValuation (grossReturn netReturnAfterModeledRoundtripCost : ℚ)
  /-- A mark of a position with settlement legs. -/
  | legValuation (pricePnlUsd fundingPnlUsd modeledCostUsd : ℚ)
  /-- A close from a settlement outcome. -/
  | settlement (settlementMethod : String) (realizedGrossReturn realizedNetReturn : ℚ)
      (realizedPricePnlUsd : Option ℚ) (realizedFundingPnlUsd : ℚ)
      (legOutcomes : List PaperSettlementLegOutcome)

/-- `CANONICAL_PORTFOLIO_ID`. -/
def canonicalPortfolioId : String := "crypto-opportunity-engine-paper-portfolio"

/-- `CANONICAL_INITIAL_CAPITAL_USD`. -/
def canonicalInitialCapitalUsd : ℚ := 250000

/-- `CanonicalPortfolioEvent`. A row of the log: what it is about, what it moves, and what it
    was valued on. -/
structure CanonicalPortfolioEvent where
  eventId : Uuid
  portfolioId : String := canonicalPortfolioId
  eventType : PortfolioEventType
  observedAt : Instant
  positionId : Option Uuid := none
  candidateId : Option String := none
  family : Option String := none
  strategy : Option String := none
  asset : Option String := none
  venue : Option String := none
  symbol : Option String := none
  marketKind : Option String := none
  exposureKind : Option String := none
  cashDeltaUsd : ℚ := 0
  realizedPnlDeltaUsd : ℚ := 0
  modeledCostUsd : ℚ := 0
  capitalReservedUsd : ℚ := 0
  notionalUsd : ℚ := 0
  entryReferencePrice : Option Positive := none
  referencePrice : Option Positive := none
  dueAt : Option Instant := none
  modeledRoundtripCostReturn : Option ℚ≥0 := none
  unrealizedPnlUsd : ℚ := 0
  reason : Option String := none
  details : EventDetails := .none

/-! ### Positions and account snapshots -/

/-- `CanonicalPaperPosition`. A position as the account lists it, read off its open event and
    its last mark. -/
structure CanonicalPaperPosition where
  positionId : Uuid
  candidateId : String
  family : String
  strategy : String
  asset : String
  venue : String
  symbol : String
  marketKind : String
  exposureKind : String
  openedAt : Instant
  dueAt : Instant
  capitalReservedUsd : Positive
  notionalUsd : Positive
  entryReferencePrice : Positive
  currentReferencePrice : Positive
  modeledRoundtripCostReturn : ℚ≥0
  unrealizedPnlUsd : ℚ

/-- `CanonicalPaperPortfolioSnapshot`. The account at one time, every figure of which is
    computed from the log. -/
structure CanonicalPaperPortfolioSnapshot where
  portfolioId : String
  observedAt : Instant
  initialCapitalUsd : ℚ
  cashUsd : ℚ
  reservedCapitalUsd : ℚ≥0
  unrealizedPnlUsd : ℚ
  realizedPnlUsd : ℚ
  cumulativeModeledCostUsd : ℚ≥0
  navUsd : ℚ
  totalReturn : ℚ
  peakNavUsd : ℚ
  drawdownFraction : ℚ≥0
  maxDrawdownFraction : ℚ≥0
  openPositionCount : ℕ
  closedTradeCount : ℕ
  skippedAllocationCount : ℕ
  positions : List CanonicalPaperPosition
  pnlByMechanismUsd : List (String × ℚ)
  pnlByStrategyUsd : List (String × ℚ)

/-! ### The replay -/

/-- The accumulators of the replay loop. -/
structure Replay where
  opened : Dict Uuid CanonicalPortfolioEvent
  closed : Dict Uuid CanonicalPortfolioEvent
  latestMark : Dict Uuid CanonicalPortfolioEvent
  cash : ℚ
  realized : ℚ
  costs : ℚ
  skipped : ℕ
  pnlMechanism : Dict String ℚ
  pnlStrategy : Dict String ℚ

/-- The accumulators before the first event. -/
def Replay.start : Replay where
  opened := Dict.empty
  closed := Dict.empty
  latestMark := Dict.empty
  cash := 0
  realized := 0
  costs := 0
  skipped := 0
  pnlMechanism := Dict.empty
  pnlStrategy := Dict.empty

/-- `if label: pnl[label] += x`. -/
def addLabelled (pnl : Dict String ℚ) (label : Option String) (x : ℚ) : Dict String ℚ :=
  match label with
  | some l => if l = "" then pnl else pnl.add l x
  | none => pnl

/-- The amounts every event contributes. -/
def Replay.book (r : Replay) (event : CanonicalPortfolioEvent) : Replay :=
  { r with
    cash := r.cash + event.cashDeltaUsd
    realized := r.realized + event.realizedPnlDeltaUsd
    costs := r.costs + max 0 event.modeledCostUsd }

/-- One iteration of the replay loop. -/
def Replay.step (r : Replay) (event : CanonicalPortfolioEvent) : Replay :=
  let r := r.book event
  match event.eventType, event.positionId with
  | .open, some positionId => { r with opened := r.opened.set positionId event }
  | .mark, some positionId => { r with latestMark := r.latestMark.set positionId event }
  | .close, some positionId =>
    { r with
      closed := r.closed.set positionId event
      pnlMechanism := addLabelled r.pnlMechanism event.family event.realizedPnlDeltaUsd
      pnlStrategy := addLabelled r.pnlStrategy event.strategy event.realizedPnlDeltaUsd }
  | .skip, _ => { r with skipped := r.skipped + 1 }
  | _, _ => r

/-- The replay of a log. -/
def replay (events : List CanonicalPortfolioEvent) : Replay := events.foldl Replay.step Replay.start

/-! ### Valuing the open positions -/

/-- The texts an opened event must carry to be listed: all non-empty. -/
def CanonicalPortfolioEvent.hasTexts (e : CanonicalPortfolioEvent) : Bool :=
  truthy e.candidateId && truthy e.family && truthy e.strategy && truthy e.asset
    && truthy e.venue && truthy e.symbol && truthy e.marketKind && truthy e.exposureKind

/-- The accumulators of the valuation loop. -/
structure Valuation where
  positions : List CanonicalPaperPosition
  unrealized : ℚ
  pnlMechanism : Dict String ℚ
  pnlStrategy : Dict String ℚ

/-- The position an opened event and its latest mark describe. A mark without a price leaves it
    at its entry. -/
def positionFrom (positionId : Uuid) (event mark : CanonicalPortfolioEvent) (entry : Positive)
    (dueAt : Instant) (cost : ℚ≥0) : Except Raised CanonicalPaperPosition := do
  let capital ← positive "CanonicalPaperPosition" "capital_reserved_usd" event.capitalReservedUsd
  let notional ← positive "CanonicalPaperPosition" "notional_usd" event.notionalUsd
  return {
    positionId := positionId
    candidateId := event.candidateId.getD ""
    family := event.family.getD ""
    strategy := event.strategy.getD ""
    asset := event.asset.getD ""
    venue := event.venue.getD ""
    symbol := event.symbol.getD ""
    marketKind := event.marketKind.getD ""
    exposureKind := event.exposureKind.getD ""
    openedAt := event.observedAt
    dueAt := dueAt
    capitalReservedUsd := capital
    notionalUsd := notional
    entryReferencePrice := entry
    currentReferencePrice := mark.referencePrice.getD entry
    modeledRoundtripCostReturn := cost
    unrealizedPnlUsd := mark.unrealizedPnlUsd }

/-- One iteration of the valuation loop over `opened.items()`. -/
def Replay.value (r : Replay) (v : Valuation) (item : Uuid × CanonicalPortfolioEvent) :
    Except Raised Valuation :=
  if (r.closed.get? item.1).isSome || !item.2.hasTexts then .ok v
  else
    match item.2.entryReferencePrice, item.2.dueAt, item.2.modeledRoundtripCostReturn with
    | some entry, some dueAt, some cost => do
      let mark := (r.latestMark.get? item.1).getD item.2
      let position ← positionFrom item.1 item.2 mark entry dueAt cost
      return {
        positions := v.positions ++ [position]
        unrealized := v.unrealized + mark.unrealizedPnlUsd
        pnlMechanism := v.pnlMechanism.add (item.2.family.getD "") mark.unrealizedPnlUsd
        pnlStrategy := v.pnlStrategy.add (item.2.strategy.getD "") mark.unrealizedPnlUsd }
    | _, _, _ => .ok v

/-- The valuation loop. -/
def Replay.valuation (r : Replay) : Except Raised Valuation :=
  r.opened.items.foldlM r.value
    { positions := [], unrealized := 0, pnlMechanism := r.pnlMechanism, pnlStrategy := r.pnlStrategy }

/-- `max([start, *values])`. -/
def maxFrom (start : ℚ) (values : List ℚ) : ℚ := values.foldl max start

/-- `_historical_peak_and_drawdown`, over the recorded snapshots. -/
def historicalPeakAndDrawdown (snapshots : List CanonicalPaperPortfolioSnapshot) : ℚ × ℚ :=
  (maxFrom canonicalInitialCapitalUsd (snapshots.map (fun s => s.peakNavUsd)),
    maxFrom 0 (snapshots.map (fun s => (s.maxDrawdownFraction : ℚ))))

/-- Earlier horizon first, then smaller id. -/
def positionBefore (a b : CanonicalPaperPosition) : Prop :=
  a.dueAt < b.dueAt ∨ a.dueAt = b.dueAt ∧ a.positionId ≤ b.positionId

instance : DecidableRel positionBefore := fun _ _ => inferInstanceAs (Decidable (_ ∨ _))

/-- The capital the listed positions reserve. -/
def reservedCapital (positions : List CanonicalPaperPosition) : ℚ :=
  (positions.map (fun p => (p.capitalReservedUsd : ℚ))).sum

/-- The account snapshot of a replay and its valuation, validated on construction. -/
def accountSnapshot (r : Replay) (v : Valuation)
    (snapshots : List CanonicalPaperPortfolioSnapshot) (observedAt : Instant) :
    Except Raised CanonicalPaperPortfolioSnapshot := do
  let reserved := reservedCapital v.positions
  let nav := r.cash + reserved + v.unrealized
  let peak := max (historicalPeakAndDrawdown snapshots).1 nav
  let drawdown := if 0 < peak then max 0 ((peak - nav) / peak) else 0
  let maxDrawdown := max (historicalPeakAndDrawdown snapshots).2 drawdown
  let reservedUsd ← nonNegative "CanonicalPaperPortfolioSnapshot" "reserved_capital_usd" reserved
  let costs ← nonNegative "CanonicalPaperPortfolioSnapshot" "cumulative_modeled_cost_usd" r.costs
  let drawdownFraction ←
    nonNegative "CanonicalPaperPortfolioSnapshot" "drawdown_fraction" drawdown
  let maxDrawdownFraction ←
    nonNegative "CanonicalPaperPortfolioSnapshot" "max_drawdown_fraction" maxDrawdown
  return {
    portfolioId := canonicalPortfolioId
    observedAt := observedAt
    initialCapitalUsd := canonicalInitialCapitalUsd
    cashUsd := r.cash
    reservedCapitalUsd := reservedUsd
    unrealizedPnlUsd := v.unrealized
    realizedPnlUsd := r.realized
    cumulativeModeledCostUsd := costs
    navUsd := nav
    totalReturn := nav / canonicalInitialCapitalUsd - 1
    peakNavUsd := peak
    drawdownFraction := drawdownFraction
    maxDrawdownFraction := maxDrawdownFraction
    openPositionCount := v.positions.length
    closedTradeCount := r.closed.items.length
    skippedAllocationCount := r.skipped
    positions := v.positions.insertionSort positionBefore
    pnlByMechanismUsd := v.pnlMechanism.items.insertionSort (fun p q => p.1 ≤ q.1)
    pnlByStrategyUsd := v.pnlStrategy.items.insertionSort (fun p q => p.1 ≤ q.1) }

/-- `CanonicalPaperPortfolioLedger.current_state` of a log that has its genesis event. -/
def accountState (events : List CanonicalPortfolioEvent)
    (snapshots : List CanonicalPaperPortfolioSnapshot) (observedAt : Instant) :
    Except Raised CanonicalPaperPortfolioSnapshot := do
  let v ← (replay events).valuation
  accountSnapshot (replay events) v snapshots observedAt

end InefficiencyEngine.Portfolio
