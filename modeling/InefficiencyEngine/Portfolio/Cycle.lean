import InefficiencyEngine.Portfolio.Store

namespace InefficiencyEngine.Portfolio

/-!
# One cycle of the universal paper portfolio

`UniversalOperationallyResilientPaperPortfolioService.run_cycle`: bring every open
position up to date against one market snapshot (`accountPosition`), then spend the free
cash on the allocator's plan (`deployAllocation`), then record the account.

What a cycle does with a position is decided from data read before its loop — the
position, the embedded trial, the snapshot, the stored evidence — so the decision is a
pure function (`CycleContext.verdict`) and the loop only performs it.
-/

/-! ### What a cycle is given -/

/-- Everything one cycle obtains from outside the portfolio's own tables. -/
structure CycleInput where
  /-- The clock when the cycle starts. -/
  now : Instant
  /-- `_collect_canonical_market_snapshot`, which raises when collection fails. -/
  collected : Except Raised ScanSnapshot
  /-- The stored observations. -/
  evidence : Evidence
  /-- The adapter registry of the core, if it has one: the book it answers for the `i`-th
      leg of a trial, `none` when there is no request, a timeout or an error. -/
  adapterRegistry : Option (PaperAllocationTrial → ℕ → Option OrderBookSnapshot)
  /-- `_bounded_allocation_plan`: a plan, or the name of what prevented it. -/
  boundedAllocationPlan : ℚ → Except String UnifiedPaperAllocationPlan

/-- What the accounting loop reads. -/
structure CycleContext where
  runtime : Runtime
  run : ℕ
  input : CycleInput
  snapshot : ScanSnapshot
  openEvents : Dict Uuid CanonicalPortfolioEvent
  priorEvidence : Dict Uuid Instant

/-! ### Reading the log -/

/-- The positions close events name, in log order. -/
def closedIds (events : List CanonicalPortfolioEvent) : List Uuid :=
  events.filterMap (fun e => if e.eventType = .close then e.positionId else none)

/-- The opened events by position. -/
def openedEvents (events : List CanonicalPortfolioEvent) : Dict Uuid CanonicalPortfolioEvent :=
  events.foldl (fun opened e =>
    match e.eventType, e.positionId with
    | .open, some positionId => opened.set positionId e
    | _, _ => opened) Dict.empty

/-- `_open_event_map`: the opened events no close event names. -/
def openEventMap (events : List CanonicalPortfolioEvent) : Dict Uuid CanonicalPortfolioEvent :=
  (closedIds events).foldl Dict.erase (openedEvents events)

/-- `_event_trial`: the trial an opened event embeds. -/
def eventTrial (event : Option CanonicalPortfolioEvent) : Option PaperAllocationTrial :=
  match event.map CanonicalPortfolioEvent.details with
  | some (.opened _ _ _ _ _ settlementTrial _) => some settlementTrial
  | _ => none

/-- `_latest_position_evidence_times`: when each open position was last valued. -/
def latestPositionEvidenceTimes (events : List CanonicalPortfolioEvent) : Dict Uuid Instant :=
  events.foldl (fun latest e =>
    match e.eventType, e.positionId with
    | .open, some positionId =>
      match e.details with
      | .opened _ _ _ _ valuationEvidenceObservedAt _ _ =>
        latest.set positionId valuationEvidenceObservedAt
      | _ => latest.set positionId e.observedAt
    | .mark, some positionId => latest.set positionId e.observedAt
    | .close, some positionId => latest.erase positionId
    | _, _ => latest) Dict.empty

/-! ### Events about a position -/

/-- The fields a mark or close event copies from its position. -/
def positionEvent (eventId : Uuid) (eventType : PortfolioEventType) (observedAt : Instant)
    (position : CanonicalPaperPosition) : CanonicalPortfolioEvent where
  eventId := eventId
  eventType := eventType
  observedAt := observedAt
  positionId := some position.positionId
  candidateId := some position.candidateId
  family := some position.family
  strategy := some position.strategy
  asset := some position.asset
  venue := some position.venue
  symbol := some position.symbol
  marketKind := some position.marketKind
  exposureKind := some position.exposureKind
  entryReferencePrice := some position.entryReferencePrice
  dueAt := some position.dueAt
  modeledRoundtripCostReturn := some position.modeledRoundtripCostReturn

/-- The gross return of a position at a quote. -/
def grossReturn (position : CanonicalPaperPosition) (quote : MarketQuote) : ℚ :=
  quote.mid / position.entryReferencePrice - 1

/-- The return of a position at a quote after its modelled cost. -/
def netReturn (position : CanonicalPaperPosition) (quote : MarketQuote) : ℚ :=
  grossReturn position quote - position.modeledRoundtripCostReturn

/-- `_mark_event`. The position at the mid of a quote, with its profit still unrealized. -/
def markEvent (eventId : Uuid) (position : CanonicalPaperPosition) (quote : MarketQuote)
    (observedAt : Instant) : CanonicalPortfolioEvent :=
  { positionEvent eventId .mark observedAt position with
    referencePrice := some quote.mid
    unrealizedPnlUsd := position.notionalUsd * netReturn position quote
    details := .quoteValuation (grossReturn position quote) (netReturn position quote) }

/-- `_close_event`. The capital comes back with the profit, at a quote that is due. -/
def closeEvent (eventId : Uuid) (position : CanonicalPaperPosition) (quote : MarketQuote)
    (observedAt : Instant) : CanonicalPortfolioEvent :=
  { positionEvent eventId .close observedAt position with
    cashDeltaUsd := position.capitalReservedUsd + position.notionalUsd * netReturn position quote
    realizedPnlDeltaUsd := position.notionalUsd * netReturn position quote
    modeledCostUsd := position.notionalUsd * position.modeledRoundtripCostReturn
    capitalReservedUsd := position.capitalReservedUsd
    notionalUsd := position.notionalUsd
    referencePrice := some quote.mid
    reason := some "paper holding horizon matured"
    details := .quoteValuation (grossReturn position quote) (netReturn position quote) }

/-- `_close_from_outcome`. The capital comes back with the profit that the outcome realized. -/
def closeFromOutcome (eventId : Uuid) (position : CanonicalPaperPosition)
    (outcome : PaperAllocationOutcome) : CanonicalPortfolioEvent :=
  { positionEvent eventId .close outcome.maturedAt position with
    cashDeltaUsd := position.capitalReservedUsd + outcome.realizedProfitUsd
    realizedPnlDeltaUsd := outcome.realizedProfitUsd
    modeledCostUsd := max 0 outcome.modeledNonSlippageCostUsd
    capitalReservedUsd := position.capitalReservedUsd
    notionalUsd := position.notionalUsd
    referencePrice := some (outcome.exitReferencePrice.getD position.currentReferencePrice)
    reason := some "qualified opportunity reached canonical paper settlement horizon"
    details := .settlement outcome.settlementMethod outcome.realizedGrossReturn
      outcome.realizedNetReturn outcome.realizedPricePnlUsd outcome.realizedFundingPnlUsd
      outcome.legOutcomes }

/-- `_open_from_allocation`. The capital leaves the cash, and the event carries the trial; what
    the allocation lacks is taken from the first leg. -/
def openFromAllocation (eventId positionId : Uuid) (allocation : UnifiedPaperAllocation)
    (trial : PaperAllocationTrial) (observedAt : Instant) : CanonicalPortfolioEvent :=
  let firstLeg := trial.settlementLegs.head?
  let symbol := orText allocation.instrumentSymbol
    ((firstLeg.map PaperSettlementLeg.symbol).getD (allocation.strategy ++ ":" ++ allocation.asset))
  let marketKind := orText allocation.instrumentMarketKind
    (match trial.settlementLegs with
      | [leg] => leg.marketKind
      | _ => "multi_leg")
  let entryPrice := allocation.entryReferencePrice.getD
    ((firstLeg.map PaperSettlementLeg.entryPrice).getD 1)
  let roundtrip : ℚ≥0 := allocation.modeledRoundtripCostReturn.getD 0
  let cost : ℚ :=
    if trial.settlementMethod = some multiLegSettlementMethod then
      allocation.notionalUsdPerLeg
        * (allocation.modeledNonSlippageCostBps.getD 0 : ℚ≥0) / 10000
    else allocation.notionalUsdPerLeg * roundtrip
  { eventId := eventId
    eventType := .open
    observedAt := observedAt
    positionId := some positionId
    candidateId := some allocation.candidateId
    family := some allocation.family
    strategy := some allocation.strategy
    asset := some allocation.asset
    venue := some (allocation.venues.headD "multi")
    symbol := some symbol
    marketKind := some marketKind
    exposureKind := some allocation.exposureKind.value
    cashDeltaUsd := -allocation.capitalRequiredUsd
    capitalReservedUsd := allocation.capitalRequiredUsd
    notionalUsd := allocation.notionalUsdPerLeg
    entryReferencePrice := some entryPrice
    referencePrice := some entryPrice
    dueAt := trial.dueAt
    modeledRoundtripCostReturn := some roundtrip
    unrealizedPnlUsd := -cost
    reason := some ("fresh qualified-opportunity bridge decision opened in canonical "
      ++ "paper portfolio")
    details := .opened allocation.expectedProfitUsdPerDeployment
      allocation.expectedReturnOnReservedCapital allocation.sourceReturnMetric
      allocation.sourceReturnValue (allocation.sourceObservedAt.getD observedAt) trial
      ((trialConflicts trial).dedup.insertionSort (· ≤ ·)) }

/-! ### Marking a position with settlement legs -/

/-- The quote of every leg, unless one is missing. -/
def legQuotes (upper : String → String) (index : Dict InstrumentKey MarketQuote) :
    List PaperSettlementLeg → Option (List (PaperSettlementLeg × MarketQuote))
  | [] => some []
  | leg :: rest => do
    let quote ← index.get? (leg.key upper)
    let quotes ← legQuotes upper index rest
    return (leg, quote) :: quotes

/-- The price profit of a leg at a quote. -/
def legPricePnl (leg : PaperSettlementLeg) (quote : MarketQuote) : ℚ :=
  if leg.side = .long then leg.baseQuantity * (quote.mid - leg.entryPrice)
  else leg.baseQuantity * (leg.entryPrice - quote.mid)

/-- The cost a mark deducts: precommitted by the method of the trial. -/
def markCost (trial : PaperAllocationTrial) : ℚ :=
  if trial.settlementMethod = some perpShortSettlementMethod then
    trial.notionalUsd * (trial.modeledRoundtripCostReturn.getD 0 : ℚ≥0)
  else trial.notionalUsd * (trial.modeledNonSlippageCostBps.getD 0 : ℚ≥0) / 10000

namespace CycleContext

variable (ctx : CycleContext)

/-- `_mark_universal`. The legs at the mids of their quotes with the funding up to the oldest of
    these, or up to the due time if that is earlier. -/
def markUniversal (eventId : Uuid) (position : CanonicalPaperPosition)
    (trial : PaperAllocationTrial) : Option CanonicalPortfolioEvent := do
  let upper := ctx.runtime.upper
  let sourceAt ← trial.sourceObservedAt
  let quotes ← legQuotes upper (portfolioQuoteIndex upper ctx.snapshot) trial.settlementLegs
  let evidenceAt ← (quotes.map (fun p => p.2.observedAt)).min?
  let endAt := min evidenceAt (trial.dueAt.getD evidenceAt)
  let fundings ← fundingRows upper ctx.input.evidence sourceAt endAt trial.settlementLegs
  let pricePnl := (quotes.map (fun p => legPricePnl p.1 p.2)).sum
  let fundingPnl := (fundings.map Prod.fst).sum
  let reference := (quotes.head?.map (fun p => p.2.mid)).getD position.currentReferencePrice
  return { positionEvent eventId .mark evidenceAt position with
    referencePrice := some reference
    unrealizedPnlUsd := pricePnl + fundingPnl - markCost trial
    details := .legValuation pricePnl fundingPnl (markCost trial) }

/-! ### Settling a position -/

/-- The books of a trial's legs in leg order, `none` for a leg without an answer. -/
def legBooks (registry : PaperAllocationTrial → ℕ → Option OrderBookSnapshot)
    (trial : PaperAllocationTrial) : List (Option OrderBookSnapshot) :=
  (List.range trial.settlementLegs.length).map (registry trial)

/-- `_settlement_books`: the book of every leg, or none at all.  Building a leg's request
    raises on a text that is no market kind. -/
def settlementBooks (trial : PaperAllocationTrial) : Except Raised (List OrderBookSnapshot) :=
  if trial.settlementMethod ≠ some multiLegSettlementMethod then .ok []
  else
    match ctx.input.adapterRegistry with
    | none => .ok []
    | some registry => do
      let _ ← trial.settlementLegs.mapM (fun leg => MarketKind.parse leg.marketKind)
      let rows := legBooks registry trial
      return if rows.any Option.isNone then [] else rows.reduceOption

/-- The instrument of a perpetual short, when all its texts are non-empty. -/
def perpShortKey (trial : PaperAllocationTrial) : Option InstrumentKey :=
  if truthy trial.instrumentSymbol && truthy trial.instrumentMarketKind then
    trial.instrumentKey ctx.runtime.upper
  else none

/-- The evidence a due position settles on is at or after its horizon: every book of a
    two-leg position, the newest quote of a perpetual short. -/
def evidenceMatured (trial : PaperAllocationTrial) (dueAt : Instant)
    (books : List OrderBookSnapshot) : Bool :=
  if trial.settlementMethod = some multiLegSettlementMethod then
    books.length = trial.settlementLegs.length && books.all (fun book => dueAt ≤ book.observedAt)
  else if trial.settlementMethod = some perpShortSettlementMethod then
    match (ctx.perpShortKey trial).bind (portfolioQuoteIndex ctx.runtime.upper ctx.snapshot).get? with
    | some quote => dueAt ≤ quote.observedAt
    | none => false
  else true

/-- `_settle_universal_position`. A position is settled once its evidence has matured, and stays
    open until then. -/
def settleUniversalPosition (outcomeId : Uuid) (trial : PaperAllocationTrial) :
    Except Raised (Option PaperAllocationOutcome) :=
  match trial.dueAt with
  | none => .ok none
  | some dueAt => do
    let books ← ctx.settlementBooks trial
    if ctx.evidenceMatured trial dueAt books then
      settleTrial ctx.runtime.upper ctx.input.evidence outcomeId trial
        { ctx.snapshot with orderBooks := books }
    else return none

/-! ### The accounting loop -/

/-- What a cycle does with one open position. -/
inductive Verdict
  /-- Record the outcome, if the settlement produced one, and close. -/
  | close (outcome : Option PaperAllocationOutcome) (event : CanonicalPortfolioEvent)
  /-- Valued on fresh evidence, marked if that is newer than what the ledger has. -/
  | fresh (mark : Option CanonicalPortfolioEvent) (evidenceAt : Instant)
  /-- Not decision-grade, possibly blocked in its settlement. -/
  | stale (mark : Option CanonicalPortfolioEvent) (blocked : Bool)

/-- `prior_evidence_times.get(position.position_id, position.opened_at)`. -/
def priorEvidenceAt (position : CanonicalPaperPosition) : Instant :=
  (ctx.priorEvidence.get? position.positionId).getD position.openedAt

/-- The branch for a position whose trial settles through the certification contracts. -/
def universalVerdict (eventId outcomeId : Uuid) (position : CanonicalPaperPosition)
    (trial : PaperAllocationTrial) : Except Raised Verdict :=
  if position.dueAt ≤ ctx.snapshot.completedAt then do
    match ← ctx.settleUniversalPosition outcomeId trial with
    | none => return .stale none true
    | some outcome => return .close (some outcome) (closeFromOutcome eventId position outcome)
  else
    match ctx.markUniversal eventId position trial with
    | none => .ok (.stale none false)
    | some mark =>
      .ok (.fresh (if ctx.priorEvidenceAt position < mark.observedAt then some mark else none)
        mark.observedAt)

/-- `_quote_for`. -/
def quoteFor (position : CanonicalPaperPosition) : Option MarketQuote :=
  (portfolioQuoteIndex ctx.runtime.upper ctx.snapshot).get?
    (position.venue, ctx.runtime.upper position.asset, position.marketKind, position.symbol)

/-- The branch for a position valued and closed at its own quote. -/
def quoteVerdict (eventId : Uuid) (position : CanonicalPaperPosition) : Verdict :=
  match ctx.quoteFor position with
  | none => .stale none false
  | some quote =>
    let prior := ctx.priorEvidenceAt position
    let mark :=
      if prior < quote.observedAt then some (markEvent eventId position quote quote.observedAt)
      else none
    if quote.observedAt < prior then .stale none false
    else if position.dueAt ≤ ctx.snapshot.completedAt ∧ quote.observedAt < position.dueAt then
      .stale mark true
    else if position.dueAt ≤ quote.observedAt then
      .close none (closeEvent eventId position quote quote.observedAt)
    else .fresh mark quote.observedAt

/-- A trial settles through the certification contracts unless it is a spot long. -/
def isUniversal (trial : PaperAllocationTrial) : Bool :=
  trial.settlementMethod ≠ some spotLongSettlementMethod

/-- The trial embedded in the opening of a position. -/
def positionTrial (position : CanonicalPaperPosition) : Option PaperAllocationTrial :=
  eventTrial (ctx.openEvents.get? position.positionId)

/-- The decision about the `i`-th position. -/
def verdict (i : ℕ) (position : CanonicalPaperPosition) : Except Raised Verdict :=
  let eventId := ctx.runtime.uuid4 ctx.run (.accountingEvent i)
  let outcomeId := ctx.runtime.uuid4 ctx.run (.outcome i)
  match ctx.positionTrial position with
  | some trial =>
    if isUniversal trial then ctx.universalVerdict eventId outcomeId position trial
    else .ok (ctx.quoteVerdict eventId position)
  | none => .ok (ctx.quoteVerdict eventId position)

/-- The counters of the accounting loop. -/
structure Accounting where
  index : ℕ
  closed : ℕ
  marked : ℕ
  stalePositions : ℕ
  settlementBlocked : ℕ
  freshPositionEvidence : Dict Uuid Instant

/-- The counters before the first position. -/
def Accounting.start : Accounting := ⟨0, 0, 0, 0, 0, Dict.empty⟩

/-- The counters after a verdict. -/
def Accounting.count (t : Accounting) (position : CanonicalPaperPosition) :
    Verdict → Accounting
  | .close _ _ => { t with index := t.index + 1, closed := t.closed + 1 }
  | .fresh mark evidenceAt =>
    { t with
      index := t.index + 1
      marked := t.marked + mark.toList.length
      freshPositionEvidence := t.freshPositionEvidence.set position.positionId evidenceAt }
  | .stale mark blocked =>
    { t with
      index := t.index + 1
      marked := t.marked + mark.toList.length
      stalePositions := t.stalePositions + 1
      settlementBlocked := t.settlementBlocked + blocked.toNat }

/-- The mark a verdict records. -/
def Verdict.mark : Verdict → Option CanonicalPortfolioEvent
  | .close _ _ => none
  | .fresh mark _ => mark
  | .stale mark _ => mark

/-- The writes of a verdict. -/
def performVerdict (R : Runtime) : Verdict → PortfolioProg Unit
  | .close outcome event => do
    Prog.writeOption (outcome.map Write.outcome)
    recordEvent R event
  | .fresh mark _ => recordOptional R mark
  | .stale mark _ => recordOptional R mark

/-- One iteration of the accounting loop.  The embedded trial is recorded again first. -/
def accountPosition (t : Accounting) (position : CanonicalPaperPosition) :
    PortfolioProg Accounting := do
  Prog.writeOption ((ctx.positionTrial position).map Write.trial)
  let verdict ← Prog.lift (ctx.verdict t.index position)
  performVerdict ctx.runtime verdict
  return t.count position verdict

end CycleContext

/-! ### The allocation half -/

/-- The conflict keys the open positions occupy. -/
def openConflicts (openEvents : Dict Uuid CanonicalPortfolioEvent)
    (positions : List CanonicalPaperPosition) : List String :=
  positions.flatMap (fun position =>
    match eventTrial (openEvents.get? position.positionId) with
    | some trial => trialConflicts trial
    | none => [venueSymbolKey position.venue position.symbol])

/-- The skip event of an allocation no contract settles. -/
def skipUnsupported (eventId : Uuid) (allocation : UnifiedPaperAllocation)
    (blocker : Option String) (observedAt : Instant) : CanonicalPortfolioEvent where
  eventId := eventId
  eventType := .skip
  observedAt := observedAt
  candidateId := some allocation.candidateId
  family := some allocation.family
  strategy := some allocation.strategy
  asset := some allocation.asset
  venue := allocation.venues.head?
  symbol := allocation.instrumentSymbol
  marketKind := allocation.instrumentMarketKind
  exposureKind := some allocation.exposureKind.value
  reason := blocker

/-- The skip event of an allocation that conflicts or does not fit. -/
def skipRefused (eventId : Uuid) (allocation : UnifiedPaperAllocation) (reason : String)
    (observedAt : Instant) : CanonicalPortfolioEvent where
  eventId := eventId
  eventType := .skip
  observedAt := observedAt
  candidateId := some allocation.candidateId
  family := some allocation.family
  strategy := some allocation.strategy
  asset := some allocation.asset
  reason := some reason

/-- The accumulators of the deployment loop. -/
structure Deployment where
  index : ℕ
  opened : ℕ
  skipped : ℕ
  remainingCash : ℚ
  usedConflicts : List String
  freshPositionEvidence : Dict Uuid Instant

/-- Why a supported allocation is not opened, if it is not. -/
def Deployment.refusal (d : Deployment) (allocation : UnifiedPaperAllocation)
    (trial : PaperAllocationTrial) : Option String :=
  if ∃ key ∈ trialConflicts trial, key ∈ d.usedConflicts then
    some "canonical portfolio already has a conflicting open instrument"
  else if d.remainingCash + budgetTolerance < allocation.capitalRequiredUsd then
    some "insufficient canonical paper cash after existing open positions"
  else none

/-- The accumulators after a skip. -/
def Deployment.skip (d : Deployment) : Deployment :=
  { d with index := d.index + 1, skipped := d.skipped + 1 }

/-- The accumulators after an opening. -/
def Deployment.open (d : Deployment) (allocation : UnifiedPaperAllocation)
    (trial : PaperAllocationTrial) (positionId : Uuid) (observedAt : Instant) : Deployment :=
  { d with
    index := d.index + 1
    opened := d.opened + 1
    remainingCash := d.remainingCash - allocation.capitalRequiredUsd
    usedConflicts := d.usedConflicts ++ trialConflicts trial
    freshPositionEvidence :=
      d.freshPositionEvidence.set positionId (allocation.sourceObservedAt.getD observedAt) }

/-- Record a skip. -/
def recordSkip (R : Runtime) (d : Deployment) (event : CanonicalPortfolioEvent) :
    PortfolioProg Deployment := do
  recordEvent R event
  return d.skip

/-- Record an opening, then its trial. -/
def recordOpening (R : Runtime) (eventId positionId : Uuid) (observedAt : Instant)
    (d : Deployment) (allocation : UnifiedPaperAllocation) (trial : PaperAllocationTrial) :
    PortfolioProg Deployment := do
  recordEvent R (openFromAllocation eventId positionId allocation trial observedAt)
  Prog.write (.trial trial)
  return d.open allocation trial positionId observedAt

/-- One iteration of the deployment loop over `plan.allocations`. -/
def deployAllocation (R : Runtime) (run : ℕ) (observedAt : Instant) (d : Deployment)
    (allocation : UnifiedPaperAllocation) : PortfolioProg Deployment := do
  let eventId := R.uuid4 run (.allocationEvent d.index)
  let positionId := R.uuid4 run (.position d.index)
  let trial ← Prog.lift
    (trialFromAllocation R.upper (R.uuid4 run (.trial d.index)) allocation observedAt)
  if !trial.settlementSupported then
    recordSkip R d (skipUnsupported eventId allocation trial.settlementBlocker observedAt)
  else
    match d.refusal allocation trial with
    | some reason => recordSkip R d (skipRefused eventId allocation reason observedAt)
    | none => recordOpening R eventId positionId observedAt d allocation trial

/-! ### The cycle -/

/-- The valuation status of an account and the time of the evidence behind it. -/
def valuationOf (openPositionCount stalePositions : ℕ) (fresh : Dict Uuid Instant)
    (previousIntegrity : Option PortfolioIntegritySnapshot) (completedAt : Instant) :
    ValuationStatus × Option Instant :=
  if openPositionCount = 0 then (.cashOnly, some completedAt)
  else if stalePositions = 0 then (.fresh, some (fresh.values.min?.getD completedAt))
  else if stalePositions < openPositionCount then
    (.partly, previousIntegrity.bind PortfolioIntegritySnapshot.marketEvidenceAt)
  else (.stale, previousIntegrity.bind PortfolioIntegritySnapshot.marketEvidenceAt)

/-- The family failure recorded when the allocation stage produced no plan. -/
def boundedAllocationFailure (error : String) : FamilyFailure where
  family := "canonical_allocator"
  errorType := error
  reason := "universal canonical accounting remained live while the durable "
    ++ "allocation stage failed its bounded liveness contract"

/-- The error type the accounting half leaves behind. -/
def accountingErrorType (t : CycleContext.Accounting) : Option String :=
  if t.settlementBlocked ≠ 0 then some "SettlementEvidenceUnavailable"
  else if t.stalePositions ≠ 0 then some "StaleOpenPositionValuation"
  else none

/-- `CanonicalPaperPortfolioCycle`. What a cycle reports. -/
structure CanonicalPaperPortfolioCycle where
  observedAt : Instant
  openedPositionCount : ℕ
  closedPositionCount : ℕ
  markedPositionCount : ℕ
  skippedAllocationCount : ℕ
  navUsd : ℚ
  cashUsd : ℚ

/-- What the allocation half hands on: the loop's accumulators, the error type and the
    family failures. -/
structure AllocationHalf where
  deployment : Deployment
  errorType : Option String
  familyFailures : List FamilyFailure

/-- What the settlement half hands on. -/
structure SettlementHalf where
  snapshot : ScanSnapshot
  previousIntegrity : Option PortfolioIntegritySnapshot
  accounting : CycleContext.Accounting
  afterClose : CanonicalPaperPortfolioSnapshot
  openEvents : Dict Uuid CanonicalPortfolioEvent

/-- What the accounting loop reads, for a log. -/
def CycleContext.start (R : Runtime) (run : ℕ) (input : CycleInput) (snapshot : ScanSnapshot)
    (events : List CanonicalPortfolioEvent) : CycleContext where
  runtime := R
  run := run
  input := input
  snapshot := snapshot
  openEvents := openEventMap events
  priorEvidence := latestPositionEvidenceTimes events

/-- The accounting loop over the open positions of the account. -/
def accountPositions (R : Runtime) (run : ℕ) (input : CycleInput) (snapshot : ScanSnapshot) :
    PortfolioProg CycleContext.Accounting := do
  let state ← currentState R (R.uuid4 run .genesis) snapshot.completedAt
  let s ← Prog.get
  let ctx := CycleContext.start R run input snapshot s.events
  state.positions.foldlM ctx.accountPosition CycleContext.Accounting.start

/-- The settlement half of a cycle, up to the checkpoint before the allocation stage. The
    positions are settled or marked first, then the account is read and the checkpoint says how
    current its valuation is. -/
def settlementHalf (R : Runtime) (run : ℕ) (input : CycleInput) :
    PortfolioProg SettlementHalf := do
  ensureGenesis R (R.uuid4 run .genesis) input.now
  let s ← Prog.get
  let previousIntegrity := s.integrity.getLast?
  let snapshot ← Prog.lift input.collected
  let t ← accountPositions R run input snapshot
  let afterClose ← currentState R (R.uuid4 run .genesis) snapshot.completedAt
  let s ← Prog.get
  -- the valuation is fresh only if no open position is stale
  let checkpoint := valuationOf afterClose.openPositionCount t.stalePositions
    t.freshPositionEvidence previousIntegrity snapshot.completedAt
  Prog.write (.integrity
    { integrityId := R.uuid4 run .checkpoint
      observedAt := snapshot.completedAt
      accountSnapshotAt := afterClose.observedAt
      marketEvidenceAt := checkpoint.2
      valuationStatus := checkpoint.1
      cycleStatus := .accountingOnly
      fallbackSnapshot := false
      cycleErrorType := none
      stalePositionCount := t.stalePositions
      settlementEvidenceBlockedCount := t.settlementBlocked
      openPositionCount := afterClose.openPositionCount
      allocationFamilyFailures := []
      marketSnapshotId := some snapshot.scanId })
  return {
    snapshot := snapshot
    previousIntegrity := previousIntegrity
    accounting := t
    afterClose := afterClose
    openEvents := openEventMap s.events }

/-- The accumulators before the first allocation. -/
def Deployment.start (half : SettlementHalf) : Deployment where
  index := 0
  opened := 0
  skipped := 0
  remainingCash := max 0 half.afterClose.cashUsd
  usedConflicts := openConflicts half.openEvents half.afterClose.positions
  freshPositionEvidence := half.accounting.freshPositionEvidence

/-- The allocation half of a cycle: free cash is spent on the allocator's plan, unless some
    position could not be valued. A plan that fails leaves the cycle degraded and nothing
    opened. -/
def allocationHalf (R : Runtime) (run : ℕ) (input : CycleInput) (half : SettlementHalf) :
    PortfolioProg AllocationHalf := do
  let cashAvailable := max 0 half.afterClose.cashUsd
  -- one stale position is enough to hold the cash back
  if 0 < cashAvailable ∧ half.accounting.stalePositions = 0 then
    match input.boundedAllocationPlan cashAvailable with
    | .error error =>
      return { deployment := Deployment.start half
               errorType := some error
               familyFailures := [boundedAllocationFailure error] }
    | .ok plan =>
      let d ← plan.allocations.foldlM (deployAllocation R run plan.observedAt)
        (Deployment.start half)
      return { deployment := d
               errorType := accountingErrorType half.accounting
               familyFailures := plan.familyFailures }
  else
    return { deployment := Deployment.start half
             errorType := accountingErrorType half.accounting
             familyFailures := [] }

/-- The end of a cycle: the account and integrity snapshots. The final state is stored with the
    integrity of its valuation, whose evidence time is that of the previous integrity when a
    position is stale. -/
def concludeCycle (R : Runtime) (run : ℕ) (half : SettlementHalf) (allocation : AllocationHalf) :
    PortfolioProg CanonicalPaperPortfolioCycle := do
  let completedAt := half.snapshot.completedAt
  let t := half.accounting
  let finalState ← currentState R (R.uuid4 run .genesis) completedAt
  Prog.write (.snapshot finalState)
  let valuation := valuationOf finalState.openPositionCount t.stalePositions
    allocation.deployment.freshPositionEvidence half.previousIntegrity completedAt
  -- stale positions, a failed allocation or a failed family degrade the cycle
  let degraded : Bool :=
    t.stalePositions ≠ 0 || allocation.errorType.isSome || !allocation.familyFailures.isEmpty
  Prog.write (.integrity
    { integrityId := R.uuid4 run .integrity
      observedAt := completedAt
      accountSnapshotAt := finalState.observedAt
      marketEvidenceAt := valuation.2
      valuationStatus := valuation.1
      cycleStatus := if degraded then .degraded else .success
      fallbackSnapshot := false
      cycleErrorType := allocation.errorType
      stalePositionCount := t.stalePositions
      settlementEvidenceBlockedCount := t.settlementBlocked
      openPositionCount := finalState.openPositionCount
      allocationFamilyFailures := allocation.familyFailures
      marketSnapshotId := some half.snapshot.scanId })
  return {
    observedAt := completedAt
    openedPositionCount := allocation.deployment.opened
    closedPositionCount := t.closed
    markedPositionCount := t.marked
    skippedAllocationCount := allocation.deployment.skipped
    navUsd := finalState.navUsd
    cashUsd := finalState.cashUsd }

/-- `UniversalOperationallyResilientPaperPortfolioService.run_cycle`. -/
def runCycle (R : Runtime) (run : ℕ) (input : CycleInput) :
    PortfolioProg CanonicalPaperPortfolioCycle := do
  let half ← settlementHalf R run input
  let allocation ← allocationHalf R run input half
  concludeCycle R run half allocation

end InefficiencyEngine.Portfolio
