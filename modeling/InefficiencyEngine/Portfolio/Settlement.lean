import InefficiencyEngine.Portfolio.Execution
import InefficiencyEngine.Portfolio.Trial

namespace InefficiencyEngine.Portfolio

/-!
# Forward settlement of a trial

`AllocationForwardCertificationService._settle_trial`: the realized outcome of a trial
from one market snapshot and the stored funding evidence.  A spot long and a perpetual
short exit at the mid of the quote the *last-listed-wins* index holds for the instrument;
a two-leg position exits by walking the visible book of each leg.  Missing evidence gives
no outcome rather than a profit, and settling never raises (`settleTrial_total`).
-/

/-! ### Outcomes -/

/-- `PaperSettlementLegOutcome`. One leg of an outcome at its entry and at its exit. -/
structure PaperSettlementLegOutcome where
  venue : String
  asset : String
  marketKind : String
  side : Side
  symbol : String
  baseQuantity : Positive
  entryPrice : Positive
  exitPrice : Positive
  entryNotionalUsd : Positive
  exitNotionalUsd : Positive
  pricePnlUsd : ℚ
  fundingPnlUsd : ℚ
  fundingEventCount : ℕ
  exitSlippageBps : ℚ≥0
  exitLevelsConsumed : ℕ
  exitFillSource : String

/-- `PaperAllocationOutcome`. What became of a trial. -/
structure PaperAllocationOutcome where
  outcomeId : Uuid
  trialId : Uuid
  candidateId : String
  family : String
  strategy : String
  asset : String
  maturedAt : Instant
  dueAt : Instant
  entryReferencePrice : Option Positive
  exitReferencePrice : Option Positive
  realizedGrossReturn : ℚ
  realizedNetReturn : ℚ
  realizedProfitUsd : ℚ
  realizedPricePnlUsd : Option ℚ
  realizedFundingPnlUsd : ℚ
  modeledNonSlippageCostUsd : ℚ
  legOutcomes : List PaperSettlementLegOutcome
  predictedProfitUsd : ℚ≥0
  predictionErrorUsd : ℚ
  profitCaptureRatio : Option ℚ
  profitable : Bool
  settlementMethod : String

/-- `realized / predicted`, when something was predicted. -/
def profitCapture (realized : ℚ) (predicted : ℚ≥0) : Option ℚ :=
  if 0 < predicted then some (realized / predicted) else none

/-! ### Funding evidence -/

section Funding

variable (upper : String → String) (evidence : Evidence)

/-- `_funding_quotes_for_leg`: the stored funding rows of the leg's instrument within the
    window. -/
def fundingQuotesForLeg (leg : PaperSettlementLeg) (sourceAt dueAt : Instant) :
    List FundingQuote :=
  (evidence.fundingQuotes.filter (fun row =>
      row.venue = leg.venue && row.asset = upper leg.asset
        && sourceAt ≤ row.observedAt && row.observedAt ≤ dueAt)).filter (fun row =>
    row.venue = leg.venue && upper row.asset = upper leg.asset
      && (!truthy row.symbol || row.symbol = some leg.symbol))

/-- `_historical_mid`: among the 200 newest rows of the venue and asset not after the
    instant, the newest of the leg's instrument. -/
def historicalMid (leg : PaperSettlementLeg) (observedAt : Instant) : Option Positive :=
  let rows := (evidence.marketQuotes.filter (fun row =>
    row.venue = leg.venue && row.asset = upper leg.asset && row.observedAt ≤ observedAt))
  ((rows.reverse.take 200).find? (fun quote =>
    quote.marketKind.value = leg.marketKind && quote.symbol = leg.symbol)).map MarketQuote.mid

/-- The funding events of a window: for each event time, the newest rate observed no later
    than the event. -/
def fundingEvents (rows : List FundingQuote) (sourceAt dueAt : Instant) :
    Dict Instant FundingQuote :=
  rows.foldl (fun byEvent quote =>
    match quote.nextFundingTime with
    | none => byEvent
    | some eventAt =>
      if sourceAt < eventAt ∧ eventAt ≤ dueAt ∧ quote.observedAt ≤ eventAt then
        Dict.keepNewest (fun _ => eventAt) FundingQuote.observedAt byEvent quote
      else byEvent) Dict.empty

/-- The accrued funding of a list of events, unless the price at one of them is unknown. -/
def accruedFunding (leg : PaperSettlementLeg) : List (Instant × FundingQuote) → ℚ → Option ℚ
  | [], total => some total
  | (eventAt, quote) :: rest, total =>
    match historicalMid upper evidence leg eventAt with
    | none => none
    | some mid =>
      let sign : ℚ := if leg.side = .long then 1 else -1
      let eventNotional : ℚ := leg.baseQuantity * mid
      accruedFunding leg rest (total + -sign * eventNotional * quote.rate)

/-- `_funding_for_leg`: the funding a leg accrued and the number of its events; `none`
    when the evidence is incomplete. -/
def fundingForLeg (leg : PaperSettlementLeg) (sourceAt dueAt : Instant) : Option (ℚ × ℕ) :=
  if leg.marketKind ≠ MarketKind.perpetual.value then some (0, 0)
  else
    let rows := fundingQuotesForLeg upper evidence leg sourceAt dueAt
    if rows.isEmpty then none
    else if rows.all (fun quote => quote.nextFundingTime.isNone) then none
    else
      let byEvent := fundingEvents rows sourceAt dueAt
      let events := byEvent.items.insertionSort (fun p q => p.1 ≤ q.1)
      (accruedFunding upper evidence leg events 0).map (fun total => (total, events.length))

end Funding

/-! ### The three settlement methods -/

section Settle

variable (upper : String → String) (evidence : Evidence)

/-- The instrument a directional trial exits in, when the trial names one. -/
def PaperAllocationTrial.instrumentKey (trial : PaperAllocationTrial) : Option InstrumentKey :=
  match trial.venues, trial.instrumentSymbol, trial.instrumentMarketKind with
  | venue :: _, some symbol, some kind => some (venue, upper trial.asset, kind, symbol)
  | _, _, _ => none

/-- `_settle_spot_long`. The exit quote is the last listed one of the instrument; its time is
    not compared with the due time of the trial. -/
def settleSpotLong (outcomeId : Uuid) (trial : PaperAllocationTrial) (snapshot : ScanSnapshot) :
    Option PaperAllocationOutcome := do
  let entry ← trial.entryReferencePrice
  let cost ← trial.modeledRoundtripCostReturn
  let key ← trial.instrumentKey upper
  let quote ← (certificationQuoteIndex upper snapshot).get? key
  let gross : ℚ := quote.mid / entry - 1
  let realizedNet := gross - cost
  let realizedProfit := trial.notionalUsd * realizedNet
  return {
    outcomeId := outcomeId
    trialId := trial.trialId
    candidateId := trial.candidateId
    family := trial.family
    strategy := trial.strategy
    asset := trial.asset
    maturedAt := snapshot.completedAt
    dueAt := trial.dueAt.getD snapshot.completedAt
    entryReferencePrice := some entry
    exitReferencePrice := some quote.mid
    realizedGrossReturn := gross
    realizedNetReturn := realizedNet
    realizedProfitUsd := realizedProfit
    realizedPricePnlUsd := some (trial.notionalUsd * gross)
    realizedFundingPnlUsd := 0
    modeledNonSlippageCostUsd := trial.notionalUsd * cost
    legOutcomes := []
    predictedProfitUsd := trial.predictedProfitUsd
    predictionErrorUsd := realizedProfit - trial.predictedProfitUsd
    profitCaptureRatio := profitCapture realizedProfit trial.predictedProfitUsd
    profitable := 0 < realizedProfit
    settlementMethod := orText trial.settlementMethod spotLongSettlementMethod }

/-- `_settle_perp_short`. A field that is missing, an exit quote that is not listed or a funding
    that is not known leaves the trial pending. -/
def settlePerpShort (outcomeId : Uuid) (trial : PaperAllocationTrial) (snapshot : ScanSnapshot) :
    Option PaperAllocationOutcome := do
  let entry ← trial.entryReferencePrice
  let cost ← trial.modeledRoundtripCostReturn
  let dueAt ← trial.dueAt
  let sourceAt ← trial.sourceObservedAt
  let leg ← trial.settlementLegs.head?
  let key ← trial.instrumentKey upper
  -- the exit is the last listed quote of the instrument, whatever its time
  let quote ← (certificationQuoteIndex upper snapshot).get? key
  let (fundingPnl, fundingEvents) ← fundingForLeg upper evidence leg sourceAt dueAt
  let notional : ℚ := trial.notionalUsd
  let capital : ℚ := trial.capitalRequiredUsd
  let pricePnl := notional * (1 - quote.mid / entry)
  -- a short gains what the price falls, and pays the modelled round trip
  let realizedProfit := pricePnl + fundingPnl - notional * cost
  return {
    outcomeId := outcomeId
    trialId := trial.trialId
    candidateId := trial.candidateId
    family := trial.family
    strategy := trial.strategy
    asset := trial.asset
    maturedAt := snapshot.completedAt
    dueAt := dueAt
    entryReferencePrice := some entry
    exitReferencePrice := some quote.mid
    realizedGrossReturn := (pricePnl + fundingPnl) / capital
    realizedNetReturn := realizedProfit / capital
    realizedProfitUsd := realizedProfit
    realizedPricePnlUsd := some pricePnl
    realizedFundingPnlUsd := fundingPnl
    modeledNonSlippageCostUsd := notional * cost
    legOutcomes := [{
      venue := leg.venue
      asset := leg.asset
      marketKind := leg.marketKind
      side := leg.side
      symbol := leg.symbol
      baseQuantity := leg.baseQuantity
      entryPrice := leg.entryPrice
      exitPrice := quote.mid
      entryNotionalUsd := leg.entryNotionalUsd
      exitNotionalUsd := ⟨leg.baseQuantity * quote.mid, mul_pos leg.baseQuantity.2 quote.mid.2⟩
      pricePnlUsd := pricePnl
      fundingPnlUsd := fundingPnl
      fundingEventCount := fundingEvents
      exitSlippageBps := 0
      exitLevelsConsumed := 0
      exitFillSource := "market_quote_mid" }]
    predictedProfitUsd := trial.predictedProfitUsd
    predictionErrorUsd := realizedProfit - trial.predictedProfitUsd
    profitCaptureRatio := profitCapture realizedProfit trial.predictedProfitUsd
    profitable := 0 < realizedProfit
    settlementMethod := orText trial.settlementMethod perpShortSettlementMethod }

/-- The taker side that closes a leg. -/
def closeSide (side : Side) : TradeSide :=
  match side with
  | .long => .sell
  | .short => .buy

/-- The key under which a leg's quote or book is looked up. -/
def PaperSettlementLeg.key (leg : PaperSettlementLeg) : InstrumentKey :=
  (leg.venue, upper leg.asset, leg.marketKind, leg.symbol)

/-- The outcome of closing one leg against its book. A missing book and a book that is too thin
    leave the trial pending, and a quantity that is not positive raises. -/
def settleLeg (books : Dict InstrumentKey OrderBookSnapshot) (leg : PaperSettlementLeg)
    (funding : ℚ × ℕ) : Except Raised (Option PaperSettlementLegOutcome) :=
  match books.get? (leg.key upper) with
  | none => .ok none
  | some book =>
    match estimateMarketOrderQuantity book (closeSide leg.side) leg.baseQuantity true with
    | .error .insufficientDepth => .ok none
    | .error .valueError => .error (.valueError "base_quantity must be positive")
    | .ok fill => do
      let exitPrice ← positive "PaperSettlementLegOutcome" "exit_price" fill.averagePrice
      let exitNotionalUsd ←
        positive "PaperSettlementLegOutcome" "exit_notional_usd" fill.filledNotionalUsd
      let exitSlippageBps ←
        nonNegative "PaperSettlementLegOutcome" "exit_slippage_bps" fill.slippageBps
      let pricePnl : ℚ :=
        if leg.side = .long then leg.baseQuantity * (fill.averagePrice - leg.entryPrice)
        else leg.baseQuantity * (leg.entryPrice - fill.averagePrice)
      return some {
        venue := leg.venue
        asset := leg.asset
        marketKind := leg.marketKind
        side := leg.side
        symbol := leg.symbol
        baseQuantity := leg.baseQuantity
        entryPrice := leg.entryPrice
        exitPrice := exitPrice
        entryNotionalUsd := leg.entryNotionalUsd
        exitNotionalUsd := exitNotionalUsd
        pricePnlUsd := pricePnl
        fundingPnlUsd := funding.1
        fundingEventCount := funding.2
        exitSlippageBps := exitSlippageBps
        exitLevelsConsumed := fill.levelsConsumed
        exitFillSource := "visible_l2" }

/-- The loop over the legs and their funding rows. -/
def settleLegs (books : Dict InstrumentKey OrderBookSnapshot) :
    List (PaperSettlementLeg × ℚ × ℕ) → Except Raised (Option (List PaperSettlementLegOutcome))
  | [] => .ok (some [])
  | (leg, funding) :: rest => do
    match ← settleLeg upper books leg funding with
    | none => return none
    | some outcome =>
      match ← settleLegs books rest with
      | none => return none
      | some outcomes => return some (outcome :: outcomes)

/-- The funding rows of all legs, unless one of them lacks evidence. -/
def fundingRows (sourceAt dueAt : Instant) : List PaperSettlementLeg → Option (List (ℚ × ℕ))
  | [] => some []
  | leg :: rest => do
    let funding ← fundingForLeg upper evidence leg sourceAt dueAt
    let fundings ← fundingRows sourceAt dueAt rest
    return funding :: fundings

/-- The outcome of a two-leg trial once its legs are closed. -/
def multilegOutcome (outcomeId : Uuid) (trial : PaperAllocationTrial) (snapshot : ScanSnapshot)
    (dueAt : Instant) (costBps : ℚ≥0) (legOutcomes : List PaperSettlementLegOutcome) :
    PaperAllocationOutcome :=
  let pricePnl := (legOutcomes.map PaperSettlementLegOutcome.pricePnlUsd).sum
  let fundingPnl := (legOutcomes.map PaperSettlementLegOutcome.fundingPnlUsd).sum
  let costUsd : ℚ := trial.notionalUsd * costBps / 10000
  let grossProfit := pricePnl + fundingPnl
  let realizedProfit := grossProfit - costUsd
  let capital : ℚ := trial.capitalRequiredUsd
  { outcomeId := outcomeId
    trialId := trial.trialId
    candidateId := trial.candidateId
    family := trial.family
    strategy := trial.strategy
    asset := trial.asset
    maturedAt := snapshot.completedAt
    dueAt := dueAt
    entryReferencePrice := none
    exitReferencePrice := none
    realizedGrossReturn := grossProfit / capital
    realizedNetReturn := realizedProfit / capital
    realizedProfitUsd := realizedProfit
    realizedPricePnlUsd := some pricePnl
    realizedFundingPnlUsd := fundingPnl
    modeledNonSlippageCostUsd := costUsd
    legOutcomes := legOutcomes
    predictedProfitUsd := trial.predictedProfitUsd
    predictionErrorUsd := realizedProfit - trial.predictedProfitUsd
    profitCaptureRatio := profitCapture realizedProfit trial.predictedProfitUsd
    profitable := 0 < realizedProfit
    settlementMethod := orText trial.settlementMethod multiLegSettlementMethod }

/-- `_settle_multileg`. The two legs are closed against their books, with the funding between
    source and due time. -/
def settleMultileg (outcomeId : Uuid) (trial : PaperAllocationTrial) (snapshot : ScanSnapshot) :
    Except Raised (Option PaperAllocationOutcome) :=
  match trial.dueAt, trial.sourceObservedAt, trial.modeledNonSlippageCostBps with
  | some dueAt, some sourceAt, some costBps =>
    if trial.settlementLegs.length ≠ 2 then .ok none
    else
      match fundingRows upper evidence sourceAt dueAt trial.settlementLegs with
      | none => .ok none
      | some fundings => do
        let closed ← settleLegs upper (bookIndex upper snapshot)
          (trial.settlementLegs.zip fundings)
        return closed.map (multilegOutcome outcomeId trial snapshot dueAt costBps)
  | _, _, _ => .ok none

/-- `_settle_trial`. The method decides how a trial is settled; an unsupported one never is. -/
def settleTrial (outcomeId : Uuid) (trial : PaperAllocationTrial) (snapshot : ScanSnapshot) :
    Except Raised (Option PaperAllocationOutcome) :=
  if !trial.settlementSupported || trial.dueAt.isNone then .ok none
  else if trial.settlementMethod = some multiLegSettlementMethod then
    settleMultileg upper evidence outcomeId trial snapshot
  else if trial.settlementMethod = some perpShortSettlementMethod then
    .ok (settlePerpShort upper evidence outcomeId trial snapshot)
  else .ok (settleSpotLong upper outcomeId trial snapshot)

/-! ### Settling never raises -/

/-- Closing a leg raises nothing: a fill has the positive amounts its record validates. -/
theorem settleLeg_total (books : Dict InstrumentKey OrderBookSnapshot) (leg : PaperSettlementLeg)
    (funding : ℚ × ℕ) : ∃ outcome, settleLeg upper books leg funding = .ok outcome := by
  unfold settleLeg
  cases books.get? (leg.key upper) with
  | none => exact ⟨none, rfl⟩
  | some book =>
    cases hfill : estimateMarketOrderQuantity book (closeSide leg.side) leg.baseQuantity true with
    | error e =>
      cases e with
      | insufficientDepth => exact ⟨none, by simp [hfill]⟩
      | valueError => exact absurd hfill (estimateMarketOrderQuantity_ne_valueError leg.baseQuantity.2)
    | ok fill =>
      obtain ⟨-, hnotional, haverage, -, hslippage⟩ := estimateMarketOrderQuantity_sound hfill
      simp only [hfill, positive_of_lt haverage, positive_of_lt hnotional,
        nonNegative_of_le hslippage]
      exact ⟨_, rfl⟩

/-- A leg is only closed against its book. -/
theorem book_of_settleLeg {books : Dict InstrumentKey OrderBookSnapshot} {leg : PaperSettlementLeg}
    {funding : ℚ × ℕ} {outcome : PaperSettlementLegOutcome}
    (h : settleLeg upper books leg funding = .ok (some outcome)) :
    ∃ book, books.get? (leg.key upper) = some book := by
  unfold settleLeg at h
  cases hbook : books.get? (leg.key upper) with
  | none =>
    rw [hbook] at h
    cases h
  | some book => exact ⟨book, rfl⟩

/-- Closing the legs raises nothing, and when it succeeds every leg had a book. -/
theorem settleLegs_total (books : Dict InstrumentKey OrderBookSnapshot)
    (rows : List (PaperSettlementLeg × ℚ × ℕ)) :
    ∃ outcomes, settleLegs upper books rows = .ok outcomes
      ∧ (outcomes.isSome → ∀ row ∈ rows, ∃ book, books.get? (row.1.key upper) = some book) := by
  induction rows with
  | nil => exact ⟨some [], rfl, fun _ row hrow => by cases hrow⟩
  | cons row rest ih =>
    obtain ⟨leg, funding⟩ := row
    obtain ⟨outcome, houtcome⟩ := settleLeg_total upper books leg funding
    obtain ⟨outcomes, houtcomes, hbooks⟩ := ih
    cases outcome with
    | none =>
      -- the first leg has no book, so the trial stays pending
      refine ⟨none, ?_, fun h => by cases h⟩
      rw [settleLegs, houtcome]
      rfl
    | some closed =>
      cases outcomes with
      | none =>
        -- the first leg closes but a later one does not
        refine ⟨none, ?_, fun h => by cases h⟩
        rw [settleLegs, houtcome]
        show (settleLegs upper books rest >>= _) = _
        rw [houtcomes]
        rfl
      | some closeds =>
        -- every leg closes, each against the book of its own key
        refine ⟨some (closed :: closeds), ?_, fun _ row hrow => ?_⟩
        · rw [settleLegs, houtcome]
          show (settleLegs upper books rest >>= _) = _
          rw [houtcomes]
          rfl
        · rcases List.mem_cons.mp hrow with rfl | hrow
          · exact book_of_settleLeg upper houtcome
          · exact hbooks rfl row hrow

/-- The funding rows match the legs one to one. -/
theorem length_fundingRows {sourceAt dueAt : Instant} {legs : List PaperSettlementLeg}
    {fundings : List (ℚ × ℕ)}
    (h : fundingRows upper evidence sourceAt dueAt legs = some fundings) :
    fundings.length = legs.length := by
  induction legs generalizing fundings with
  | nil =>
    injection h with h
    rw [← h]
    rfl
  | cons leg rest ih =>
    simp only [fundingRows, Option.bind_eq_bind, Option.bind_eq_some_iff, Option.pure_def,
      Option.some.injEq] at h
    obtain ⟨funding, -, fundings', hrest, rfl⟩ := h
    rw [List.length_cons, List.length_cons, ih hrest]

/-- Settling a two-leg trial raises nothing, and its outcome needs a book for every leg. -/
theorem settleMultileg_total (outcomeId : Uuid) (trial : PaperAllocationTrial)
    (snapshot : ScanSnapshot) :
    ∃ outcome, settleMultileg upper evidence outcomeId trial snapshot = .ok outcome
      ∧ ∀ o, outcome = some o → o.trialId = trial.trialId ∧ trial.settlementLegs.length = 2
        ∧ ∀ leg ∈ trial.settlementLegs,
          ∃ book, (bookIndex upper snapshot).get? (leg.key upper) = some book := by
  unfold settleMultileg
  split
  -- the trial has its due time, its source time and its costs
  · rename_i dueAt sourceAt costBps _ _ _
    split
    · exact ⟨none, rfl, fun o ho => by cases ho⟩
    · rename_i hlength
      split
      · exact ⟨none, rfl, fun o ho => by cases ho⟩
      · rename_i fundings hfundings
        -- a pair has exactly two legs
        obtain ⟨closed, hclosed, hbooks⟩ := settleLegs_total upper
          (bookIndex upper snapshot) (trial.settlementLegs.zip fundings)
        refine ⟨closed.map (multilegOutcome outcomeId trial snapshot dueAt costBps), ?_, ?_⟩
        · rw [hclosed]
          rfl
        · intro o ho
          obtain ⟨legOutcomes, hlegs, rfl⟩ := Option.map_eq_some_iff.mp ho
          refine ⟨rfl, not_not.mp hlength, fun leg hleg => ?_⟩
          -- the funding rows are one for each leg, so the zip drops no leg
          obtain ⟨i, hi, rfl⟩ := List.getElem_of_mem hleg
          have hlt : i < (trial.settlementLegs.zip fundings).length := by
            rw [List.length_zip, length_fundingRows upper evidence hfundings, min_self]
            exact hi
          have hrow := hbooks (by rw [hlegs]; rfl) _ (List.getElem_mem hlt)
          rwa [List.getElem_zip] at hrow
  · exact ⟨none, rfl, fun o ho => by cases ho⟩

/-- The outcome of a perpetual short exits at the last-listed quote of its instrument. -/
theorem settlePerpShort_eq_some {outcomeId : Uuid} {trial : PaperAllocationTrial}
    {snapshot : ScanSnapshot} {o : PaperAllocationOutcome}
    (h : settlePerpShort upper evidence outcomeId trial snapshot = some o) :
    o.trialId = trial.trialId ∧ ∃ dueAt sourceAt leg key quote, trial.dueAt = some dueAt
      ∧ trial.sourceObservedAt = some sourceAt ∧ trial.settlementLegs.head? = some leg
      ∧ trial.instrumentKey upper = some key
      ∧ (certificationQuoteIndex upper snapshot).get? key = some quote
      ∧ (fundingForLeg upper evidence leg sourceAt dueAt).isSome
      ∧ o.exitReferencePrice = some quote.mid := by
  simp only [settlePerpShort, Option.bind_eq_bind, Option.bind_eq_some_iff, Option.pure_def,
    Option.some.injEq] at h
  obtain ⟨_, -, _, -, dueAt, hdue, sourceAt, hsource, leg, hleg, key, hkey, quote, hquote, _,
    hfunding, rfl⟩ := h
  exact ⟨rfl, dueAt, sourceAt, leg, key, quote, hdue, hsource, hleg, hkey, hquote,
    Option.isSome_of_eq_some hfunding, rfl⟩

/-- A perpetual short with its metadata settles when its instrument is quoted and its
    funding evidence is complete. -/
theorem settlePerpShort_isSome (outcomeId : Uuid) {trial : PaperAllocationTrial}
    (snapshot : ScanSnapshot) {sourceAt dueAt : Instant} {leg : PaperSettlementLeg}
    {key : InstrumentKey} {quote : MarketQuote} (hentry : trial.entryReferencePrice.isSome)
    (hcost : trial.modeledRoundtripCostReturn.isSome) (hdue : trial.dueAt = some dueAt)
    (hsource : trial.sourceObservedAt = some sourceAt) (hleg : trial.settlementLegs.head? = some leg)
    (hkey : trial.instrumentKey upper = some key)
    (hquote : (certificationQuoteIndex upper snapshot).get? key = some quote)
    (hfunding : (fundingForLeg upper evidence leg sourceAt dueAt).isSome) :
    ∃ o, settlePerpShort upper evidence outcomeId trial snapshot = some o := by
  obtain ⟨entry, hentry⟩ := Option.isSome_iff_exists.mp hentry
  obtain ⟨cost, hcost⟩ := Option.isSome_iff_exists.mp hcost
  obtain ⟨funding, hfunding⟩ := Option.isSome_iff_exists.mp hfunding
  simp only [settlePerpShort, hentry, hcost, hdue, hsource, hleg, hkey, hquote, hfunding,
    Option.bind_eq_bind, Option.bind_some]
  exact ⟨_, rfl⟩

/-- **Totality.** Settling a trial raises nothing, and its outcome is one of the trial. -/
theorem settleTrial_total (outcomeId : Uuid) (trial : PaperAllocationTrial)
    (snapshot : ScanSnapshot) :
    ∃ outcome, settleTrial upper evidence outcomeId trial snapshot = .ok outcome
      ∧ ∀ o, outcome = some o → o.trialId = trial.trialId := by
  unfold settleTrial
  split
  · exact ⟨none, rfl, fun o ho => by cases ho⟩
  · split
    · obtain ⟨outcome, houtcome, hspec⟩ :=
        settleMultileg_total upper evidence outcomeId trial snapshot
      exact ⟨outcome, houtcome, fun o ho => (hspec o ho).1⟩
    · split
      · exact ⟨_, rfl, fun o ho => (settlePerpShort_eq_some upper evidence ho).1⟩
      · refine ⟨_, rfl, fun o ho => ?_⟩
        simp only [settleSpotLong, Option.bind_eq_bind, Option.bind_eq_some_iff, Option.pure_def,
          Option.some.injEq] at ho
        obtain ⟨_, -, _, -, _, -, _, -, rfl⟩ := ho
        rfl

end Settle

end InefficiencyEngine.Portfolio
