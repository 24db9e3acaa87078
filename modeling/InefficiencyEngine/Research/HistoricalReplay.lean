import InefficiencyEngine.Research.AlphaFactory
import Mathlib.Data.List.Sort
import Mathlib.Data.Prod.Lex
import Mathlib.Data.String.Basic

namespace InefficiencyEngine.Research

open Portfolio

/-!
# The walk-forward replay of the stored history

`CycleHistoricalResearch` (`cycle_probation.py`) stores backfilled candles in a table of their
own and replays a strategy over them: every 72 hours from the first candle on that leaves the
strategy its history, the strategy sees the candles up to then and what it finds is closed at
the first candle after its horizon.  Each asset is replayed on one preferred provider.

Instants count the microseconds of the Unix epoch.
-/

/-! ### The table -/

/-- What the research relies on of its libraries: `str.upper`, whether `str.strip` leaves
    nothing, and the digest that identifies a candle. -/
structure HistoryTexts where
  upper : String → String
  blank : String → Bool
  quoteId : MarketQuote → String

/-- A row of `cycle_historical_quotes`. -/
structure HistoricalQuoteRow where
  quoteId : String
  venue : String
  asset : String
  observedAt : Instant
  payload : MarketQuote

/-- `HISTORICAL_PROVIDER_VENUES`. -/
def historicalProviderVenues : List String := ["Coinbase", "OKX", "Bybit", "CoinGecko"]

/-- `_PROVIDER_PRIORITY.get(venue, 0)`. The exchanges come before the aggregator. -/
def providerPriority (venue : String) : ℕ :=
  if venue = "Coinbase" then 4
  else if venue = "OKX" then 3
  else if venue = "Bybit" then 2
  else if venue = "CoinGecko" then 1
  else 0

/-- The microseconds of an hour. -/
def hour : Instant := 3600000000

/-- `HISTORICAL_CANDLE_SECONDS`. -/
def historicalCandle : Instant := 6 * hour

/-- `HISTORICAL_REPLAY_STEP_HOURS`. -/
def historicalReplayStep : Instant := 72 * hour

/-- `_utc_day_start`. -/
def utcDayStart (t : Instant) : Instant := t - t % (24 * hour)

/-- The row `record_quotes` makes of a candle. -/
def HistoryTexts.row (T : HistoryTexts) (quote : MarketQuote) : HistoricalQuoteRow where
  quoteId := T.quoteId quote
  venue := quote.venue
  asset := T.upper quote.asset
  observedAt := quote.observedAt
  payload := quote

/-- The rows `record_quotes` offers: spot candles of the providers. -/
def HistoryTexts.rows (T : HistoryTexts) (quotes : List MarketQuote) : List HistoricalQuoteRow :=
  (quotes.filter (fun quote =>
    quote.marketKind = .spot && historicalProviderVenues.contains quote.venue)).map T.row

/-- `INSERT ... ON CONFLICT DO NOTHING` on the id. -/
def insertRows (stored offered : List HistoricalQuoteRow) : List HistoricalQuoteRow :=
  offered.foldl (fun rows row =>
    if rows.any (fun other => other.quoteId = row.quoteId) then rows else rows ++ [row]) stored

/-! ### The preferred provider -/

/-- A row of `_provider_coverage_rows`. -/
structure ProviderCoverage where
  asset : String
  venue : String
  count : ℕ
  earliest : Instant
  latest : Instant

/-- `_provider_coverage_rows` within a window: one row for each asset and provider. -/
def providerCoverageRows (T : HistoryTexts) (rows : List HistoricalQuoteRow)
    (assets : List String) (start stop : Instant) : List ProviderCoverage :=
  let allowed := (assets.filter (fun asset => !T.blank asset)).map T.upper
  let selected := rows.filter (fun row =>
    (allowed.isEmpty || allowed.contains row.asset) && start ≤ row.observedAt
      && row.observedAt < stop)
  let keys := ((selected.map (fun row => (row.asset, row.venue))).dedup).insertionSort
    (fun a b => a.1 < b.1 ∨ a.1 = b.1 ∧ a.2 ≤ b.2)
  keys.filterMap (fun key =>
    let times := (selected.filter (fun row => (row.asset, row.venue) = key)).map
      HistoricalQuoteRow.observedAt
    match times.min?, times.max? with
    | some earliest, some latest => some ⟨T.upper key.1, key.2, times.length, earliest, latest⟩
    | _, _ => none)

/-- A provider's score: complete coverage first, then its span, its count and its priority. -/
abbrev ProviderScore := ℕ ×ₗ Instant ×ₗ ℕ ×ₗ ℕ

/-- The score of a coverage row against a window. -/
def ProviderCoverage.score (coverage : ProviderCoverage) (start stop : Instant) : ProviderScore :=
  let expected := max 1 ((stop - start) / historicalCandle)
  let complete := start < stop && expected * 9 / 10 ≤ coverage.count
    && coverage.earliest ≤ start + 72 * hour && stop - 72 * hour ≤ coverage.latest
  let span := max 0 (min coverage.latest stop - max coverage.earliest start)
  toLex (if complete then 1 else 0, toLex (span, toLex (coverage.count,
    providerPriority coverage.venue)))

/-- `_preferred_venue_by_asset` within a window: the first provider of the highest score. -/
def preferredVenueByAsset (T : HistoryTexts) (rows : List HistoricalQuoteRow)
    (assets : List String) (start stop : Instant) : Dict String (ProviderScore × String) :=
  (providerCoverageRows T rows assets start stop).foldl (fun best coverage =>
    let score := coverage.score start stop
    match best.get? coverage.asset with
    | none => best.set coverage.asset (score, coverage.venue)
    | some current =>
      if current.1 < score then best.set coverage.asset (score, coverage.venue) else best)
    Dict.empty

/-- `_filter_preferred_quotes`. An asset with a preferred venue keeps the quotes of that venue
    only. -/
def filterPreferredQuotes (T : HistoryTexts) (rows : List HistoricalQuoteRow)
    (quotes : List MarketQuote) (start stop : Instant) : List MarketQuote :=
  let preferred := preferredVenueByAsset T rows
    (quotes.map (fun quote => T.upper quote.asset)) start stop
  quotes.filter (fun quote =>
    match preferred.get? (T.upper quote.asset) with
    | none => true
    | some (_, venue) => venue = quote.venue)

/-! ### Strategies -/

/-- The settings a replay reads, and those only its strategy reads. -/
structure ReplaySettings (σ : Type) where
  coinbaseSpotTakerFeeBps : ℚ
  okxSpotTakerFeeBps : ℚ
  bybitSpotTakerFeeBps : ℚ
  krakenSpotTakerFeeBps : ℚ
  alphaExecutionRiskFloorBps : ℚ
  alphaMinForwardMeanReturn : ℚ
  alphaMinRegimes : ℤ
  alphaMinRegimeMeanReturn : ℚ
  forStrategy : σ

/-- The key of a series of candles. -/
abbrev SeriesKey := String × String × MarketKind

/-- The candles of each series up to some time. -/
abbrev PointHistory := Dict SeriesKey (List MarketQuote)

/-- What a replay uses of a strategy.  Both functions may raise. -/
structure HistoricalStrategy (σ : Type) where
  strategyId : String
  horizonHours : ℚ
  requiredHistoryHours : ReplaySettings σ → Except Raised ℚ
  discover : ScanSnapshot → PointHistory → ReplaySettings σ → ℚ →
    Except Raised (List AlphaCandidate)

/-- `CycleReplaySummary`. What the replay of one strategy on one asset amounts to. -/
structure CycleReplaySummary where
  strategyId : String
  asset : String
  direction : AlphaDirection
  sampleCount : ℕ
  positiveCount : ℕ
  hitRate : Option ℚ
  meanRealizedNetReturn : Option ℚ
  regimeCount : ℕ
  regimeMeans : List (AlphaRegime × ℚ)
  qualifiedForProbationarySupport : Bool

/-- The mapping a replay returns. -/
abbrev ReplaySummaries := Dict (String × AlphaDirection) CycleReplaySummary

/-- The realized net returns of a replay, with their regimes. -/
abbrev ReplayOutcomes := Dict (String × AlphaDirection) (List (ℚ × AlphaRegime))

/-- `_historical_spot_taker_fee_bps`. A venue without a fee of its own pays the highest of the
    four. -/
def historicalSpotTakerFeeBps {σ : Type} (settings : ReplaySettings σ) (venue : String) : ℚ :=
  if venue = "Coinbase" then settings.coinbaseSpotTakerFeeBps
  else if venue = "OKX" then settings.okxSpotTakerFeeBps
  else if venue = "Bybit" then settings.bybitSpotTakerFeeBps
  else if venue = "Kraken" then settings.krakenSpotTakerFeeBps
  else max (max settings.coinbaseSpotTakerFeeBps settings.okxSpotTakerFeeBps)
    (max settings.bybitSpotTakerFeeBps settings.krakenSpotTakerFeeBps)

/-! ### One point of the replay -/

/-- Candles by observation time; equal times keep their order. -/
def byObservedAt (quotes : List MarketQuote) : List MarketQuote :=
  quotes.insertionSort (fun a b => a.observedAt ≤ b.observedAt)

/-- The series of the candles, each in the order of time. -/
def groupedSeries (T : HistoryTexts) (quotes : List MarketQuote) : PointHistory :=
  let grouped := Dict.group (fun quote => (quote.venue, T.upper quote.asset, quote.marketKind)) quotes
  grouped.items.foldl (fun d item => d.set item.1 (byObservedAt item.2)) Dict.empty

/-- `_exit_quote`: the first candle not before the instant, if it is at most 12 hours later. -/
def exitQuote (series : List MarketQuote) (dueAt : Instant) : Option MarketQuote :=
  match (series.dropWhile (fun quote => quote.observedAt < dueAt)).head? with
  | none => none
  | some quote => if 12 * hour < quote.observedAt - dueAt then none else some quote

/-- What is visible at an instant: of each series with a candle in the last 12 hours, that candle
    and the series so far. -/
def visibleAt (grouped : PointHistory) (evaluation : Instant) : List MarketQuote × PointHistory :=
  grouped.items.foldl (fun point item =>
    let visible := item.2.takeWhile (fun quote => quote.observedAt ≤ evaluation)
    match visible.getLast? with
    | none => point
    | some latest =>
      if 12 * hour < evaluation - latest.observedAt then point
      else (point.1 ++ [latest], point.2.set item.1 visible)) ([], Dict.empty)

/-- The realized net return of a candidate that has an exit. -/
def realizedNet {σ : Type} (settings : ReplaySettings σ) (candidate : AlphaCandidate)
    (exit : MarketQuote) : ℚ :=
  let raw := (exit.mid : ℚ) / candidate.entryReferencePrice - 1
  let directional := if candidate.direction = .long then raw else -raw
  let feeFloor := if candidate.marketKind = .spot then
    (2 * historicalSpotTakerFeeBps settings candidate.venue + settings.alphaExecutionRiskFloorBps)
      / 10000 else 0
  directional - max (candidate.estimatedCostReturn : ℚ) feeFloor

/-- The outcomes with one candidate closed, if it has an exit. -/
def recordOutcome {σ : Type} (T : HistoryTexts) (settings : ReplaySettings σ)
    (grouped : PointHistory) (outcomes : ReplayOutcomes) (candidate : AlphaCandidate) :
    ReplayOutcomes :=
  let series := (grouped.get?
    (candidate.venue, T.upper candidate.asset, candidate.marketKind)).getD []
  match exitQuote series (candidate.observedAt + timedeltaHours candidate.horizonHours) with
  | none => outcomes
  | some exit =>
    let key := (T.upper candidate.asset, candidate.direction)
    outcomes.set key ((outcomes.get? key).getD []
      ++ [(realizedNet settings candidate exit, candidate.regime)])

/-- The snapshot a strategy sees at an instant. -/
def replaySnapshot (evaluation : Instant) (current : List MarketQuote) : ScanSnapshot where
  scanId := "historical-replay-" ++ toString (evaluation / 1000000)
  completedAt := evaluation
  marketQuotes := current
  orderBooks := []

/-- One iteration of the replay loop. -/
def replayPoint {σ : Type} (T : HistoryTexts) (strategy : HistoricalStrategy σ)
    (settings : ReplaySettings σ) (totalCapitalUsd : ℚ) (grouped : PointHistory)
    (outcomes : ReplayOutcomes) (evaluation : Instant) : Except Raised ReplayOutcomes :=
  let (current, pointHistory) := visibleAt grouped evaluation
  if current.isEmpty then .ok outcomes
  else do
    let candidates ← strategy.discover (replaySnapshot evaluation current) pointHistory settings
      totalCapitalUsd
    return candidates.foldl (recordOutcome T settings grouped) outcomes

/-- The instants of the replay loop, `while evaluation <= replay_end`. -/
def evaluations (start stop : Instant) : List Instant :=
  (List.range ((stop - start) / historicalReplayStep + 1).toNat).map
    (fun k => start + k * historicalReplayStep)

/-! ### The summaries -/

/-- `statistics.fmean`. -/
def fmean (values : List ℚ) : ℚ := values.sum / values.length

/-- `HISTORICAL_REPLAY_MIN_SAMPLES`. -/
def historicalReplayMinSamples : ℕ := 24

/-- `HISTORICAL_REPLAY_MIN_HIT_RATE`. -/
def historicalReplayMinHitRate : ℚ := 55 / 100

/-- The summary of the outcomes of an asset and a direction. Probationary support asks for
    enough samples, for a mean and a hit rate above their floors, and for enough regimes, each
    above its own. -/
def summarize {σ : Type} (strategy : HistoricalStrategy σ) (settings : ReplaySettings σ)
    (key : String × AlphaDirection) (rows : List (ℚ × AlphaRegime)) : CycleReplaySummary :=
  let values := rows.map Prod.fst
  let positive := (values.filter (fun value => 0 < value)).length
  let regimes : Dict AlphaRegime (List (ℚ × AlphaRegime)) := Dict.group Prod.snd rows
  let regimeMeans := regimes.items.map (fun item => (item.1, fmean (item.2.map Prod.fst)))
  let mean := if values.isEmpty then none else some (fmean values)
  let hit : Option ℚ := if values.isEmpty then none else some (positive / values.length)
  { strategyId := strategy.strategyId
    asset := key.1
    direction := key.2
    sampleCount := values.length
    positiveCount := positive
    hitRate := hit
    meanRealizedNetReturn := mean
    regimeCount := regimeMeans.length
    regimeMeans := regimeMeans
    qualifiedForProbationarySupport := historicalReplayMinSamples ≤ values.length
      && mean.any (fun mean => settings.alphaMinForwardMeanReturn < mean)
      && hit.any (fun hit => historicalReplayMinHitRate ≤ hit)
      && settings.alphaMinRegimes ≤ regimeMeans.length
      && regimeMeans.all (fun item => settings.alphaMinRegimeMeanReturn < item.2) }

/-- The summaries of a replay over candles, up to an instant: everything behind the cache. -/
def replayOver {σ : Type} (T : HistoryTexts) (strategy : HistoricalStrategy σ)
    (settings : ReplaySettings σ) (totalCapitalUsd : ℚ) (quotes : List MarketQuote)
    (lastKnown : Instant) : Except Raised ReplaySummaries :=
  match (quotes.map MarketQuote.observedAt).min? with
  | none => .ok Dict.empty
  | some earliest => do
    let grouped := groupedSeries T quotes
    let required ← strategy.requiredHistoryHours settings
    let outcomes ← (evaluations (earliest + timedeltaHours required)
      (lastKnown - timedeltaHours strategy.horizonHours)).foldlM
        (replayPoint T strategy settings totalCapitalUsd grouped) Dict.empty
    return outcomes.items.foldl
      (fun d item => d.set item.1 (summarize strategy settings item.1 item.2)) Dict.empty

end InefficiencyEngine.Research
