import InefficiencyEngine.Lib.Machine
import InefficiencyEngine.Research.HistoricalReplay

namespace InefficiencyEngine.Research

open Portfolio

/-!
# The replay cache

`CycleHistoricalResearch` keeps the summaries of its last replay with a key made of the candles
the replay was over: their number, the latest of them, and the preferred providers.  Recording
candles drops the key.  What the summaries also depend on is not in the key: the strategy, the
settings, the capital, and the evaluation time (`not_neverChangesAnswer`).  Calls that ask again
only what the cached replay was asked get the answer of a fresh instance
(`neverChangesAnswer_of_asksAgain`).
-/

/-! ### The instance -/

/-- The key of the cache: the number of candles, the latest time, and the preferred providers. -/
structure ReplayCacheKey where
  quoteCount : ℕ
  latest : Instant
  preferredKey : String
  deriving DecidableEq

/-- An instance of `CycleHistoricalResearch`: its table and its cache. -/
structure CycleHistoricalResearch where
  rows : List HistoricalQuoteRow
  replayCacheKey : Option ReplayCacheKey
  replayCache : ReplaySummaries

/-- A new instance over stored candles. -/
def CycleHistoricalResearch.init (rows : List HistoricalQuoteRow) : CycleHistoricalResearch where
  rows := rows
  replayCacheKey := none
  replayCache := Dict.empty

/-- What a replay is asked. -/
structure ReplayRequest (σ : Type) where
  strategy : HistoricalStrategy σ
  settings : ReplaySettings σ
  totalCapitalUsd : ℚ
  now : Instant

section Instance

variable {σ : Type} (T : HistoryTexts) (backfillDays : ℕ)

/-- The window of the backfill: the days before the day of an instant, at least 260 of them. -/
def replayWindow (now : Instant) : Instant × Instant :=
  (utcDayStart now - max 260 backfillDays * (24 * hour), utcDayStart now)

/-- The candles a replay is over, in the order of time. -/
def replayQuotes (rows : List HistoricalQuoteRow) (now : Instant) : List MarketQuote :=
  let stored := (rows.insertionSort (fun a b => a.observedAt ≤ b.observedAt)).map
    HistoricalQuoteRow.payload
  filterPreferredQuotes T rows stored (replayWindow backfillDays now).1
    (replayWindow backfillDays now).2

/-- The key of candles whose latest is of an instant. -/
def replayCacheKey (rows : List HistoricalQuoteRow) (quotes : List MarketQuote)
    (latest now : Instant) : ReplayCacheKey where
  quoteCount := quotes.length
  latest := latest
  preferredKey :=
    let preferred := preferredVenueByAsset T rows (quotes.map (fun quote => T.upper quote.asset))
      (replayWindow backfillDays now).1 (replayWindow backfillDays now).2
    ",".intercalate ((preferred.items.insertionSort (fun a b => a.1 ≤ b.1)).map
      (fun item => item.1 ++ ":" ++ item.2.2))

/-- `replay_summaries`: what it returns, and the instance it leaves. -/
def replaySummaries (s : CycleHistoricalResearch) (request : ReplayRequest σ) :
    Except Raised ReplaySummaries × CycleHistoricalResearch :=
  let quotes := replayQuotes T backfillDays s.rows request.now
  match (quotes.map MarketQuote.observedAt).max? with
  | none => (.ok Dict.empty, s)
  | some latest =>
    let cacheKey := replayCacheKey T backfillDays s.rows quotes latest request.now
    if s.replayCacheKey = some cacheKey then (.ok s.replayCache, s)
    else
      match replayOver T request.strategy request.settings request.totalCapitalUsd quotes
        (min latest request.now) with
      | .error raised => (.error raised, s)
      | .ok summaries =>
        (.ok summaries, { s with replayCacheKey := some cacheKey, replayCache := summaries })

/-- `record_quotes`: how many candles it stored, and the instance it leaves. -/
def recordQuotes (s : CycleHistoricalResearch) (quotes : List MarketQuote) :
    ℕ × CycleHistoricalResearch :=
  let offered := T.rows quotes
  if offered.isEmpty then (0, s)
  else
    let rows := insertRows s.rows offered
    (rows.length - s.rows.length, { s with rows := rows, replayCacheKey := none })

/-! ### Runs -/

/-- A call on an instance. -/
inductive ResearchCall (σ : Type)
  | replaySummaries (request : ReplayRequest σ)
  | recordQuotes (quotes : List MarketQuote)

/-- Everything a replay depends on. -/
structure ReplayQuestion (σ : Type) where
  strategy : HistoricalStrategy σ
  settings : ReplaySettings σ
  totalCapitalUsd : ℚ
  quotes : List MarketQuote
  lastKnown : Instant

/-- The replay of a question. -/
def ReplayQuestion.answer (q : ReplayQuestion σ) : Except Raised ReplaySummaries :=
  replayOver T q.strategy q.settings q.totalCapitalUsd q.quotes q.lastKnown

/-- What a request asks of the stored candles, if there are any for it. -/
def ReplayRequest.question? (request : ReplayRequest σ) (rows : List HistoricalQuoteRow) :
    Option (ReplayQuestion σ) :=
  let quotes := replayQuotes T backfillDays rows request.now
  ((quotes.map MarketQuote.observedAt).max?).map (fun latest =>
    ⟨request.strategy, request.settings, request.totalCapitalUsd, quotes, min latest request.now⟩)

/-- The key under which a request looks for its answer. -/
def ReplayRequest.cacheKey? (request : ReplayRequest σ) (rows : List HistoricalQuoteRow) :
    Option ReplayCacheKey :=
  let quotes := replayQuotes T backfillDays rows request.now
  ((quotes.map MarketQuote.observedAt).max?).map (fun latest =>
    replayCacheKey T backfillDays rows quotes latest request.now)

/-- An instance, and what its cached summaries were asked. -/
structure ResearchWorld (σ : Type) where
  research : CycleHistoricalResearch
  asked : Option (ReplayQuestion σ)

/-- A new instance has not been asked anything. -/
def ResearchWorld.init (rows : List HistoricalQuoteRow) : ResearchWorld σ :=
  ⟨.init rows, none⟩

/-- One call. A request is answered from the cache or asked, and quotes can be recorded in
    between. -/
def researchStep (w : ResearchWorld σ) : ResearchCall σ → ResearchWorld σ
  | .replaySummaries request =>
    let research := (replaySummaries T backfillDays w.research request).2
    { research := research
      asked :=
        if research.replayCacheKey = w.research.replayCacheKey then w.asked
        else request.question? T backfillDays w.research.rows }
  | .recordQuotes quotes => { w with research := (recordQuotes T w.research quotes).2 }

/-- The cache never changes an answer: in the run of the calls, each replay returns what a new
    instance over the same stored candles returns. -/
def NeverChangesAnswer (rows : List HistoricalQuoteRow) (calls : List (ResearchCall σ)) : Prop :=
  ∀ before request after, calls = before ++ .replaySummaries request :: after →
    let research := (run (researchStep T backfillDays) (.init rows) before).research
    (replaySummaries T backfillDays research request).1
      = (replaySummaries T backfillDays (.init research.rows) request).1

/-- A call asks again only what the cache answers: a replay that finds its own key was asked the
    strategy, the settings, the capital, the candles and the last instant of the replay behind
    it. -/
def AsksAgain (w : ResearchWorld σ) : ResearchCall σ → Prop
  | .replaySummaries request =>
    ∀ key, request.cacheKey? T backfillDays w.research.rows = some key →
      w.research.replayCacheKey = some key →
      w.asked = request.question? T backfillDays w.research.rows
  | .recordQuotes _ => True

/-! ### What the cache holds -/

/-- Cached summaries answer what was asked. -/
def ResearchWorld.CacheSound (w : ResearchWorld σ) : Prop :=
  w.research.replayCacheKey.isSome →
    ∃ q, w.asked = some q ∧ q.answer T = .ok w.research.replayCache

/-- What a replay returns, and what it leaves, by its question. -/
theorem replaySummaries_eq (s : CycleHistoricalResearch) (request : ReplayRequest σ) :
    (request.question? T backfillDays s.rows = none
        ∧ replaySummaries T backfillDays s request = (.ok Dict.empty, s))
      ∨ ∃ q key, request.question? T backfillDays s.rows = some q
        ∧ request.cacheKey? T backfillDays s.rows = some key
        ∧ replaySummaries T backfillDays s request
          = if s.replayCacheKey = some key then (.ok s.replayCache, s)
            else match q.answer T with
              | .error raised => (.error raised, s)
              | .ok summaries =>
                (.ok summaries, { s with replayCacheKey := some key, replayCache := summaries }) := by
  unfold ReplayRequest.question? ReplayRequest.cacheKey? replaySummaries
  dsimp only
  cases hlatest : ((replayQuotes T backfillDays s.rows request.now).map
      MarketQuote.observedAt).max? with
  | none => exact Or.inl ⟨rfl, rfl⟩
  | some latest => exact Or.inr ⟨_, _, rfl, rfl, rfl⟩

/-- A new instance answers the question of the request. -/
theorem replaySummaries_init (rows : List HistoricalQuoteRow) (request : ReplayRequest σ) :
    (replaySummaries T backfillDays (.init rows) request).1
      = (request.question? T backfillDays rows).elim (.ok Dict.empty) (fun q => q.answer T) := by
  rcases replaySummaries_eq T backfillDays (.init rows) request with
    ⟨hnone, heq⟩ | ⟨q, key, hq, -, heq⟩
  · replace hnone : request.question? T backfillDays rows = none := hnone
    rw [heq, hnone]
    rfl
  · replace hq : request.question? T backfillDays rows = some q := hq
    rw [heq, hq, if_neg (by rintro ⟨⟩)]
    cases hanswer : q.answer T with
    | error raised => exact hanswer.symm
    | ok summaries => exact hanswer.symm

/-- A replay stores no candles. -/
theorem rows_replaySummaries (s : CycleHistoricalResearch) (request : ReplayRequest σ) :
    (replaySummaries T backfillDays s request).2.rows = s.rows := by
  rcases replaySummaries_eq T backfillDays s request with ⟨-, heq⟩ | ⟨q, key, -, -, heq⟩
  · rw [heq]
  · rw [heq]
    split
    · rfl
    · split <;> rfl

/-- A replay that changes the key was asked what its summaries answer. -/
theorem asked_researchStep {w : ResearchWorld σ} {request : ReplayRequest σ}
    (h : (replaySummaries T backfillDays w.research request).2.replayCacheKey
      ≠ w.research.replayCacheKey) :
    (researchStep T backfillDays w (.replaySummaries request)).asked
      = request.question? T backfillDays
        (researchStep T backfillDays w (.replaySummaries request)).research.rows := by
  show (if _ then _ else _) = request.question? T backfillDays
    (replaySummaries T backfillDays w.research request).2.rows
  rw [if_neg h, rows_replaySummaries]

variable {T backfillDays}

/-- **Step.** Every call leaves a sound cache. -/
theorem ResearchWorld.CacheSound.step {w : ResearchWorld σ} (h : w.CacheSound T)
    (call : ResearchCall σ) : (researchStep T backfillDays w call).CacheSound T := by
  cases call with
  | recordQuotes quotes =>
    unfold researchStep recordQuotes
    dsimp only
    split
    · exact h
    · intro hkey
      cases hkey
  | replaySummaries request =>
    unfold researchStep
    dsimp only
    rcases replaySummaries_eq T backfillDays w.research request with ⟨-, heq⟩ | ⟨q, key, hq, -, heq⟩
    · rw [heq, if_pos rfl]
      exact h
    · rw [heq]
      by_cases hhit : w.research.replayCacheKey = some key
      · rw [if_pos hhit, if_pos rfl]
        exact h
      · rw [if_neg hhit]
        cases hanswer : q.answer T with
        | error raised =>
          rw [if_pos rfl]
          exact h
        | ok summaries =>
          -- the key is new, and so is the question
          rw [if_neg (fun hsame => hhit hsame.symm)]
          exact fun _ => ⟨q, hq, hanswer⟩

/-- A replay that asks again what a sound cache answers returns what a new instance returns. -/
theorem ResearchWorld.CacheSound.answer {w : ResearchWorld σ} (h : w.CacheSound T)
    {request : ReplayRequest σ} (hagain : AsksAgain T backfillDays w (.replaySummaries request)) :
    (replaySummaries T backfillDays w.research request).1
      = (replaySummaries T backfillDays (.init w.research.rows) request).1 := by
  rw [replaySummaries_init]
  rcases replaySummaries_eq T backfillDays w.research request with
    ⟨hnone, heq⟩ | ⟨q, key, hq, hkey, heq⟩
  · rw [heq, hnone]
    rfl
  · rw [heq, hq]
    by_cases hhit : w.research.replayCacheKey = some key
    · obtain ⟨asked, hasked, hanswer⟩ := h (Option.isSome_of_eq_some hhit)
      have hsame : asked = q :=
        Option.some.inj (hasked.symm.trans ((hagain key hkey hhit).trans hq))
      rw [if_pos hhit]
      show Except.ok w.research.replayCache = q.answer T
      rw [← hanswer, hsame]
    · rw [if_neg hhit]
      show _ = q.answer T
      cases hanswer : q.answer T with
      | error raised => rfl
      | ok summaries => rfl

/-- **The cache and the questions.** In every run whose replays ask again only what the cache
    answers, the cache never changes an answer. -/
theorem neverChangesAnswer_of_asksAgain (rows : List HistoricalQuoteRow)
    (calls : List (ResearchCall σ))
    (h : Meets (researchStep T backfillDays) (AsksAgain T backfillDays) (.init rows) calls) :
    NeverChangesAnswer T backfillDays rows calls := by
  rintro before request after rfl
  obtain ⟨hbefore, hcall, -⟩ := Meets.append.mp h
  have hsound : (run (researchStep T backfillDays) (.init rows) before).CacheSound T :=
    run_invariant (I := fun w => ResearchWorld.CacheSound T w) (fun w call hw _ => hw.step call)
      (fun hkey => (by cases hkey)) hbefore
  exact hsound.answer hcall

end Instance

/-! ### Two strategies on one instance -/

namespace ReplayCache

/-- Texts that are taken as they are. -/
def texts : HistoryTexts where
  upper := id
  blank text := text = ""
  quoteId quote := quote.venue ++ quote.symbol ++ toString quote.observedAt

/-- A candle of bitcoin. -/
def candle (mid : Positive) (observedAt : Instant) : MarketQuote :=
  ⟨"Coinbase", "BTC", .spot, "BTC-USD", mid, observedAt⟩

/-- Two candles, six hours apart. -/
def candles : List MarketQuote := [candle 100 0, candle 110 (6 * hour)]

/-- Settings without fees. -/
def settings : ReplaySettings Unit := ⟨0, 0, 0, 0, 0, 0, 1, 0, ()⟩

/-- A long of bitcoin for an hour. -/
def buy (observedAt : Instant) : AlphaCandidate where
  candidateId := "buy"
  strategyId := "buyer"
  family := "cycle"
  asset := "BTC"
  direction := .long
  venue := "Coinbase"
  marketKind := .spot
  symbol := "BTC-USD"
  observedAt := observedAt
  horizonHours := 1
  entryReferencePrice := 100
  estimatedCostReturn := 0
  expectedNetReturn := 0
  regime := .normal

/-- A strategy that finds the given candidates at every instant. -/
def finding (strategyId : String) (found : Instant → List AlphaCandidate) :
    HistoricalStrategy Unit where
  strategyId := strategyId
  horizonHours := 0
  requiredHistoryHours _ := .ok 0
  discover snapshot _ _ _ := .ok (found snapshot.completedAt)

/-- A replay of a strategy at six o'clock. -/
def request (strategy : HistoricalStrategy Unit) : ReplayRequest Unit :=
  ⟨strategy, settings, 100000, 6 * hour⟩

/-- A strategy that never finds anything. -/
def idle : HistoricalStrategy Unit := finding "idle" (fun _ => [])

/-- A strategy that always buys bitcoin. -/
def buyer : HistoricalStrategy Unit := finding "buyer" (fun observedAt => [buy observedAt])

end ReplayCache

open ReplayCache

/-- **Counterexample.** The summaries of an idle strategy are served to the one that buys: the
    cache returns no summary, a new instance returns one. -/
theorem not_neverChangesAnswer :
    ¬ NeverChangesAnswer texts 260 []
      [.recordQuotes candles, .replaySummaries (request idle), .replaySummaries (request buyer)] := by
  intro h
  have hsame := h [.recordQuotes candles, .replaySummaries (request idle)] (request buyer) [] rfl
  have hcount := congrArg (fun answer => (answer.toOption.map (fun d => d.items.length))) hsame
  revert hcount
  decide +kernel

/-- A strategy that asks twice gets the answer of a new instance, and again after new candles. -/
theorem neverChangesAnswer_buyer :
    NeverChangesAnswer texts 260 [] [.recordQuotes candles, .replaySummaries (request buyer),
      .replaySummaries (request buyer), .recordQuotes [candle 120 (12 * hour)],
      .replaySummaries (request buyer)] := by
  refine neverChangesAnswer_of_asksAgain [] _ ⟨trivial, ?_, ?_, trivial, ?_, trivial⟩
  · intro key _ hkey
    cases hkey
  · exact fun key _ _ => asked_researchStep texts 260 (by decide +kernel)
  · intro key _ hkey
    cases hkey

end InefficiencyEngine.Research
