import InefficiencyEngine.Research.WalkForward
import Mathlib.Data.List.Dedup

namespace InefficiencyEngine.Research

open Portfolio

/-!
# Look-ahead through the preferred provider

A replay is over the candles of one provider for each asset: the one that covers the window of the
backfill best.  The window reaches up to the day of the evaluation time, and so the choice depends
on candles that were observed after the instants that are replayed.

A replay over a history does not look ahead exactly if the candles it is over are still on their
preferred providers when candles observed later are added (`noLookAhead_iff`).
-/

/-! ### The preferred provider -/

/-- Texts whose upper case is its own upper case, as that of Python is. -/
structure ReplayTexts extends HistoryTexts where
  upper_upper : ∀ text, upper (upper text) = upper text

/-- Rows of candles that name their assets. -/
def OfCandles (T : HistoryTexts) (rows : List HistoricalQuoteRow) : Prop :=
  ∀ row ∈ rows, row = T.row row.payload ∧ T.blank row.asset = false

/-- Whether a candle is of the preferred provider of its asset, or of an asset without one. -/
def onPreferred (T : HistoryTexts) (backfillDays : ℕ) (rows : List HistoricalQuoteRow)
    (now : Instant) (quote : MarketQuote) : Bool :=
  let assets := ((sortOn HistoricalQuoteRow.observedAt rows).map HistoricalQuoteRow.payload).map
    (fun quote => T.upper quote.asset)
  match (preferredVenueByAsset T rows assets (replayWindow backfillDays now).1
    (replayWindow backfillDays now).2).get? (T.upper quote.asset) with
  | none => true
  | some (_, venue) => venue = quote.venue

/-- A replay is over the candles of the preferred providers. -/
theorem replayQuotes_eq (T : HistoryTexts) (backfillDays : ℕ) (rows : List HistoricalQuoteRow)
    (now : Instant) :
    replayQuotes T backfillDays rows now
      = ((sortOn HistoricalQuoteRow.observedAt rows).map HistoricalQuoteRow.payload).filter
        (onPreferred T backfillDays rows now) := rfl

section Coverage

variable {T : HistoryTexts} {rows : List HistoricalQuoteRow} {assets : List String}
  {start stop : Instant}

/-- A coverage row is of a provider with a candle in the window. -/
theorem of_mem_providerCoverageRows {coverage : ProviderCoverage}
    (h : coverage ∈ providerCoverageRows T rows assets start stop) :
    ∃ row ∈ rows, start ≤ row.observedAt ∧ row.observedAt < stop
      ∧ coverage.asset = T.upper row.asset ∧ coverage.venue = row.venue := by
  obtain ⟨key, hkey, hcoverage⟩ := List.mem_filterMap.mp h
  rw [List.mem_insertionSort, List.mem_dedup] at hkey
  obtain ⟨row, hrow, rfl⟩ := List.mem_map.mp hkey
  obtain ⟨hmem, hselected⟩ := List.mem_filter.mp hrow
  simp only [Bool.and_eq_true, decide_eq_true_eq] at hselected
  dsimp only at hcoverage
  split at hcoverage
  · obtain rfl := Option.some.inj hcoverage
    exact ⟨row, hmem, hselected.1.2, hselected.2, rfl, rfl⟩
  · cases hcoverage

/-- A candle in the window, of an asset that is asked for, is covered. -/
theorem exists_mem_providerCoverageRows {row : HistoricalQuoteRow} (hrow : row ∈ rows)
    (hasset : row.asset ∈ (assets.filter (fun asset => !T.blank asset)).map T.upper)
    (hstart : start ≤ row.observedAt) (hstop : row.observedAt < stop) :
    ∃ coverage ∈ providerCoverageRows T rows assets start stop,
      coverage.asset = T.upper row.asset := by
  unfold providerCoverageRows
  dsimp only
  generalize hallowed : (assets.filter (fun asset => !T.blank asset)).map T.upper = allowed
  rw [hallowed] at hasset
  generalize hselected : rows.filter (fun row => (allowed.isEmpty || allowed.contains row.asset)
    && decide (start ≤ row.observedAt) && decide (row.observedAt < stop)) = selected
  have hmem : row ∈ selected := by
    rw [← hselected]
    refine List.mem_filter.mpr ⟨hrow, ?_⟩
    simp [hasset, hstart, hstop]
  have hkey : (row.asset, row.venue)
      ∈ (selected.map (fun row => (row.asset, row.venue))).dedup.insertionSort
        (fun a b => a.1 < b.1 ∨ a.1 = b.1 ∧ a.2 ≤ b.2) := by
    rw [List.mem_insertionSort, List.mem_dedup]
    exact List.mem_map_of_mem hmem
  have htime : row.observedAt ∈ (selected.filter (fun other =>
      (other.asset, other.venue) = (row.asset, row.venue))).map HistoricalQuoteRow.observedAt :=
    List.mem_map_of_mem (List.mem_filter.mpr ⟨hmem, by simp⟩)
  generalize htimes : (selected.filter (fun other =>
    (other.asset, other.venue) = (row.asset, row.venue))).map HistoricalQuoteRow.observedAt
      = times at htime
  -- the candle itself is among the times, so there is a first and a last one
  cases hmin : times.min? with
  | none =>
    rw [List.min?_eq_none_iff.mp hmin] at htime
    cases htime
  | some earliest =>
    cases hmax : times.max? with
    | none =>
      rw [List.max?_eq_none_iff.mp hmax] at htime
      cases htime
    | some latest =>
      refine ⟨⟨T.upper row.asset, row.venue, times.length, earliest, latest⟩,
        List.mem_filterMap.mpr ⟨_, hkey, ?_⟩, rfl⟩
      dsimp only
      rw [htimes, hmin, hmax]

/-- A preferred provider covers its asset, and every covered asset has one. -/
theorem preferredVenueByAsset_spec :
    (∀ asset current, (preferredVenueByAsset T rows assets start stop).get? asset = some current →
        ∃ coverage ∈ providerCoverageRows T rows assets start stop,
          coverage.asset = asset ∧ coverage.venue = current.2)
      ∧ ∀ coverage ∈ providerCoverageRows T rows assets start stop,
        (preferredVenueByAsset T rows assets start stop).get? coverage.asset ≠ none := by
  unfold preferredVenueByAsset
  refine foldl_invariant (P := fun (seen : List ProviderCoverage)
      (best : Dict String (ProviderScore × String)) =>
    (∀ asset current, best.get? asset = some current →
      ∃ coverage ∈ seen, coverage.asset = asset ∧ coverage.venue = current.2)
    ∧ ∀ coverage ∈ seen, best.get? coverage.asset ≠ none) ?_ _ ?_
  · rintro seen best coverage ⟨hfound, hcovered⟩
    -- the entry of the coverage row's asset is replaced or stays
    have hset : (∀ asset current, (best.set coverage.asset
          (coverage.score start stop, coverage.venue)).get? asset = some current →
          ∃ c ∈ seen ++ [coverage], c.asset = asset ∧ c.venue = current.2)
        ∧ ∀ c ∈ seen ++ [coverage], (best.set coverage.asset
          (coverage.score start stop, coverage.venue)).get? c.asset ≠ none := by
      refine ⟨fun asset current hget => ?_, fun c hc => ?_⟩
      · rw [Dict.get?_set] at hget
        split at hget
        · rename_i hasset
          obtain rfl := Option.some.inj hget
          exact ⟨coverage, by simp, hasset, rfl⟩
        · obtain ⟨c, hc, hspec⟩ := hfound asset current hget
          exact ⟨c, List.mem_append_left _ hc, hspec⟩
      · rw [Dict.get?_set]
        split
        · exact Option.some_ne_none _
        · rename_i hne
          rcases List.mem_append.mp hc with hc | hc
          · exact hcovered c hc
          · exact absurd (congrArg ProviderCoverage.asset (List.mem_singleton.mp hc)).symm hne
    have hstay : best.get? coverage.asset ≠ none →
        (∀ asset current, best.get? asset = some current →
          ∃ c ∈ seen ++ [coverage], c.asset = asset ∧ c.venue = current.2)
        ∧ ∀ c ∈ seen ++ [coverage], best.get? c.asset ≠ none := by
      intro hsome
      refine ⟨fun asset current hget => ?_, fun c hc => ?_⟩
      · obtain ⟨c, hc, hspec⟩ := hfound asset current hget
        exact ⟨c, List.mem_append_left _ hc, hspec⟩
      · rcases List.mem_append.mp hc with hc | hc
        · exact hcovered c hc
        · rw [List.mem_singleton.mp hc]
          exact hsome
    dsimp only
    cases hcurrent : best.get? coverage.asset with
    | none => exact hset
    | some current =>
      dsimp only
      split
      · exact hset
      · exact hstay (by rw [hcurrent]; exact Option.some_ne_none _)
  · exact ⟨fun asset current hget => (by cases hget), fun c hc => (by cases hc)⟩

end Coverage

section Preferred

variable {T : ReplayTexts} {backfillDays : ℕ} {rows : List HistoricalQuoteRow} {now : Instant}

/-- What is not of the preferred provider has a candle of it beside it, in the window. -/
theorem exists_of_not_onPreferred (hrows : OfCandles T.toHistoryTexts rows) {quote : MarketQuote}
    (h : onPreferred T.toHistoryTexts backfillDays rows now quote = false) :
    ∃ row ∈ rows, (replayWindow backfillDays now).1 ≤ row.observedAt
      ∧ row.observedAt < (replayWindow backfillDays now).2
      ∧ T.upper row.payload.asset = T.upper quote.asset
      ∧ ∀ other : MarketQuote, T.upper other.asset = T.upper quote.asset →
        (onPreferred T.toHistoryTexts backfillDays rows now other = true
          ↔ other.venue = row.payload.venue) := by
  unfold onPreferred at h
  dsimp only at h
  split at h
  · cases h
  · rename_i score venue hget
    obtain ⟨coverage, hcoverage, hasset, hvenue⟩ := preferredVenueByAsset_spec.1 _ _ hget
    obtain ⟨row, hrow, hstart, hstop, hsame, hprovider⟩ := of_mem_providerCoverageRows hcoverage
    obtain ⟨heq, -⟩ := hrows row hrow
    have hupper : row.asset = T.upper row.payload.asset :=
      congrArg HistoricalQuoteRow.asset heq
    have hvenue' : row.payload.venue = venue :=
      (congrArg HistoricalQuoteRow.venue heq).symm.trans (hprovider.symm.trans hvenue)
    refine ⟨row, hrow, hstart, hstop, ?_, fun other hother => ?_⟩
    · rw [← hasset, hsame, hupper, T.upper_upper]
    · unfold onPreferred
      dsimp only
      rw [hother, hget, hvenue']
      exact decide_eq_true_iff.trans eq_comm

/-- Of an asset with a candle in the window, one provider only is preferred. The map of the
    preferred venues has one entry for each asset with coverage, and a quote is on its preferred
    venue only if that entry names it. -/
theorem venue_eq_of_onPreferred (hrows : OfCandles T.toHistoryTexts rows)
    {row : HistoricalQuoteRow} (hrow : row ∈ rows)
    (hstart : (replayWindow backfillDays now).1 ≤ row.observedAt)
    (hstop : row.observedAt < (replayWindow backfillDays now).2) {quote other : MarketQuote}
    (hquote : T.upper quote.asset = T.upper row.payload.asset)
    (hother : T.upper other.asset = T.upper row.payload.asset)
    (h : onPreferred T.toHistoryTexts backfillDays rows now quote = true)
    (h' : onPreferred T.toHistoryTexts backfillDays rows now other = true) :
    quote.venue = other.venue := by
  obtain ⟨heq, hnamed⟩ := hrows row hrow
  have hupper : row.asset = T.upper row.payload.asset := congrArg HistoricalQuoteRow.asset heq
  have hasked : row.asset ∈ ((((sortOn HistoricalQuoteRow.observedAt rows).map
      HistoricalQuoteRow.payload).map (fun quote => T.upper quote.asset)).filter
        (fun asset => !T.blank asset)).map T.upper := by
    refine List.mem_map.mpr ⟨row.asset, List.mem_filter.mpr ⟨?_, by rw [hnamed]; rfl⟩, ?_⟩
    · rw [hupper]
      exact List.mem_map_of_mem (List.mem_map_of_mem (mem_sortOn.mpr hrow))
    · rw [hupper, T.upper_upper]
  -- the asset has coverage, so its entry exists
  obtain ⟨coverage, hcoverage, hasset⟩ :=
    exists_mem_providerCoverageRows (T := T.toHistoryTexts) hrow hasked hstart hstop
  have hsome := preferredVenueByAsset_spec.2 coverage hcoverage
  rw [hasset, hupper, T.upper_upper] at hsome
  unfold onPreferred at h h'
  dsimp only at h h'
  rw [hquote] at h
  rw [hother] at h'
  cases hget : (preferredVenueByAsset T.toHistoryTexts rows
      (((sortOn HistoricalQuoteRow.observedAt rows).map HistoricalQuoteRow.payload).map
        (fun quote => T.upper quote.asset)) (replayWindow backfillDays now).1
      (replayWindow backfillDays now).2).get? (T.upper row.payload.asset) with
  | none => exact absurd hget hsome
  | some current =>
    rw [hget] at h h'
    exact (of_decide_eq_true h).symm.trans (of_decide_eq_true h')

end Preferred

/-! ### Histories that grow -/

/-- Stored candles, and candles that were all observed later. -/
structure ExtendedHistory (T : HistoryTexts) where
  stored : List HistoricalQuoteRow
  later : List HistoricalQuoteRow
  candles : OfCandles T (stored ++ later)
  newer : ∀ old ∈ stored, ∀ new ∈ later, old.observedAt < new.observedAt

/-- The longer history. -/
def ExtendedHistory.grown {T : HistoryTexts} (history : ExtendedHistory T) :
    List HistoricalQuoteRow :=
  history.stored ++ history.later

/-- **No look-ahead.** Whatever is collected from the stored candles, by a strategy that closes its
    candidates later than it finds them, is also collected from the longer history, in the same
    order. -/
def NoLookAhead (T : HistoryTexts) (backfillDays : ℕ) (history : ExtendedHistory T)
    (now : Instant) : Prop :=
  ∀ (σ : Type) (strategy : HistoricalStrategy σ) (settings : ReplaySettings σ)
      (totalCapitalUsd : ℚ), 0 < strategy.horizonHours →
    (replayOutcomes T strategy settings totalCapitalUsd backfillDays history.stored now).Sublist
      (replayOutcomes T strategy settings totalCapitalUsd backfillDays history.grown now)

/-- If a stored candle on its preferred provider is not of the future, then every stored candle on
    the preferred provider stays on it in the longer history. -/
def KeepsProviders (T : HistoryTexts) (backfillDays : ℕ) (history : ExtendedHistory T)
    (now : Instant) : Prop :=
  (∃ row ∈ history.stored, row.observedAt ≤ now
      ∧ onPreferred T backfillDays history.stored now row.payload = true) →
    ∀ row ∈ history.stored, onPreferred T backfillDays history.stored now row.payload = true →
      onPreferred T backfillDays history.grown now row.payload = true

section Candles

variable {T : HistoryTexts} {backfillDays : ℕ} {rows : List HistoricalQuoteRow} {now : Instant}

theorem OfCandles.observedAt (h : OfCandles T rows) {row : HistoricalQuoteRow} (hrow : row ∈ rows) :
    row.payload.observedAt = row.observedAt :=
  (congrArg HistoricalQuoteRow.observedAt (h row hrow).1).symm

theorem mem_replayQuotes {quote : MarketQuote} :
    quote ∈ replayQuotes T backfillDays rows now
      ↔ (∃ row ∈ rows, row.payload = quote)
        ∧ onPreferred T backfillDays rows now quote = true := by
  rw [replayQuotes_eq, List.mem_filter, List.mem_map]
  simp only [mem_sortOn]

/-- Candles in the order of their rows are in the order of time. -/
theorem OfCandles.pairwise (h : OfCandles T rows) :
    ((sortOn HistoricalQuoteRow.observedAt rows).map HistoricalQuoteRow.payload).Pairwise
      (fun a b => a.observedAt ≤ b.observedAt) := by
  refine List.pairwise_map.mpr ((pairwise_sortOn rows).imp_of_mem ?_)
  intro a b ha hb hle
  rw [h.observedAt (mem_sortOn.mp ha), h.observedAt (mem_sortOn.mp hb)]
  exact hle

end Candles

section Growth

variable {T : ReplayTexts} {backfillDays : ℕ} {now : Instant}
  (history : ExtendedHistory T.toHistoryTexts)

theorem ExtendedHistory.ofCandles_stored : OfCandles T.toHistoryTexts history.stored :=
  fun row hrow => history.candles row (List.mem_append_left _ hrow)

theorem ExtendedHistory.ofCandles_grown : OfCandles T.toHistoryTexts history.grown :=
  history.candles

/-- Candles that stay on their preferred providers leave the others where they are. -/
theorem onPreferred_grown (h : ∀ row ∈ history.stored,
      onPreferred T.toHistoryTexts backfillDays history.stored now row.payload = true →
        onPreferred T.toHistoryTexts backfillDays history.grown now row.payload = true)
    {row : HistoricalQuoteRow} (hrow : row ∈ history.stored) :
    onPreferred T.toHistoryTexts backfillDays history.grown now row.payload
      = onPreferred T.toHistoryTexts backfillDays history.stored now row.payload := by
  cases hstored : onPreferred T.toHistoryTexts backfillDays history.stored now row.payload with
  | true => exact h row hrow hstored
  | false =>
    -- the candle of the preferred provider that stands beside it stays on it
    obtain ⟨other, hother, hstart, hstop, hasset, honly⟩ :=
      exists_of_not_onPreferred history.ofCandles_stored hstored
    have hkept := h other hother ((honly other.payload hasset).mpr rfl)
    rw [Bool.eq_false_iff]
    intro hgrown
    have hvenue := venue_eq_of_onPreferred history.candles (List.mem_append_left _ hother) hstart
      hstop hasset.symm rfl hgrown hkept
    rw [(honly row.payload rfl).mpr hvenue] at hstored
    cases hstored

/-- If candles stay on their preferred providers, the replay of the longer history is over the
    same candles and later ones. -/
theorem replayQuotes_grown (h : ∀ row ∈ history.stored,
      onPreferred T.toHistoryTexts backfillDays history.stored now row.payload = true →
        onPreferred T.toHistoryTexts backfillDays history.grown now row.payload = true) :
    ∃ more, replayQuotes T.toHistoryTexts backfillDays history.grown now
        = replayQuotes T.toHistoryTexts backfillDays history.stored now ++ more
      ∧ ∀ quote ∈ more, ∀ row ∈ history.stored, row.observedAt < quote.observedAt := by
  have hsorted : sortOn HistoricalQuoteRow.observedAt history.grown
      = sortOn HistoricalQuoteRow.observedAt history.stored
        ++ sortOn HistoricalQuoteRow.observedAt history.later :=
    sortOn_append (fun old hold new hnew => (history.newer old hold new hnew).le)
  refine ⟨((sortOn HistoricalQuoteRow.observedAt history.later).map
    HistoricalQuoteRow.payload).filter
      (onPreferred T.toHistoryTexts backfillDays history.grown now), ?_, ?_⟩
  · rw [replayQuotes_eq, replayQuotes_eq, hsorted, List.map_append, List.filter_append]
    refine congrArg (· ++ _) (List.filter_congr (fun quote hquote => ?_))
    obtain ⟨row, hrow, rfl⟩ := List.mem_map.mp hquote
    exact onPreferred_grown history h (mem_sortOn.mp hrow)
  · intro quote hquote row hrow
    obtain ⟨new, hnew, rfl⟩ := List.mem_map.mp (List.mem_filter.mp hquote).1
    have hlater := mem_sortOn.mp hnew
    rw [history.candles.observedAt (List.mem_append_right _ hlater)]
    exact history.newer row hrow new hlater

/-- `timedelta` of hours that are not negative. -/
theorem timedeltaHours_nonneg {hours : ℚ} (h : 0 ≤ hours) : 0 ≤ timedeltaHours hours := by
  have hfloor : (0 : ℤ) ≤ ⌊hours * 3600000000⌋ := Int.floor_nonneg.mpr (by positivity)
  unfold timedeltaHours roundHalfEven
  split_ifs <;> omega

variable {σ : Type} {strategy : HistoricalStrategy σ} {settings : ReplaySettings σ}
  {totalCapitalUsd : ℚ}

/-- Candles of the future are not replayed. -/
theorem collect_of_unseen {quotes : List MarketQuote} {instants : List Instant}
    (hsorted : quotes.Pairwise (fun a b => a.observedAt ≤ b.observedAt))
    (h : ∀ evaluation ∈ instants, ∀ quote ∈ quotes, evaluation < quote.observedAt) :
    collect T.toHistoryTexts strategy settings totalCapitalUsd
      (groupedSeries T.toHistoryTexts quotes) instants = [] := by
  induction instants with
  | nil => rfl
  | cons evaluation rest ih =>
    have hvisible : visibleAt (groupedSeries T.toHistoryTexts quotes) evaluation
        = visibleAt (groupedSeries T.toHistoryTexts []) evaluation :=
      @visibleAt_append T.toHistoryTexts [] quotes evaluation hsorted
        (h evaluation (List.mem_cons_self ..))
    have hnothing : collectAt T.toHistoryTexts strategy settings totalCapitalUsd
        (groupedSeries T.toHistoryTexts quotes) evaluation = .ok [] := by
      unfold collectAt
      rw [hvisible]
      rfl
    unfold collect
    rw [hnothing]
    exact ih (fun e he => h e (List.mem_cons_of_mem _ he))

/-- **Enough.** A replay over candles that stay on their preferred providers does not look
    ahead. The longer replay sees the quotes of the shorter one and later ones, which no
    evaluation of the shorter one can see, so its outcomes are an initial part. -/
theorem noLookAhead_of_keepsProviders
    (h : KeepsProviders T.toHistoryTexts backfillDays history now) :
    NoLookAhead T.toHistoryTexts backfillDays history now := by
  intro σ strategy settings totalCapitalUsd hhorizon
  have hstored : (replayQuotes T.toHistoryTexts backfillDays history.stored now).Pairwise
      (fun a b => a.observedAt ≤ b.observedAt) := history.ofCandles_stored.pairwise.filter _
  have hgrown : (replayQuotes T.toHistoryTexts backfillDays history.grown now).Pairwise
      (fun a b => a.observedAt ≤ b.observedAt) := history.candles.pairwise.filter _
  have hduration := timedeltaHours_nonneg hhorizon.le
  unfold replayOutcomes
  dsimp only
  cases hlatest : ((replayQuotes T.toHistoryTexts backfillDays history.stored now).map
      MarketQuote.observedAt).max? with
  | none => exact List.nil_sublist _
  | some latest =>
    dsimp only
    obtain ⟨hmem, hmax⟩ := List.max?_eq_some_iff.mp hlatest
    obtain ⟨last, hlast, rfl⟩ := List.mem_map.mp hmem
    by_cases hknown : ∃ row ∈ history.stored, row.observedAt ≤ now
        ∧ onPreferred T.toHistoryTexts backfillDays history.stored now row.payload = true
    · -- both replays are over the same candles, the longer one over later ones as well
      obtain ⟨more, hquotes, hmore⟩ := replayQuotes_grown history (h hknown)
      rw [hquotes] at hgrown ⊢
      -- what the longer history adds is newer than every quote of the shorter one
      have hnewer : ∀ quote ∈ more, last.observedAt < quote.observedAt := by
        intro quote hquote
        obtain ⟨⟨row, hrow, rfl⟩, -⟩ := mem_replayQuotes.mp hlast
        rw [history.ofCandles_stored.observedAt hrow]
        exact hmore quote hquote row hrow
      obtain ⟨latest', hlatest', hlonger⟩ := exists_max?_append hlatest
        (more.map MarketQuote.observedAt)
      obtain ⟨earliest, hearliest⟩ := Option.isSome_iff_exists.mp (List.isSome_min?_of_mem hmem)
      have hearliest' : ((replayQuotes T.toHistoryTexts backfillDays history.stored now).map
          MarketQuote.observedAt ++ more.map MarketQuote.observedAt).min? = some earliest := by
        refine min?_append_of_le hearliest (fun t ht => ?_)
        obtain ⟨quote, hquote, rfl⟩ := List.mem_map.mp ht
        exact ((List.min?_eq_some_iff.mp hearliest).2 _ hmem).trans (hnewer quote hquote).le
      rw [List.map_append, hlatest']
      dsimp only
      -- the earliest quote is the same, so the evaluation times of the shorter replay come first
      unfold collectOver
      rw [List.map_append, hearliest, hearliest']
      cases strategy.requiredHistoryHours settings with
      | error raised => exact List.nil_sublist _
      | ok required =>
        obtain ⟨further, hfurther⟩ := evaluations_append (earliest + timedeltaHours required)
          (sub_le_sub_right (min_le_min_right now hlonger) (timedeltaHours strategy.horizonHours))
        dsimp only
        rw [hfurther]
        refine collect_sublist further hgrown (fun evaluation he quote hquote => ?_)
        calc evaluation
            ≤ min last.observedAt now - timedeltaHours strategy.horizonHours :=
              le_of_mem_evaluations he
          _ ≤ last.observedAt := (sub_le_self _ hduration).trans (min_le_left _ _)
          _ < quote.observedAt := hnewer quote hquote
    · -- all candles are of the future
      have hnothing : collectOver T.toHistoryTexts strategy settings totalCapitalUsd
          (replayQuotes T.toHistoryTexts backfillDays history.stored now)
          (min last.observedAt now) = [] := by
        unfold collectOver
        split
        · refine collect_of_unseen hstored (fun evaluation he quote hquote => ?_)
          have hseen : evaluation ≤ now := (le_of_mem_evaluations he).trans
            ((sub_le_self _ hduration).trans (min_le_right _ _))
          obtain ⟨⟨row, hrow, rfl⟩, hkept⟩ := mem_replayQuotes.mp hquote
          rw [history.ofCandles_stored.observedAt hrow]
          by_contra hle
          exact hknown ⟨row, hrow, (not_lt.mp hle).trans hseen, hkept⟩
        · rfl
      rw [hnothing]
      exact List.nil_sublist _

end Growth

/-! ### A strategy that looks for one candle -/

/-- A long of the asset of a candle that is due at the candle. -/
def candidateDueAt (quote : MarketQuote) : AlphaCandidate where
  candidateId := "due"
  strategyId := "seeking"
  family := "cycle"
  asset := quote.asset
  direction := .long
  venue := quote.venue
  marketKind := quote.marketKind
  symbol := quote.symbol
  observedAt := quote.observedAt - timedeltaHours 1
  horizonHours := 1
  entryReferencePrice := quote.mid
  estimatedCostReturn := 0
  expectedNetReturn := 0
  regime := .normal

/-- A strategy that finds that candidate whatever it sees, with a horizon that rounds to nothing. -/
def seeking (required : ℚ) (quote : MarketQuote) : HistoricalStrategy Unit where
  strategyId := "seeking"
  horizonHours := 1 / 10 ^ 12
  requiredHistoryHours _ := .ok required
  discover _ _ _ _ := .ok [candidateDueAt quote]

section Seeking

variable {T : HistoryTexts} {quotes : List MarketQuote} {required : ℚ} {quote : MarketQuote}
  {settings : ReplaySettings Unit} {totalCapitalUsd : ℚ}

/-- In a series in the order of time, what fails a test on the way to a candle comes first. -/
theorem exists_dropWhile_eq_cons {series : List MarketQuote}
    (h : series.Pairwise (fun a b => a.observedAt ≤ b.observedAt)) {p : MarketQuote → Bool}
    (hquote : quote ∈ series.dropWhile p) :
    ∃ head tail, series.dropWhile p = head :: tail ∧ p head = false
      ∧ head.observedAt ≤ quote.observedAt := by
  have hsorted : (series.dropWhile p).Pairwise (fun a b => a.observedAt ≤ b.observedAt) :=
    h.sublist (List.dropWhile_sublist p)
  have hhead := List.head?_dropWhile_not p series
  cases hdropped : series.dropWhile p with
  | nil =>
    rw [hdropped] at hquote
    cases hquote
  | cons head tail =>
    rw [hdropped] at hquote hsorted hhead
    refine ⟨head, tail, rfl, by simpa using hhead, ?_⟩
    rcases List.mem_cons.mp hquote with rfl | htail
    · exact le_rfl
    · exact (List.pairwise_cons.mp hsorted).1 quote htail

/-- The candidate has an exit where the candle is replayed. -/
theorem candidateOutcome?_candidateDueAt
    (h : quotes.Pairwise (fun a b => a.observedAt ≤ b.observedAt)) (hquote : quote ∈ quotes) :
    ∃ outcome, candidateOutcome? T settings (groupedSeries T quotes) (candidateDueAt quote)
      = some outcome := by
  -- the candle belongs to the series of its key, so it is found from its own time on
  have hseries : quote ∈ quotes.filter (fun other => seriesKey T other = seriesKey T quote) :=
    List.mem_filter.mpr ⟨hquote, decide_eq_true rfl⟩
  have hdropped : quote ∈ (quotes.filter (fun other =>
      seriesKey T other = seriesKey T quote)).dropWhile
        (fun other => other.observedAt < quote.observedAt) := by
    rw [← List.takeWhile_append_dropWhile (p := fun other : MarketQuote =>
      decide (other.observedAt < quote.observedAt))
      (l := quotes.filter (fun other => seriesKey T other = seriesKey T quote))] at hseries
    rcases List.mem_append.mp hseries with htaken | hdropped
    · have hbefore := List.all_eq_true.mp List.all_takeWhile _ htaken
      exact absurd (of_decide_eq_true hbefore) (lt_irrefl _)
    · exact hdropped
  -- the exit is the first candle of the series at or after that time
  obtain ⟨head, tail, hcons, -, hle⟩ := exists_dropWhile_eq_cons (h.filter _) hdropped
  have hdue : (candidateDueAt quote).observedAt
      + timedeltaHours (candidateDueAt quote).horizonHours = quote.observedAt :=
    sub_add_cancel _ _
  have hexit : exitQuote (quotes.filter (fun other => seriesKey T other = seriesKey T quote))
      quote.observedAt = some head := by
    unfold exitQuote
    rw [hcons]
    refine if_neg (not_lt.mpr ?_)
    exact (sub_nonpos.mpr hle).trans (by decide)
  -- with an exit the outcome exists, whatever it is worth
  refine ⟨⟨candidateDueAt quote, head, realizedNet settings (candidateDueAt quote) head⟩, ?_⟩
  unfold candidateOutcome?
  rw [getD_get?_groupedSeries h, hdue]
  show (exitQuote (quotes.filter (fun other => seriesKey T other = seriesKey T quote))
    quote.observedAt).map _ = _
  rw [hexit]
  rfl

/-- Where no candle of its series is replayed, the candidate has no exit. -/
theorem candidateOutcome?_eq_none
    (h : quotes.Pairwise (fun a b => a.observedAt ≤ b.observedAt))
    (hquote : ∀ other ∈ quotes, seriesKey T other ≠ seriesKey T quote) :
    candidateOutcome? T settings (groupedSeries T quotes) (candidateDueAt quote) = none := by
  have hempty : quotes.filter (fun other => seriesKey T other = seriesKey T quote) = [] := by
    refine List.filter_eq_nil_iff.mpr (fun other hother => ?_)
    simpa using hquote other hother
  unfold candidateOutcome?
  rw [getD_get?_groupedSeries h]
  show (exitQuote (quotes.filter (fun other => seriesKey T other = seriesKey T quote)) _).map _ = _
  rw [hempty]
  rfl

/-- What the strategy collects at an instant at which something is visible. -/
theorem collectAt_seeking (grouped : PointHistory) (evaluation : Instant) :
    collectAt T (seeking required quote) settings totalCapitalUsd grouped evaluation
      = .ok (if (visibleAt grouped evaluation).1.isEmpty then []
        else [candidateDueAt quote].filterMap (candidateOutcome? T settings grouped)) := by
  unfold collectAt
  obtain ⟨current, pointHistory⟩ := visibleAt grouped evaluation
  dsimp only
  split <;> rfl

/-- Without an exit it collects nothing at all. -/
theorem collect_seeking_eq_nil {grouped : PointHistory}
    (h : candidateOutcome? T settings grouped (candidateDueAt quote) = none)
    (instants : List Instant) :
    collect T (seeking required quote) settings totalCapitalUsd grouped instants = [] := by
  induction instants with
  | nil => rfl
  | cons evaluation rest ih =>
    unfold collect
    rw [collectAt_seeking, List.filterMap_cons_none h, ih]
    dsimp only
    split <;> rfl

/-- What is visible at an instant is the last candle of each series, if it is fresh. -/
theorem fst_visibleAt (grouped : PointHistory) (evaluation : Instant) :
    (visibleAt grouped evaluation).1 = grouped.items.filterMap (fun item =>
      ((item.2.takeWhile (fun quote => quote.observedAt ≤ evaluation)).getLast?).filter
        (fun latest => ! decide (12 * hour < evaluation - latest.observedAt))) := by
  -- over the series: the loop appends the fresh last candles to those it has
  have hloop : ∀ (items : List (SeriesKey × List MarketQuote))
      (point : List MarketQuote × PointHistory),
      (items.foldl (visibleStep evaluation) point).1
      = point.1 ++ items.filterMap (fun item =>
        ((item.2.takeWhile (fun quote => quote.observedAt ≤ evaluation)).getLast?).filter
          (fun latest => ! decide (12 * hour < evaluation - latest.observedAt))) := by
    intro items
    induction items with
    | nil => exact fun _ => (List.append_nil _).symm
    | cons item rest ih =>
      intro point
      rw [List.foldl_cons, ih, visibleStep]
      cases hlast : (item.2.takeWhile (fun quote => quote.observedAt ≤ evaluation)).getLast? with
      | none => rw [List.filterMap_cons_none (by rw [hlast]; rfl)]
      | some latest =>
        -- a last candle older than twelve hours is left out
        by_cases hstale : 12 * hour < evaluation - latest.observedAt
        · rw [List.filterMap_cons_none
            (by rw [hlast, Option.filter_some, decide_eq_true hstale]; rfl)]
          dsimp only
          rw [if_pos hstale]
        · rw [List.filterMap_cons_some (b := latest)
            (by rw [hlast, Option.filter_some, decide_eq_false hstale]; rfl)]
          dsimp only
          rw [if_neg hstale, List.append_assoc]
          rfl
  exact hloop grouped.items ([], Dict.empty)

/-- At the instant of a candle something is visible. -/
theorem visibleAt_observedAt
    (h : quotes.Pairwise (fun a b => a.observedAt ≤ b.observedAt)) (hquote : quote ∈ quotes) :
    (visibleAt (groupedSeries T quotes) quote.observedAt).1.isEmpty = false := by
  obtain ⟨item, hitem, hkey, hmem⟩ := Dict.exists_mem_items_group (seriesKey T) hquote
  have hsorted : item.2.Pairwise (fun a b => a.observedAt ≤ b.observedAt) := by
    have hseries := Dict.getD_get?_group (seriesKey T) quotes item.1
    rw [(Dict.mem_items_iff _).mp hitem, Option.getD_some] at hseries
    rw [hseries]
    exact h.filter _
  -- the candle itself is visible, so the last visible one is no older
  have hvisible : quote ∈ item.2.takeWhile (fun other => other.observedAt ≤ quote.observedAt) := by
    have hsplit := hmem
    rw [← List.takeWhile_append_dropWhile (p := fun other : MarketQuote =>
      decide (other.observedAt ≤ quote.observedAt)) (l := item.2)] at hsplit
    rcases List.mem_append.mp hsplit with htaken | hdropped
    · exact htaken
    · obtain ⟨head, tail, -, hfails, hle⟩ := exists_dropWhile_eq_cons hsorted hdropped
      exact absurd hle (of_decide_eq_false hfails)
  obtain ⟨latest, hlatest⟩ := Option.isSome_iff_exists.mp
    (List.getLast?_isSome.mpr (List.ne_nil_of_mem hvisible))
  have hfresh : quote.observedAt ≤ latest.observedAt := by
    obtain ⟨front, hfront⟩ := List.getLast?_eq_some_iff.mp hlatest
    have htaken := hsorted.sublist (List.takeWhile_sublist
      (fun other : MarketQuote => decide (other.observedAt ≤ quote.observedAt)))
    rw [hfront] at hvisible htaken
    rcases List.mem_append.mp hvisible with hearlier | hlast
    · exact (List.pairwise_append.mp htaken).2.2 quote hearlier latest (by simp)
    · rw [List.mem_singleton.mp hlast]
  have hcurrent : latest ∈ (visibleAt (groupedSeries T quotes) quote.observedAt).1 := by
    rw [fst_visibleAt, items_groupedSeries h]
    refine List.mem_filterMap.mpr ⟨item, hitem, ?_⟩
    have hnotStale : ¬ 12 * hour < quote.observedAt - latest.observedAt :=
      not_lt.mpr ((sub_nonpos.mpr hfresh).trans (by decide))
    rw [hlatest, Option.filter_some, decide_eq_false hnotStale]
    rfl
  rw [List.isEmpty_eq_false_iff]
  exact List.ne_nil_of_mem hcurrent

/-- A replay with time for one instant starts there. -/
theorem evaluations_eq_cons {start stop : Instant} (h : start ≤ stop) :
    ∃ rest, evaluations start stop = start :: rest := by
  have hdiv : 0 ≤ (stop - start) / historicalReplayStep :=
    Int.ediv_nonneg (sub_nonneg.mpr h) (by decide)
  obtain ⟨n, hn⟩ := Int.eq_ofNat_of_zero_le hdiv
  rw [evaluations_eq, hn, show ((n : ℤ) + 1).toNat = n + 1 from rfl, List.range_succ_eq_map,
    List.map_cons]
  refine ⟨_, congrArg (· :: _) ?_⟩
  show start + 0 * historicalReplayStep = start
  rw [zero_mul, add_zero]

/-- `timedelta` of a whole number of microseconds. -/
theorem timedeltaHours_div (n : ℤ) : timedeltaHours ((n : ℚ) / 3600000000) = n := by
  unfold timedeltaHours roundHalfEven
  rw [div_mul_cancel₀ _ (by norm_num), Int.floor_intCast, sub_self, if_pos (by norm_num)]

/-- The candidate of a replayed candle is collected, if the replay starts at a replayed candle. -/
theorem exists_mem_collectOver {known : MarketQuote} {lastKnown earliest : Instant}
    (h : quotes.Pairwise (fun a b => a.observedAt ≤ b.observedAt)) (hquote : quote ∈ quotes)
    (hearliest : (quotes.map MarketQuote.observedAt).min? = some earliest)
    (hknown : known ∈ quotes) (hle : known.observedAt ≤ lastKnown) :
    ∃ outcome, outcome ∈ collectOver T
      (seeking ((known.observedAt - earliest : ℤ) / 3600000000) quote) settings totalCapitalUsd
      quotes lastKnown := by
  obtain ⟨outcome, houtcome⟩ :=
    @candidateOutcome?_candidateDueAt T quotes quote settings h hquote
  have hhorizon : timedeltaHours (1 / 10 ^ 12) = 0 := by decide +kernel
  obtain ⟨rest, hrest⟩ := evaluations_eq_cons (le_of_le_of_eq hle (sub_zero lastKnown).symm)
  refine ⟨outcome, ?_⟩
  unfold collectOver
  rw [hearliest]
  show outcome ∈ collect T _ settings totalCapitalUsd (groupedSeries T quotes)
    (evaluations (earliest + timedeltaHours ((known.observedAt - earliest : ℤ) / 3600000000))
      (lastKnown - timedeltaHours (1 / 10 ^ 12)))
  rw [timedeltaHours_div, hhorizon, add_sub_cancel, hrest]
  unfold collect
  rw [collectAt_seeking, visibleAt_observedAt h hknown, List.filterMap_cons_some houtcome]
  exact List.mem_append_left _ (List.mem_cons_self ..)

end Seeking

section Exact

variable {T : ReplayTexts} {backfillDays : ℕ} {now : Instant}
  (history : ExtendedHistory T.toHistoryTexts)

/-- A replay that has lost the provider of a candle collects nothing from it. -/
theorem replayOutcomes_eq_nil {required : ℚ} {quote : MarketQuote} (settings : ReplaySettings Unit)
    (totalCapitalUsd : ℚ)
    (h : onPreferred T.toHistoryTexts backfillDays history.grown now quote = false) :
    replayOutcomes T.toHistoryTexts (seeking required quote) settings totalCapitalUsd backfillDays
      history.grown now = [] := by
  obtain ⟨row, -, -, -, hasset, honly⟩ := exists_of_not_onPreferred history.ofCandles_grown h
  have hnone : candidateOutcome? T.toHistoryTexts settings (groupedSeries T.toHistoryTexts
      (replayQuotes T.toHistoryTexts backfillDays history.grown now)) (candidateDueAt quote)
      = none := by
    refine candidateOutcome?_eq_none (history.ofCandles_grown.pairwise.filter _)
      (fun other hother hkey => ?_)
    obtain ⟨hvenue, hsame⟩ :
        other.venue = quote.venue ∧ T.upper other.asset = T.upper quote.asset :=
      ⟨congrArg Prod.fst hkey, congrArg (fun key => key.2.1) hkey⟩
    have hpreferred := (honly other hsame).mp (mem_replayQuotes.mp hother).2
    rw [(honly quote rfl).mpr (hvenue.symm.trans hpreferred)] at h
    cases h
  unfold replayOutcomes
  dsimp only
  split
  · rfl
  · unfold collectOver
    split
    · exact collect_seeking_eq_nil hnone _
    · rfl

/-- **Needed.** A replay that does not look ahead keeps the preferred providers. -/
theorem keepsProviders_of_noLookAhead
    (h : NoLookAhead T.toHistoryTexts backfillDays history now) :
    KeepsProviders T.toHistoryTexts backfillDays history now := by
  rintro ⟨known, hknown, hnow, hknownKept⟩ row hrow hkept
  by_contra hlost
  rw [Bool.not_eq_true] at hlost
  -- both rows are replayed, and the one lost is later than what is known
  have hsorted : (replayQuotes T.toHistoryTexts backfillDays history.stored now).Pairwise
      (fun a b => a.observedAt ≤ b.observedAt) := history.ofCandles_stored.pairwise.filter _
  have hquote : row.payload ∈ replayQuotes T.toHistoryTexts backfillDays history.stored now :=
    mem_replayQuotes.mpr ⟨⟨row, hrow, rfl⟩, hkept⟩
  have hseen : known.payload ∈ replayQuotes T.toHistoryTexts backfillDays history.stored now :=
    mem_replayQuotes.mpr ⟨⟨known, hknown, rfl⟩, hknownKept⟩
  have htime := List.mem_map_of_mem (f := MarketQuote.observedAt) hseen
  obtain ⟨earliest, hearliest⟩ := Option.isSome_iff_exists.mp (List.isSome_min?_of_mem htime)
  obtain ⟨latest, hlatest⟩ := Option.isSome_iff_exists.mp (List.isSome_max?_of_mem htime)
  -- so the evaluation at the known candle is one of those the replay visits
  have hle : known.payload.observedAt ≤ min latest now := by
    refine le_min ((List.max?_eq_some_iff.mp hlatest).2 _ htime) ?_
    rw [history.ofCandles_stored.observedAt hknown]
    exact hnow
  -- a strategy that looks for the lost row has an outcome there
  obtain ⟨outcome, houtcome⟩ := @exists_mem_collectOver T.toHistoryTexts _ row.payload
    ReplayCache.settings 0 known.payload (min latest now) earliest hsorted hquote hearliest hseen
    hle
  have hcollected : outcome ∈ replayOutcomes T.toHistoryTexts
      (seeking ((known.payload.observedAt - earliest : ℤ) / 3600000000) row.payload)
      ReplayCache.settings 0 backfillDays history.stored now := by
    unfold replayOutcomes
    dsimp only
    rw [hlatest]
    exact houtcome
  -- without look-ahead the longer history would have it too, where it cannot
  have hgrown := (h Unit (seeking ((known.payload.observedAt - earliest : ℤ) / 3600000000)
    row.payload) ReplayCache.settings 0 (by norm_num [seeking])).subset hcollected
  rw [replayOutcomes_eq_nil history ReplayCache.settings 0 hlost] at hgrown
  cases hgrown

end Exact

/-- **Replay and the preferred providers.** A replay over stored candles does not look ahead into
    candles observed later exactly if, once a candle of a preferred provider is known, all of them
    stay on their preferred providers. -/
theorem noLookAhead_iff (T : ReplayTexts) (backfillDays : ℕ)
    (history : ExtendedHistory T.toHistoryTexts) (now : Instant) :
    NoLookAhead T.toHistoryTexts backfillDays history now
      ↔ KeepsProviders T.toHistoryTexts backfillDays history now :=
  ⟨keepsProviders_of_noLookAhead history, noLookAhead_of_keepsProviders history⟩

/-! ### A provider that covers more later -/

namespace LookAhead

open ReplayCache

/-- The texts of the cache's candles. -/
def texts : ReplayTexts := ⟨ReplayCache.texts, fun _ => rfl⟩

/-- A candle of bitcoin on OKX. -/
def okxCandle (mid : Positive) (observedAt : Instant) : MarketQuote :=
  { candle mid observedAt with venue := "OKX" }

/-- Two candles on OKX, and then two on Coinbase that are further apart. -/
def history : ExtendedHistory texts.toHistoryTexts where
  stored := [okxCandle 100 0, okxCandle 110 (6 * hour)].map
    texts.row
  later := [candle 120 (12 * hour), candle 120 (24 * hour)].map
    texts.row
  candles := by
    intro row hrow
    rw [← List.map_append] at hrow
    obtain ⟨quote, hquote, rfl⟩ := List.mem_map.mp hrow
    refine ⟨rfl, ?_⟩
    clear hrow
    revert quote
    decide +kernel
  newer := by decide +kernel

/-- A strategy that always buys bitcoin on OKX for six hours. -/
def okxBuyer : HistoricalStrategy Unit :=
  { finding "okx" (fun observedAt =>
      [{ buy observedAt with venue := "OKX", horizonHours := 6 }]) with
    horizonHours := 6 }

end LookAhead

/-- **Counterexample.** The replay of the candles on OKX has an outcome.  When Coinbase has covered
    more of the window, it has none. -/
theorem not_noLookAhead_laterProvider :
    ¬NoLookAhead LookAhead.texts.toHistoryTexts 260 LookAhead.history (72 * hour) := by
  intro h
  have hlength := (h Unit LookAhead.okxBuyer ReplayCache.settings 100000
    (by norm_num [LookAhead.okxBuyer])).length_le
  revert hlength
  decide +kernel

end InefficiencyEngine.Research
