import InefficiencyEngine.Lib.Accumulate
import InefficiencyEngine.Research.ReplayCache
import Mathlib.Data.List.TakeWhile

namespace InefficiencyEngine.Research

open Portfolio

/-!
# Walk-forward replay

`replay_summaries` replays the stored history at instants of the past.  At each of them the strategy
sees the candles up to then only (`visibleAt_append`), and a candidate closes at the first candle
after its horizon, which candles observed later do not change (`candidateOutcome?_append`).  So what
is collected from a history is collected from every longer one (`collect_sublist`), as long as both
are replayed on the same candles.
-/

/-! ### What a replay collects -/

/-- An outcome of a replay: the candidate with its entry, direction, cost and regime, the candle
    that closes it, and what it realized. -/
structure ReplayOutcome where
  candidate : AlphaCandidate
  exit : MarketQuote
  net : ℚ

section Collect

variable {σ : Type} (T : HistoryTexts) (strategy : HistoricalStrategy σ)
  (settings : ReplaySettings σ) (totalCapitalUsd : ℚ)

/-- The outcome of a candidate, if its series has an exit for it. -/
def candidateOutcome? (grouped : PointHistory) (candidate : AlphaCandidate) :
    Option ReplayOutcome :=
  (exitQuote ((grouped.get?
      (candidate.venue, T.upper candidate.asset, candidate.marketKind)).getD [])
    (candidate.observedAt + timedeltaHours candidate.horizonHours)).map
      (fun exit => ⟨candidate, exit, realizedNet settings candidate exit⟩)

/-- What is collected at one instant. -/
def collectAt (grouped : PointHistory) (evaluation : Instant) :
    Except Raised (List ReplayOutcome) :=
  let (current, pointHistory) := visibleAt grouped evaluation
  if current.isEmpty then .ok []
  else do
    let candidates ← strategy.discover (replaySnapshot evaluation current) pointHistory settings
      totalCapitalUsd
    return candidates.filterMap (candidateOutcome? T settings grouped)

/-- What is collected at some instants, up to one at which the strategy raises. -/
def collect (grouped : PointHistory) : List Instant → List ReplayOutcome
  | [] => []
  | evaluation :: rest =>
    match collectAt T strategy settings totalCapitalUsd grouped evaluation with
    | .error _ => []
    | .ok outcomes => outcomes ++ collect grouped rest

/-- What a replay over candles collects, up to an instant. -/
def collectOver (quotes : List MarketQuote) (lastKnown : Instant) : List ReplayOutcome :=
  match (quotes.map MarketQuote.observedAt).min?, strategy.requiredHistoryHours settings with
  | some earliest, .ok required =>
    collect T strategy settings totalCapitalUsd (groupedSeries T quotes)
      (evaluations (earliest + timedeltaHours required)
        (lastKnown - timedeltaHours strategy.horizonHours))
  | _, _ => []

/-- What `replay_summaries` collects from stored rows. -/
def replayOutcomes (backfillDays : ℕ) (rows : List HistoricalQuoteRow) (now : Instant) :
    List ReplayOutcome :=
  let quotes := replayQuotes T backfillDays rows now
  match (quotes.map MarketQuote.observedAt).max? with
  | none => []
  | some latest => collectOver T strategy settings totalCapitalUsd quotes (min latest now)

/-! ### The summaries are those of the outcomes -/

/-- `outcomes.setdefault(key, []).append(...)`. -/
def addOutcome (outcomes : ReplayOutcomes) (outcome : ReplayOutcome) : ReplayOutcomes :=
  let key := (T.upper outcome.candidate.asset, outcome.candidate.direction)
  outcomes.set key ((outcomes.get? key).getD [] ++ [(outcome.net, outcome.candidate.regime)])

/-- The summaries of what was collected. -/
def summariesOf (collected : List ReplayOutcome) : ReplaySummaries :=
  (collected.foldl (addOutcome T) Dict.empty).items.foldl
    (fun d item => d.set item.1 (summarize strategy settings item.1 item.2)) Dict.empty

/-- A point of the replay records the outcomes of its candidates. -/
theorem foldl_recordOutcome (grouped : PointHistory) (outcomes : ReplayOutcomes)
    (candidates : List AlphaCandidate) :
    candidates.foldl (recordOutcome T settings grouped) outcomes
      = (candidates.filterMap (candidateOutcome? T settings grouped)).foldl (addOutcome T)
        outcomes := by
  induction candidates generalizing outcomes with
  | nil => rfl
  | cons candidate rest ih =>
    rw [List.foldl_cons, ih]
    unfold recordOutcome
    dsimp only
    cases hexit : exitQuote ((grouped.get?
        (candidate.venue, T.upper candidate.asset, candidate.marketKind)).getD [])
        (candidate.observedAt + timedeltaHours candidate.horizonHours) with
    | none =>
      have hnone : candidateOutcome? T settings grouped candidate = none := by
        rw [candidateOutcome?, hexit, Option.map_none]
      rw [List.filterMap_cons_none hnone]
    | some exit =>
      have hsome : candidateOutcome? T settings grouped candidate
          = some ⟨candidate, exit, realizedNet settings candidate exit⟩ := by
        rw [candidateOutcome?, hexit, Option.map_some]
      rw [List.filterMap_cons_some hsome, List.foldl_cons]
      rfl

/-- **Step.** A point of the replay that does not raise adds what is collected at it. -/
theorem replayPoint_eq (grouped : PointHistory) (outcomes : ReplayOutcomes)
    (evaluation : Instant) :
    replayPoint T strategy settings totalCapitalUsd grouped outcomes evaluation
      = (collectAt T strategy settings totalCapitalUsd grouped evaluation).map
        (fun collected => collected.foldl (addOutcome T) outcomes) := by
  unfold replayPoint collectAt
  obtain ⟨current, pointHistory⟩ := visibleAt grouped evaluation
  dsimp only
  split
  · rfl
  · cases strategy.discover (replaySnapshot evaluation current) pointHistory settings
        totalCapitalUsd with
    | error raised => rfl
    | ok candidates => exact congrArg Except.ok (foldl_recordOutcome T settings grouped outcomes _)

/-- **Run.** A replay loop that does not raise adds what is collected at its instants. -/
theorem foldlM_replayPoint {grouped : PointHistory} {instants : List Instant}
    {outcomes final : ReplayOutcomes}
    (h : instants.foldlM (replayPoint T strategy settings totalCapitalUsd grouped) outcomes
      = .ok final) :
    final = (collect T strategy settings totalCapitalUsd grouped instants).foldl (addOutcome T)
      outcomes := by
  induction instants generalizing outcomes with
  | nil => exact (Except.ok.inj h).symm
  | cons evaluation rest ih =>
    rw [List.foldlM_cons] at h
    obtain ⟨next, hpoint, hrest⟩ := bind_eq_ok h
    rw [replayPoint_eq] at hpoint
    unfold collect
    cases hcollected : collectAt T strategy settings totalCapitalUsd grouped evaluation with
    | error raised =>
      rw [hcollected] at hpoint
      cases hpoint
    | ok collected =>
      rw [hcollected] at hpoint
      obtain rfl := Except.ok.inj hpoint
      rw [ih hrest, List.foldl_append]

/-- **The summaries** that a replay returns are those of what it collects. -/
theorem replayOver_eq_ok {quotes : List MarketQuote} {lastKnown : Instant}
    {summaries : ReplaySummaries}
    (h : replayOver T strategy settings totalCapitalUsd quotes lastKnown = .ok summaries) :
    summaries = summariesOf T strategy settings
      (collectOver T strategy settings totalCapitalUsd quotes lastKnown) := by
  unfold replayOver at h
  unfold collectOver
  cases hearliest : (quotes.map MarketQuote.observedAt).min? with
  | none =>
    rw [hearliest] at h
    exact (Except.ok.inj h).symm
  | some earliest =>
    rw [hearliest] at h
    obtain ⟨required, hrequired, h⟩ := bind_eq_ok h
    obtain ⟨outcomes, houtcomes, h⟩ := bind_eq_ok h
    rw [hrequired]
    obtain rfl := foldlM_replayPoint T strategy settings totalCapitalUsd houtcomes
    exact (Except.ok.inj h).symm

/-- A new instance returns the summaries of what is collected from its rows. -/
theorem replaySummaries_eq_ok {backfillDays : ℕ} {rows : List HistoricalQuoteRow} {now : Instant}
    {summaries : ReplaySummaries}
    (h : (replaySummaries T backfillDays (.init rows) ⟨strategy, settings, totalCapitalUsd, now⟩).1
      = .ok summaries) :
    summaries = summariesOf T strategy settings
      (replayOutcomes T strategy settings totalCapitalUsd backfillDays rows now) := by
  rw [replaySummaries_init] at h
  unfold ReplayRequest.question? at h
  unfold replayOutcomes
  dsimp only at h ⊢
  cases hlatest : ((replayQuotes T backfillDays rows now).map MarketQuote.observedAt).max? with
  | none =>
    rw [hlatest] at h
    exact (Except.ok.inj h).symm
  | some latest =>
    rw [hlatest] at h
    exact replayOver_eq_ok T strategy settings totalCapitalUsd h

end Collect

/-! ### Candles observed later -/

section Later

variable {T : HistoryTexts} {quotes more : List MarketQuote}

/-- The key of a candle's series. -/
def seriesKey (T : HistoryTexts) (quote : MarketQuote) : SeriesKey :=
  (quote.venue, T.upper quote.asset, quote.marketKind)

/-- Candles in the order of time are grouped in that order. -/
theorem items_groupedSeries (h : quotes.Pairwise (fun a b => a.observedAt ≤ b.observedAt)) :
    (groupedSeries T quotes).items = (Dict.group (seriesKey T) quotes).items := by
  refine (Dict.items_foldl_set byObservedAt (Dict.group (seriesKey T) quotes)).trans ?_
  refine (List.map_congr_left (fun item hitem => ?_)).trans (List.map_id _)
  have hseries := Dict.getD_get?_group (seriesKey T) quotes item.1
  rw [(Dict.mem_items_iff _).mp hitem, Option.getD_some] at hseries
  have hsorted : byObservedAt item.2 = item.2 := by
    rw [hseries]
    exact (h.filter _).insertionSort_eq
  rw [hsorted]
  rfl

/-- The series of a candidate is that of its key. -/
theorem getD_get?_groupedSeries (h : quotes.Pairwise (fun a b => a.observedAt ≤ b.observedAt))
    (key : SeriesKey) :
    ((groupedSeries T quotes).get? key).getD []
      = quotes.filter (fun quote => seriesKey T quote = key) := by
  rw [← Dict.getD_get?_group, Dict.get?, Dict.get?, items_groupedSeries h]

/-- What one more series shows. -/
def visibleStep (evaluation : Instant) (point : List MarketQuote × PointHistory)
    (item : SeriesKey × List MarketQuote) : List MarketQuote × PointHistory :=
  let visible := item.2.takeWhile (fun quote => quote.observedAt ≤ evaluation)
  match visible.getLast? with
  | none => point
  | some latest =>
    if 12 * hour < evaluation - latest.observedAt then point
    else (point.1 ++ [latest], point.2.set item.1 visible)

/-- A series shows what the part of it up to the instant shows. -/
theorem visibleStep_takeWhile (evaluation : Instant) (point : List MarketQuote × PointHistory)
    (item : SeriesKey × List MarketQuote) :
    visibleStep evaluation point
        (item.1, item.2.takeWhile (fun quote => quote.observedAt ≤ evaluation))
      = visibleStep evaluation point item := by
  unfold visibleStep
  dsimp only
  rw [List.takeWhile_idem]

/-- What is visible is made of what each series shows. -/
theorem visibleAt_congr {grouped grouped' : PointHistory} {evaluation : Instant}
    (h : Dict.shown (fun quote => quote.observedAt ≤ evaluation) grouped'.items
      = Dict.shown (fun quote => quote.observedAt ≤ evaluation) grouped.items) :
    visibleAt grouped' evaluation = visibleAt grouped evaluation := by
  have hshown : ∀ (items : List (SeriesKey × List MarketQuote))
      (point : List MarketQuote × PointHistory),
      items.foldl (visibleStep evaluation) point
      = (Dict.shown (fun quote => quote.observedAt ≤ evaluation) items).foldl
        (visibleStep evaluation) point := by
    intro items
    induction items with
    | nil => exact fun _ => rfl
    | cons item rest ih =>
      intro point
      rw [List.foldl_cons, ih, Dict.shown_cons]
      cases hvisible : item.2.takeWhile (fun quote => quote.observedAt ≤ evaluation) with
      | nil =>
        rw [← visibleStep_takeWhile, hvisible]
        rfl
      | cons quote visible =>
        show _ = List.foldl _ (visibleStep evaluation point (item.1, quote :: visible)) _
        rw [← visibleStep_takeWhile, hvisible]
  exact (hshown grouped'.items _).trans ((congrArg (fun items => List.foldl _ _ items) h).trans
    (hshown grouped.items _).symm)

/-- **No look-ahead, visibility.** Candles observed after an instant are not visible at it. -/
theorem visibleAt_append {evaluation : Instant}
    (h : (quotes ++ more).Pairwise (fun a b => a.observedAt ≤ b.observedAt))
    (hmore : ∀ quote ∈ more, evaluation < quote.observedAt) :
    visibleAt (groupedSeries T (quotes ++ more)) evaluation
      = visibleAt (groupedSeries T quotes) evaluation := by
  refine visibleAt_congr ?_
  rw [items_groupedSeries h, items_groupedSeries (List.pairwise_append.mp h).1]
  refine Dict.shown_group_append (fun quote hquote => ?_) _ _
  rw [decide_eq_true_eq]
  exact not_le.mpr (hmore quote hquote)

/-- An exit stays where it is when candles are added behind. -/
theorem exitQuote_append {series : List MarketQuote} {dueAt : Instant} {exit : MarketQuote}
    (h : exitQuote series dueAt = some exit) (added : List MarketQuote) :
    exitQuote (series ++ added) dueAt = some exit := by
  unfold exitQuote at h ⊢
  rw [List.dropWhile_append]
  cases hdropped : series.dropWhile (fun quote => quote.observedAt < dueAt) with
  | nil =>
    rw [hdropped] at h
    cases h
  | cons quote rest =>
    rw [hdropped] at h
    exact h

/-- **No look-ahead, exits.** An outcome is the same when candles are added behind. -/
theorem candidateOutcome?_append {σ : Type} {settings : ReplaySettings σ}
    {candidate : AlphaCandidate} {outcome : ReplayOutcome}
    (h : (quotes ++ more).Pairwise (fun a b => a.observedAt ≤ b.observedAt))
    (houtcome : candidateOutcome? T settings (groupedSeries T quotes) candidate = some outcome) :
    candidateOutcome? T settings (groupedSeries T (quotes ++ more)) candidate = some outcome := by
  unfold candidateOutcome? at houtcome ⊢
  rw [getD_get?_groupedSeries (List.pairwise_append.mp h).1] at houtcome
  rw [getD_get?_groupedSeries h, List.filter_append]
  obtain ⟨exit, hexit, rfl⟩ := Option.map_eq_some_iff.mp houtcome
  rw [exitQuote_append hexit]
  rfl

/-- Where more elements have a value, at least the values there were are listed. -/
theorem filterMap_sublist_filterMap {α β : Type} {f g : α → Option β} (xs : List α)
    (h : ∀ x y, f x = some y → g x = some y) : (xs.filterMap f).Sublist (xs.filterMap g) := by
  induction xs with
  | nil => exact List.Sublist.refl _
  | cons x rest ih =>
    cases hf : f x with
    | none =>
      rw [List.filterMap_cons_none hf]
      cases hg : g x with
      | none => rwa [List.filterMap_cons_none hg]
      | some y =>
        rw [List.filterMap_cons_some hg]
        exact ih.cons y
    | some y =>
      rw [List.filterMap_cons_some hf, List.filterMap_cons_some (h x y hf)]
      exact ih.cons_cons y

variable {σ : Type} {strategy : HistoricalStrategy σ} {settings : ReplaySettings σ}
  {totalCapitalUsd : ℚ}

/-- **Step.** What is collected at an instant is also collected when candles observed later are
    added. -/
theorem collectAt_append {evaluation : Instant}
    (h : (quotes ++ more).Pairwise (fun a b => a.observedAt ≤ b.observedAt))
    (hmore : ∀ quote ∈ more, evaluation < quote.observedAt) :
    (∃ raised, collectAt T strategy settings totalCapitalUsd (groupedSeries T quotes) evaluation
        = .error raised)
      ∨ ∃ collected collected',
        collectAt T strategy settings totalCapitalUsd (groupedSeries T quotes) evaluation
          = .ok collected
        ∧ collectAt T strategy settings totalCapitalUsd (groupedSeries T (quotes ++ more))
          evaluation = .ok collected'
        ∧ collected.Sublist collected' := by
  unfold collectAt
  rw [visibleAt_append h hmore]
  obtain ⟨current, pointHistory⟩ := visibleAt (groupedSeries T quotes) evaluation
  dsimp only
  split
  · exact Or.inr ⟨[], [], rfl, rfl, List.Sublist.refl _⟩
  · cases strategy.discover (replaySnapshot evaluation current) pointHistory settings
        totalCapitalUsd with
    | error raised => exact Or.inl ⟨raised, rfl⟩
    | ok candidates =>
      refine Or.inr ⟨_, _, rfl, rfl, filterMap_sublist_filterMap candidates ?_⟩
      exact fun _ _ => candidateOutcome?_append h

/-- **Run.** What is collected at some instants is also collected when candles observed later are
    added, and further instants. -/
theorem collect_sublist {instants : List Instant} (further : List Instant)
    (h : (quotes ++ more).Pairwise (fun a b => a.observedAt ≤ b.observedAt))
    (hmore : ∀ evaluation ∈ instants, ∀ quote ∈ more, evaluation < quote.observedAt) :
    (collect T strategy settings totalCapitalUsd (groupedSeries T quotes) instants).Sublist
      (collect T strategy settings totalCapitalUsd (groupedSeries T (quotes ++ more))
        (instants ++ further)) := by
  induction instants with
  | nil => exact List.nil_sublist _
  | cons evaluation rest ih =>
    rw [List.cons_append]
    unfold collect
    rcases @collectAt_append T quotes more σ strategy settings totalCapitalUsd evaluation h
      (hmore evaluation (List.mem_cons_self ..)) with
      ⟨raised, herror⟩ | ⟨collected, collected', hcollected, hcollected', hsublist⟩
    · rw [herror]
      exact List.nil_sublist _
    · rw [hcollected, hcollected']
      exact hsublist.append (ih (fun e he => hmore e (List.mem_cons_of_mem _ he)))

/-- The instants of a replay, by their number. -/
theorem evaluations_eq (start stop : Instant) :
    evaluations start stop = (List.range ((stop - start) / historicalReplayStep + 1).toNat).map
      (fun (k : ℕ) => start + (k : ℤ) * historicalReplayStep) := by
  show List.map (fun k => start + k * historicalReplayStep)
    ((List.range ((stop - start) / historicalReplayStep + 1).toNat).flatMap
      (fun (k : ℕ) => [(k : ℤ)])) = _
  rw [List.map_flatMap]
  exact List.flatMap_pure_eq_map _ _

/-- The instants of a longer replay start with those of a shorter one. -/
theorem evaluations_append (start : Instant) {stop stop' : Instant} (h : stop ≤ stop') :
    ∃ further, evaluations start stop' = evaluations start stop ++ further := by
  have hdiv : (stop - start) / historicalReplayStep ≤ (stop' - start) / historicalReplayStep :=
    Int.ediv_le_ediv (by decide) (sub_le_sub_right h start)
  obtain ⟨k, hk⟩ := Nat.exists_eq_add_of_le (Int.toNat_le_toNat (add_le_add_left hdiv 1))
  rw [evaluations_eq, evaluations_eq, hk, List.range_add, List.map_append]
  exact ⟨_, rfl⟩

/-- An instant of the replay is within its bounds. -/
theorem le_of_mem_evaluations {start stop evaluation : Instant}
    (h : evaluation ∈ evaluations start stop) : evaluation ≤ stop := by
  rw [evaluations_eq] at h
  obtain ⟨k, hk, rfl⟩ := List.mem_map.mp h
  rw [List.mem_range] at hk
  have hstep : (0 : ℤ) < historicalReplayStep := by decide
  have hle : (k : ℤ) ≤ (stop - start) / historicalReplayStep := by omega
  exact le_sub_iff_add_le'.mp ((Int.le_ediv_iff_mul_le hstep).mp hle)

end Later

end InefficiencyEngine.Research
