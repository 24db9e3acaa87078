import InefficiencyEngine.Portfolio.Sample

namespace InefficiencyEngine.Portfolio

/-!
# Which funding events a settlement sums

`_funding_for_leg` sums one payment for each event time that a retained observation
announced as its `next_funding_time` (`mem_summedEvents_iff`).  The interval of an
observation is never read, so an event of the schedule that no observation announced is
left out of the sum as if it had paid nothing.

`neverOmits_iff` says on which stored observations the sum is complete all the same.
-/

section Schedule

variable (upper : String → String) (evidence : Evidence) (leg : PaperSettlementLeg)
  (sourceAt dueAt : Instant)

/-! ### The events of a sum -/

/-- The event times `_funding_for_leg` goes through. -/
def summedEvents : List Instant :=
  (fundingEvents (fundingQuotesForLeg upper evidence leg sourceAt dueAt) sourceAt dueAt).items.map
    Prod.fst

/-- An observation announces an event of the window in time. -/
def Announces (row : FundingQuote) (eventAt : Instant) : Prop :=
  row.nextFundingTime = some eventAt ∧ sourceAt < eventAt ∧ eventAt ≤ dueAt
    ∧ row.observedAt ≤ eventAt

/-- The payment of an event on the leg at a price. -/
def eventPayment (leg : PaperSettlementLeg) (mid : Positive) (quote : FundingQuote) : ℚ :=
  -(if leg.side = .long then 1 else -1) * (leg.baseQuantity * mid) * quote.rate

variable {sourceAt dueAt}

/-- The events of a list of rows are those that one of the rows announces in time. -/
theorem exists_get?_fundingEvents_iff {rows : List FundingQuote} {eventAt : Instant} :
    (∃ quote, (fundingEvents rows sourceAt dueAt).get? eventAt = some quote)
      ↔ ∃ row ∈ rows, Announces sourceAt dueAt row eventAt := by
  unfold fundingEvents
  generalize hstart : (Dict.empty : Dict Instant FundingQuote) = byEvent
  have hempty : ¬ ∃ quote, byEvent.get? eventAt = some quote := by
    rintro ⟨quote, hquote⟩
    rw [← hstart] at hquote
    cases hquote
  rw [← or_iff_right (b := ∃ row ∈ rows, Announces sourceAt dueAt row eventAt) hempty]
  clear hstart hempty
  -- Every row adds at most the event it announces.
  induction rows generalizing byEvent with
  | nil => simp
  | cons row rest ih =>
    rw [List.foldl_cons]
    refine (ih _).trans ?_
    rw [List.exists_mem_cons_iff, ← or_assoc]
    refine or_congr_left ?_
    unfold Announces
    cases hnext : row.nextFundingTime with
    | none => simp
    | some announced =>
      by_cases hwindow : sourceAt < announced ∧ announced ≤ dueAt ∧ row.observedAt ≤ announced
      · simp only [if_pos hwindow]
        rw [Dict.exists_get?_keepNewest_iff]
        refine or_congr_right ⟨?_, fun h => Option.some_inj.mp h.1⟩
        rintro rfl
        exact ⟨rfl, hwindow⟩
      · simp only [if_neg hwindow]
        refine (or_iff_left ?_).symm
        rintro ⟨hsame, hrest⟩
        obtain rfl := Option.some_inj.mp hsame
        exact hwindow hrest

variable {upper evidence leg}

/-- **Summed events.** An event is summed exactly when a retained observation made no later
    than the event names it as the next one. -/
theorem mem_summedEvents_iff {eventAt : Instant} :
    eventAt ∈ summedEvents upper evidence leg sourceAt dueAt
      ↔ ∃ row ∈ fundingQuotesForLeg upper evidence leg sourceAt dueAt,
          Announces sourceAt dueAt row eventAt := by
  rw [← exists_get?_fundingEvents_iff, summedEvents, List.mem_map]
  constructor
  · rintro ⟨⟨_, quote⟩, hmem, rfl⟩
    exact ⟨quote, (Dict.mem_items_iff _).mp hmem⟩
  · rintro ⟨quote, hget⟩
    exact ⟨(eventAt, quote), (Dict.mem_items_iff _).mpr hget, rfl⟩

/-! ### When a sum is returned -/

/-- The payments of a list of events add up when the price at each of them is known. -/
theorem accruedFunding_eq_some_iff {events : List (Instant × FundingQuote)} {start total : ℚ} :
    accruedFunding upper evidence leg events start = some total
      ↔ (∀ event ∈ events, ∃ mid, historicalMid upper evidence leg event.1 = some mid)
        ∧ total = start + (events.map (fun event =>
            (historicalMid upper evidence leg event.1).elim 0
              (fun mid => eventPayment leg mid event.2))).sum := by
  induction events generalizing start with
  | nil =>
    simp only [accruedFunding, Option.some.injEq, List.not_mem_nil, false_imp_iff, implies_true,
      true_and, List.map_nil, List.sum_nil, add_zero]
    exact eq_comm
  | cons event rest ih =>
    obtain ⟨eventAt, quote⟩ := event
    rw [accruedFunding, List.forall_mem_cons, List.map_cons, List.sum_cons]
    cases hmid : historicalMid upper evidence leg eventAt with
    | none => simp
    | some mid =>
      simp only [Option.some.injEq, exists_eq', true_and]
      rw [ih]
      have hpayment : start + -(if leg.side = .long then 1 else -1) * (leg.baseQuantity * mid)
          * quote.rate = start + eventPayment leg mid quote := rfl
      rw [hpayment, Option.elim_some, add_assoc]

/-- **Returned sum.** A perpetual leg has a total when some retained observation names a next
    event and the price at every summed event is known; it is the sum of the payments. The
    source returns nothing for a leg without quotes, without a scheduled event or with an event
    whose price is unknown, and otherwise folds the payments over the events in order of time.
    -/
theorem fundingForLeg_eq_some_iff (hperpetual : leg.marketKind = MarketKind.perpetual.value)
    {total : ℚ} {count : ℕ} :
    fundingForLeg upper evidence leg sourceAt dueAt = some (total, count)
      ↔ (∃ row ∈ fundingQuotesForLeg upper evidence leg sourceAt dueAt,
            row.nextFundingTime.isSome)
        ∧ (∀ eventAt ∈ summedEvents upper evidence leg sourceAt dueAt,
            ∃ mid, historicalMid upper evidence leg eventAt = some mid)
        ∧ count = (summedEvents upper evidence leg sourceAt dueAt).length
        ∧ total = (((fundingEvents (fundingQuotesForLeg upper evidence leg sourceAt dueAt)
            sourceAt dueAt).items.insertionSort (fun p q => p.1 ≤ q.1)).map (fun event =>
              (historicalMid upper evidence leg event.1).elim 0
                (fun mid => eventPayment leg mid event.2))).sum := by
  have hscheduled : (∃ row ∈ fundingQuotesForLeg upper evidence leg sourceAt dueAt,
      row.nextFundingTime.isSome) ↔ ¬ (fundingQuotesForLeg upper evidence leg sourceAt dueAt).all
        (fun quote => quote.nextFundingTime.isNone) = true := by
    rw [List.all_eq_true]
    push Not
    simp [← Option.ne_none_iff_isSome]
  -- no quote at all is a special case of no scheduled event
  have hempty : (fundingQuotesForLeg upper evidence leg sourceAt dueAt).isEmpty = true →
      (fundingQuotesForLeg upper evidence leg sourceAt dueAt).all
        (fun quote => quote.nextFundingTime.isNone) = true := by
    intro h
    rw [List.isEmpty_iff.mp h]
    rfl
  -- the summed events are the sorted ones, so a price is known at all of them
  have hmarked : ∀ P : Instant → Prop,
      (∀ eventAt ∈ summedEvents upper evidence leg sourceAt dueAt, P eventAt)
        ↔ ∀ event ∈ (fundingEvents (fundingQuotesForLeg upper evidence leg sourceAt dueAt)
            sourceAt dueAt).items.insertionSort (fun p q => p.1 ≤ q.1), P event.1 := by
    intro P
    rw [summedEvents, List.forall_mem_map]
    simp only [List.mem_insertionSort]
  rw [fundingForLeg, if_neg (not_not_intro hperpetual), hscheduled, hmarked]
  by_cases hall : (fundingQuotesForLeg upper evidence leg sourceAt dueAt).all
      (fun quote => quote.nextFundingTime.isNone) = true
  · simp [hall]
  · dsimp only
    rw [if_neg (fun h => hall (hempty h)), if_neg hall, Option.map_eq_some_iff]
    simp only [accruedFunding_eq_some_iff, zero_add, Prod.mk.injEq]
    constructor
    · rintro ⟨_, ⟨hmids, rfl⟩, rfl, rfl⟩
      refine ⟨hall, hmids, ?_, rfl⟩
      rw [List.length_insertionSort, summedEvents, List.length_map]
    · rintro ⟨-, hmids, rfl, rfl⟩
      refine ⟨_, ⟨hmids, rfl⟩, rfl, ?_⟩
      rw [List.length_insertionSort, summedEvents, List.length_map]

/-! ### Whole schedules -/

variable (upper evidence leg sourceAt dueAt)

/-- An event of the schedule of a retained observation that falls in the window: its next
    funding time moved by a whole number of intervals. -/
def Scheduled (eventAt : Instant) : Prop :=
  ∃ row ∈ fundingQuotesForLeg upper evidence leg sourceAt dueAt, ∃ next,
    row.nextFundingTime = some next
      ∧ ∃ k : ℤ, eventAt = next + k * timedeltaHours row.intervalHours
        ∧ sourceAt < eventAt ∧ eventAt ≤ dueAt

/-- A returned total sums every scheduled event, and an event that no retained observation
    announced in time lets nothing be returned. -/
structure NeverOmits : Prop where
  summed : ∀ total count, fundingForLeg upper evidence leg sourceAt dueAt = some (total, count) →
    ∀ eventAt, Scheduled upper evidence leg sourceAt dueAt eventAt →
      eventAt ∈ summedEvents upper evidence leg sourceAt dueAt
  failsClosed : ∀ eventAt, Scheduled upper evidence leg sourceAt dueAt eventAt →
    (∀ row ∈ fundingQuotesForLeg upper evidence leg sourceAt dueAt,
      ¬ (row.nextFundingTime = some eventAt ∧ row.observedAt ≤ eventAt)) →
    fundingForLeg upper evidence leg sourceAt dueAt = none

/-- The observations name every scheduled event in time, unless the price at one that they
    do name is unknown. -/
def WhollyAnnounced : Prop :=
  (∃ row ∈ fundingQuotesForLeg upper evidence leg sourceAt dueAt, ∃ eventAt,
      Announces sourceAt dueAt row eventAt ∧ historicalMid upper evidence leg eventAt = none)
    ∨ ∀ eventAt, Scheduled upper evidence leg sourceAt dueAt eventAt →
        ∃ row ∈ fundingQuotesForLeg upper evidence leg sourceAt dueAt,
          row.nextFundingTime = some eventAt ∧ row.observedAt ≤ eventAt

variable {upper evidence leg sourceAt dueAt}

/-- Some row has a schedule as soon as an event is scheduled. -/
theorem Scheduled.row {eventAt : Instant} (h : Scheduled upper evidence leg sourceAt dueAt eventAt) :
    ∃ row ∈ fundingQuotesForLeg upper evidence leg sourceAt dueAt,
      row.nextFundingTime.isSome := by
  obtain ⟨row, hrow, next, hnext, -⟩ := h
  exact ⟨row, hrow, by rw [hnext]; rfl⟩

/-- A scheduled event lies in the window. -/
theorem Scheduled.window {eventAt : Instant}
    (h : Scheduled upper evidence leg sourceAt dueAt eventAt) :
    sourceAt < eventAt ∧ eventAt ≤ dueAt := by
  obtain ⟨-, -, -, -, -, -, hwindow⟩ := h
  exact hwindow

/-- **Funding schedule.** The realized funding of a perpetual leg omits no scheduled event
    exactly when the stored observations announce the whole schedule. -/
theorem neverOmits_iff (hperpetual : leg.marketKind = MarketKind.perpetual.value) :
    NeverOmits upper evidence leg sourceAt dueAt
      ↔ WhollyAnnounced upper evidence leg sourceAt dueAt := by
  constructor
  · intro h
    by_cases hmarked : ∀ eventAt ∈ summedEvents upper evidence leg sourceAt dueAt,
        ∃ mid, historicalMid upper evidence leg eventAt = some mid
    · -- With all prices known a total is returned, and it sums what is scheduled.
      refine Or.inr (fun eventAt hscheduled => ?_)
      have htotal := (fundingForLeg_eq_some_iff hperpetual).mpr
        ⟨hscheduled.row, hmarked, rfl, rfl⟩
      obtain ⟨row, hrow, hnext, -, -, hobserved⟩ :=
        mem_summedEvents_iff.mp (h.summed _ _ htotal eventAt hscheduled)
      exact ⟨row, hrow, hnext, hobserved⟩
    · push Not at hmarked
      obtain ⟨eventAt, hmem, hnone⟩ := hmarked
      obtain ⟨row, hrow, hannounces⟩ := mem_summedEvents_iff.mp hmem
      refine Or.inl ⟨row, hrow, eventAt, hannounces, ?_⟩
      exact Option.eq_none_iff_forall_ne_some.mpr hnone
  · intro h
    have hannounced : ∀ total count,
        fundingForLeg upper evidence leg sourceAt dueAt = some (total, count) →
        ∀ eventAt, Scheduled upper evidence leg sourceAt dueAt eventAt →
          ∃ row ∈ fundingQuotesForLeg upper evidence leg sourceAt dueAt,
            row.nextFundingTime = some eventAt ∧ row.observedAt ≤ eventAt := by
      intro total count htotal
      obtain ⟨-, hmarked, -⟩ := (fundingForLeg_eq_some_iff hperpetual).mp htotal
      refine h.resolve_left ?_
      rintro ⟨row, hrow, eventAt, hannounces, hnone⟩
      obtain ⟨mid, hmid⟩ := hmarked eventAt (mem_summedEvents_iff.mpr ⟨row, hrow, hannounces⟩)
      rw [hnone] at hmid
      cases hmid
    refine ⟨fun total count htotal eventAt hscheduled => ?_, fun eventAt hscheduled hnot => ?_⟩
    · obtain ⟨row, hrow, hnext, hobserved⟩ := hannounced total count htotal eventAt hscheduled
      exact mem_summedEvents_iff.mpr ⟨row, hrow, hnext, hscheduled.window.1,
        hscheduled.window.2, hobserved⟩
    · refine Option.eq_none_iff_forall_ne_some.mpr (fun total htotal => ?_)
      obtain ⟨row, hrow, hrest⟩ := hannounced total.1 total.2 htotal eventAt hscheduled
      exact hnot row hrow hrest

end Schedule

/-! ### A schedule announced in part -/

/-- A long of one unit of a perpetual. -/
def perpetualLong : PaperSettlementLeg where
  venue := "kraken"
  asset := "BTC"
  marketKind := MarketKind.perpetual.value
  symbol := "BTC-PERP"
  side := .long
  baseQuantity := 1
  entryPrice := 100
  entryNotionalUsd := 100

/-- The evidence of the funding rows given, with a mark of the instrument from the start. -/
def markedFrom (rows : List FundingQuote) : Evidence where
  fundingQuotes := rows
  marketQuotes := [⟨"kraken", "BTC", .perpetual, "BTC-PERP", 100, 0⟩]

/-- An observation at one hour of an eight-hour rate whose next event is at eight hours. -/
def firstOfThree : FundingQuote :=
  ⟨"kraken", "BTC", 1 / 10000, ⟨8, interval_eight⟩, none, some 28800000000, 3600000000⟩

/-- Over nine hours the one announced event is the whole schedule. -/
theorem neverOmits_nineHours :
    WhollyAnnounced id (markedFrom [firstOfThree]) perpetualLong 0 32400000000
      ∧ NeverOmits id (markedFrom [firstOfThree]) perpetualLong 0 32400000000 := by
  have hannounced : WhollyAnnounced id (markedFrom [firstOfThree]) perpetualLong 0 32400000000 := by
    refine Or.inr ?_
    rintro eventAt ⟨row, hrow, next, hnext, k, rfl, hafter, hbefore⟩
    have hrows : fundingQuotesForLeg id (markedFrom [firstOfThree]) perpetualLong 0 32400000000
        = [firstOfThree] := rfl
    rw [hrows] at hrow ⊢
    obtain rfl := List.mem_singleton.mp hrow
    obtain rfl : (28800000000 : Instant) = next := Option.some_inj.mp hnext
    have hinterval : timedeltaHours firstOfThree.intervalHours = 28800000000 := by decide +kernel
    rw [hinterval] at hafter hbefore ⊢
    have hpositive : (0 : ℤ) < 28800000000 + k * 28800000000 := hafter
    have hbelow : 28800000000 + k * 28800000000 ≤ (32400000000 : ℤ) := hbefore
    have hk : k = 0 := by omega
    subst hk
    refine ⟨firstOfThree, List.mem_singleton.mpr rfl, by decide, by decide⟩
  exact ⟨hannounced, (neverOmits_iff rfl).mpr hannounced⟩

/-- **Omitted events.** Over a day that observation is the only one, and the total returned
    sums one of the three events of its schedule. -/
theorem not_neverOmits_oneDay :
    ¬ NeverOmits id (markedFrom [firstOfThree]) perpetualLong 0 86400000000 := by
  intro h
  have hrow : firstOfThree
      ∈ fundingQuotesForLeg id (markedFrom [firstOfThree]) perpetualLong 0 86400000000 := by
    have hrows : fundingQuotesForLeg id (markedFrom [firstOfThree]) perpetualLong 0 86400000000
        = [firstOfThree] := rfl
    rw [hrows]
    exact List.mem_singleton.mpr rfl
  have hscheduled : Scheduled id (markedFrom [firstOfThree]) perpetualLong 0 86400000000
      57600000000 := by
    have hinterval : timedeltaHours firstOfThree.intervalHours = 28800000000 := by decide +kernel
    refine ⟨firstOfThree, hrow, 28800000000, rfl, 1, ?_, by decide, by decide⟩
    rw [hinterval]
    rfl
  have htotal : fundingForLeg id (markedFrom [firstOfThree]) perpetualLong 0 86400000000
      = some (-1 / 100, 1) := by decide +kernel
  have hmem := h.summed _ _ htotal _ hscheduled
  have hevents : summedEvents id (markedFrom [firstOfThree]) perpetualLong 0 86400000000
      = [28800000000] := by decide +kernel
  rw [hevents] at hmem
  exact absurd (List.mem_singleton.mp hmem) (by decide)

end InefficiencyEngine.Portfolio
