import InefficiencyEngine.Research.AlphaFactory
import InefficiencyEngine.Research.CertificationCycle
import InefficiencyEngine.Portfolio.Sample

namespace InefficiencyEngine.Research

open Portfolio Durable

/-!
# When research outcomes exit on evidence after the horizon

A trial or signal is due by the completion time of the snapshot, while its exit prices are
those of whichever quote or order book of its instruments the snapshot lists last.  The
sources of the exit prices are made explicit here (`exitSources`), and an outcome is
*forward* when all of them were observed at or after the horizon.

The outcomes of a cycle are all forward exactly when, for every due trial whose exit
evidence is complete, the last listed observation of each instrument it exits in is not
from before its horizon (`certificationForward_iff`, `alphaForward_iff`).
-/

/-! ### The sources of exit prices -/

/-- What an exit price is read off: a quote, or the walk of a book that closes a leg. -/
inductive ExitSource
  | quote (quote : MarketQuote)
  | book (book : OrderBookSnapshot) (leg : PaperSettlementLeg)

/-- When the source was observed. -/
def ExitSource.observedAt : ExitSource → Instant
  | .quote q => q.observedAt
  | .book b _ => b.observedAt

/-- The exit price the source gives. -/
def ExitSource.price? : ExitSource → Option ℚ
  | .quote q => some q.mid
  | .book b leg =>
    match estimateMarketOrderQuantity b (closeSide leg.side) leg.baseQuantity true with
    | .ok fill => some fill.averagePrice
    | .error _ => none

/-- The exit prices of an outcome: its reference price, and those of its legs. -/
def exitPrices (o : PaperAllocationOutcome) : List ℚ :=
  o.exitReferencePrice.toList.map Subtype.val
    ++ o.legOutcomes.map (fun leg => (leg.exitPrice : ℚ))

section Exits

variable (upper : String → String) (snapshot : ScanSnapshot) (trial : PaperAllocationTrial)

/-- The quote the certification service looks up for a directional trial. -/
def exitQuote? : Option MarketQuote :=
  (trial.instrumentKey upper).bind (certificationQuoteIndex upper snapshot).get?

/-- The walk that closes a leg, over the book an index holds for it. -/
def legSource? (books : Dict InstrumentKey OrderBookSnapshot) (leg : PaperSettlementLeg) :
    Option ExitSource :=
  (books.get? (leg.key upper)).map (fun book => .book book leg)

/-- The observations `_settle_trial` reads the exit prices of its outcome off, in the order
    of `exitPrices`.  A perpetual short exits at its quote twice, as a trial and as a leg. -/
def exitSources : List ExitSource :=
  if trial.settlementMethod = some multiLegSettlementMethod then
    trial.settlementLegs.filterMap (legSource? upper (bookIndex upper snapshot))
  else if trial.settlementMethod = some perpShortSettlementMethod then
    (exitQuote? upper snapshot trial).toList.flatMap (fun q => [.quote q, .quote q])
  else (exitQuote? upper snapshot trial).toList.map .quote

/-- **Forward outcome.** The exit prices are those of their sources, and every source was
    observed at or after the horizon of the trial. -/
def Forward (o : PaperAllocationOutcome) : Prop :=
  (exitSources upper snapshot trial).map ExitSource.price? = (exitPrices o).map some
    ∧ ∀ source ∈ exitSources upper snapshot trial, ∀ dueAt ∈ trial.dueAt,
        dueAt ≤ source.observedAt

/-! ### The condition -/

variable (evidence : Evidence)

/-- The evidence a directional trial exits on: its metadata, and a quote of its instrument. -/
structure DirectionalEvidence : Prop where
  entry : trial.entryReferencePrice.isSome
  cost : trial.modeledRoundtripCostReturn.isSome
  quoted : ∃ key, trial.instrumentKey upper = some key
    ∧ ∃ quote ∈ snapshot.marketQuotes, quote.key upper = key

/-- The evidence a perpetual short exits on: also its funding since the entry. -/
structure PerpShortEvidence : Prop extends DirectionalEvidence upper snapshot trial where
  funded : ∃ sourceAt dueAt leg, trial.sourceObservedAt = some sourceAt
    ∧ trial.dueAt = some dueAt ∧ trial.settlementLegs.head? = some leg
    ∧ (fundingForLeg upper evidence leg sourceAt dueAt).isSome

/-- The evidence a two-leg trial exits on: the funding of each leg, and a last listed book
    deep enough to close it. -/
structure MultilegEvidence : Prop where
  cost : trial.modeledNonSlippageCostBps.isSome
  legs : trial.settlementLegs.length = 2
  funded : ∃ sourceAt dueAt, trial.sourceObservedAt = some sourceAt ∧ trial.dueAt = some dueAt
    ∧ ∀ leg ∈ trial.settlementLegs, (fundingForLeg upper evidence leg sourceAt dueAt).isSome
  deep : ∀ leg ∈ trial.settlementLegs, ∃ book fill,
    Dict.LastListed (OrderBookSnapshot.key upper) snapshot.orderBooks (leg.key upper) book
      ∧ estimateMarketOrderQuantity book (closeSide leg.side) leg.baseQuantity true = .ok fill

/-- The exit evidence the trial's method asks for is complete. -/
def CompleteEvidence : Prop :=
  if trial.settlementMethod = some multiLegSettlementMethod then
    MultilegEvidence upper snapshot trial evidence
  else if trial.settlementMethod = some perpShortSettlementMethod then
    PerpShortEvidence upper snapshot trial evidence
  else DirectionalEvidence upper snapshot trial

/-- The last listed observation of each instrument the trial exits in is not from before
    its horizon. -/
def LastListedFresh : Prop :=
  ∀ dueAt ∈ trial.dueAt,
    if trial.settlementMethod = some multiLegSettlementMethod then
      ∀ leg ∈ trial.settlementLegs, ∀ book,
        Dict.LastListed (OrderBookSnapshot.key upper) snapshot.orderBooks (leg.key upper) book →
          dueAt ≤ book.observedAt
    else
      ∀ key ∈ trial.instrumentKey upper, ∀ quote,
        Dict.LastListed (MarketQuote.key upper) snapshot.marketQuotes key quote →
          dueAt ≤ quote.observedAt

/-- Every source is fresh exactly when the last listings are. The indexes keep the listing that
    comes last for each key, so freshness of what is found is freshness of what is listed last.
    -/
theorem fresh_exitSources_iff :
    (∀ source ∈ exitSources upper snapshot trial, ∀ dueAt ∈ trial.dueAt,
        dueAt ≤ source.observedAt)
      ↔ LastListedFresh upper snapshot trial := by
  -- what the quote index finds is the last listed quote, and likewise for the books
  have hquote : ∀ quote, exitQuote? upper snapshot trial = some quote
      ↔ ∃ key ∈ trial.instrumentKey upper,
          Dict.LastListed (MarketQuote.key upper) snapshot.marketQuotes key quote := by
    intro quote
    rw [exitQuote?, Option.bind_eq_some_iff]
    simp only [certificationQuoteIndex, Dict.get?_collect_eq_some_iff, Option.mem_def]
  have hbook : ∀ leg source, legSource? upper (bookIndex upper snapshot) leg = some source
      ↔ ∃ book, Dict.LastListed (OrderBookSnapshot.key upper) snapshot.orderBooks (leg.key upper)
          book ∧ ExitSource.book book leg = source := by
    intro leg source
    rw [legSource?, Option.map_eq_some_iff]
    simp only [bookIndex, Dict.get?_collect_eq_some_iff]
  unfold exitSources LastListedFresh
  -- two legs exit on their books, every other trial on one quote
  by_cases hmulti : trial.settlementMethod = some multiLegSettlementMethod
  · simp only [if_pos hmulti, List.mem_filterMap, hbook]
    constructor
    · intro h dueAt hdue leg hleg book hlast
      exact h (.book book leg) ⟨leg, hleg, book, hlast, rfl⟩ dueAt hdue
    · rintro h _ ⟨leg, hleg, book, hlast, rfl⟩ dueAt hdue
      exact h dueAt hdue leg hleg book hlast
  · have hsources : ∀ source : ExitSource,
        source ∈ (if trial.settlementMethod = some perpShortSettlementMethod then
            (exitQuote? upper snapshot trial).toList.flatMap
              (fun q => [ExitSource.quote q, ExitSource.quote q])
          else (exitQuote? upper snapshot trial).toList.map ExitSource.quote)
        ↔ ∃ quote, exitQuote? upper snapshot trial = some quote ∧ source = .quote quote := by
      intro source
      by_cases hperp : trial.settlementMethod = some perpShortSettlementMethod
      · simp [if_pos hperp]
      · simp [if_neg hperp, eq_comm]
    simp only [if_neg hmulti, hsources, hquote]
    constructor
    · intro h dueAt hdue key hkey quote hlast
      exact h (.quote quote) ⟨quote, ⟨key, hkey, hlast⟩, rfl⟩ dueAt hdue
    · rintro h _ ⟨quote, ⟨key, hkey, hlast⟩, rfl⟩ dueAt hdue
      exact h dueAt hdue key hkey quote hlast

end Exits

/-! ### What a settlement reads -/

section Settlement

variable (upper : String → String)

/-- A leg that is closed exits at the average price of the walk of its book. -/
theorem settleLeg_eq_some {books : Dict InstrumentKey OrderBookSnapshot} {leg : PaperSettlementLeg}
    {funding : ℚ × ℕ} {closed : PaperSettlementLegOutcome}
    (h : settleLeg upper books leg funding = .ok (some closed)) :
    ∃ book fill, books.get? (leg.key upper) = some book
      ∧ estimateMarketOrderQuantity book (closeSide leg.side) leg.baseQuantity true = .ok fill
      ∧ (closed.exitPrice : ℚ) = fill.averagePrice := by
  unfold settleLeg at h
  split at h
  · cases h
  · rename_i book hbook
    split at h
    · cases h
    · cases h
    · rename_i fill hfill
      obtain ⟨exitPrice, hprice, h⟩ := bind_eq_ok h
      obtain ⟨exitNotional, -, h⟩ := bind_eq_ok h
      obtain ⟨exitSlippage, -, h⟩ := bind_eq_ok h
      injection h with h
      injection h with h
      refine ⟨book, fill, hbook, hfill, ?_⟩
      rw [← h]
      exact positive_eq_ok hprice

/-- A leg is closed when its book is deep enough. -/
theorem settleLeg_of_fill {books : Dict InstrumentKey OrderBookSnapshot} {leg : PaperSettlementLeg}
    {book : OrderBookSnapshot} {fill : QuantityExecutionEstimate} (funding : ℚ × ℕ)
    (hbook : books.get? (leg.key upper) = some book)
    (hfill : estimateMarketOrderQuantity book (closeSide leg.side) leg.baseQuantity true = .ok fill) :
    ∃ closed, settleLeg upper books leg funding = .ok (some closed) := by
  obtain ⟨-, hnotional, haverage, -, hslippage⟩ := estimateMarketOrderQuantity_sound hfill
  unfold settleLeg
  simp only [hbook, hfill, positive_of_lt haverage, positive_of_lt hnotional,
    nonNegative_of_le hslippage]
  exact ⟨_, rfl⟩

/-- The exit prices of closed legs are those of their books. -/
theorem price?_of_settleLegs {books : Dict InstrumentKey OrderBookSnapshot}
    {rows : List (PaperSettlementLeg × ℚ × ℕ)} {closed : List PaperSettlementLegOutcome}
    (h : settleLegs upper books rows = .ok (some closed)) :
    ((rows.map Prod.fst).filterMap (legSource? upper books)).map ExitSource.price?
      = (closed.map (fun leg => (leg.exitPrice : ℚ))).map some := by
  induction rows generalizing closed with
  | nil =>
    injection h with h
    injection h with h
    rw [← h]
    rfl
  | cons row rest ih =>
    obtain ⟨leg, funding⟩ := row
    rw [settleLegs] at h
    obtain ⟨first, hfirst, h⟩ := bind_eq_ok h
    cases first with
    -- without an exit price of the first leg nothing is closed
    | none => cases h
    | some first =>
      obtain ⟨others, hothers, h⟩ := bind_eq_ok h
      cases others with
      | none => cases h
      | some others =>
        injection h with h
        injection h with h
        obtain ⟨book, fill, hbook, hfill, hprice⟩ := settleLeg_eq_some upper hfirst
        -- the source of a leg is the book of its key
        have hsource : legSource? upper books leg = some (.book book leg) := by
          rw [legSource?, hbook]
          rfl
        -- and its price is the average of the fill
        have hvalue : (ExitSource.book book leg).price? = some fill.averagePrice := by
          rw [ExitSource.price?, hfill]
        rw [List.map_cons, List.filterMap_cons_some hsource, List.map_cons, ih hothers, ← h,
          hvalue, List.map_cons, List.map_cons, hprice]

/-- The legs are all closed exactly when each has a book deep enough. -/
theorem settleLegs_isSome_iff {books : Dict InstrumentKey OrderBookSnapshot}
    {rows : List (PaperSettlementLeg × ℚ × ℕ)} :
    (∃ closed, settleLegs upper books rows = .ok (some closed))
      ↔ ∀ row ∈ rows, ∃ book fill, books.get? (row.1.key upper) = some book
          ∧ estimateMarketOrderQuantity book (closeSide row.1.side) row.1.baseQuantity true
            = .ok fill := by
  induction rows with
  | nil => exact ⟨fun _ row hrow => (by cases hrow), fun _ => ⟨[], rfl⟩⟩
  | cons row rest ih =>
    obtain ⟨leg, funding⟩ := row
    rw [List.forall_mem_cons, ← ih]
    constructor
    -- every leg that was closed has a book and a fill
    · rintro ⟨closed, h⟩
      rw [settleLegs] at h
      obtain ⟨first, hfirst, h⟩ := bind_eq_ok h
      cases first with
      | none => cases h
      | some first =>
        obtain ⟨others, hothers, h⟩ := bind_eq_ok h
        obtain ⟨book, fill, hbook, hfill, -⟩ := settleLeg_eq_some upper hfirst
        cases others with
        | none => cases h
        | some others => exact ⟨⟨book, fill, hbook, hfill⟩, others, hothers⟩
    -- a leg with a full fill closes, whatever the funding is
    · rintro ⟨⟨book, fill, hbook, hfill⟩, others, hothers⟩
      obtain ⟨first, hfirst⟩ := settleLeg_of_fill upper funding hbook hfill
      refine ⟨first :: others, ?_⟩
      rw [settleLegs, hfirst]
      show (settleLegs upper books rest >>= _) = _
      rw [hothers]
      rfl

variable (evidence : Evidence)

/-- The funding of all legs is known exactly when that of each leg is. -/
theorem fundingRows_isSome_iff {sourceAt dueAt : Instant} {legs : List PaperSettlementLeg} :
    (∃ fundings, fundingRows upper evidence sourceAt dueAt legs = some fundings)
      ↔ ∀ leg ∈ legs, (fundingForLeg upper evidence leg sourceAt dueAt).isSome := by
  induction legs with
  | nil => exact ⟨fun _ leg hleg => (by cases hleg), fun _ => ⟨[], rfl⟩⟩
  | cons leg rest ih =>
    rw [List.forall_mem_cons, ← ih]
    simp only [fundingRows, Option.bind_eq_bind, Option.bind_eq_some_iff, Option.pure_def,
      Option.some.injEq, Option.isSome_iff_exists]
    constructor
    · rintro ⟨_, funding, hfunding, others, hothers, -⟩
      exact ⟨⟨funding, hfunding⟩, others, hothers⟩
    · rintro ⟨⟨funding, hfunding⟩, others, hothers⟩
      exact ⟨_, funding, hfunding, others, hothers, rfl⟩

/-- The legs a settlement pairs with their funding are the trial's legs. -/
theorem map_fst_zip_fundingRows {sourceAt dueAt : Instant} {legs : List PaperSettlementLeg}
    {fundings : List (ℚ × ℕ)}
    (h : fundingRows upper evidence sourceAt dueAt legs = some fundings) :
    (legs.zip fundings).map Prod.fst = legs :=
  List.map_fst_zip (length_fundingRows upper evidence h).ge

variable {evidence} {outcomeId : Uuid} {trial : PaperAllocationTrial} {snapshot : ScanSnapshot}

/-- The exit prices of a two-leg trial are those of its sources. -/
theorem price?_of_settleMultileg {o : PaperAllocationOutcome}
    (h : settleMultileg upper evidence outcomeId trial snapshot = .ok (some o)) :
    (trial.settlementLegs.filterMap (legSource? upper (bookIndex upper snapshot))).map
        ExitSource.price?
      = (exitPrices o).map some := by
  unfold settleMultileg at h
  split at h
  · split at h
    · cases h
    · split at h
      · cases h
      · rename_i fundings hfundings
        obtain ⟨closed, hclosed, h⟩ := bind_eq_ok h
        injection h with h
        obtain ⟨legOutcomes, rfl, rfl⟩ := Option.map_eq_some_iff.mp h
        have hprices := price?_of_settleLegs upper hclosed
        rw [map_fst_zip_fundingRows upper evidence hfundings] at hprices
        exact hprices
  · cases h

/-- A two-leg trial settles exactly when its evidence is complete. The legs are walked together
    with their funding, so the zip of the two must cover every leg before the depth of each leg
    can be read off. -/
theorem settleMultileg_isSome_iff :
    (∃ o, settleMultileg upper evidence outcomeId trial snapshot = .ok (some o))
      ↔ MultilegEvidence upper snapshot trial evidence := by
  constructor
  -- a settled trial has passed the guards, and each leg of the zip has its book and its depth
  · rintro ⟨o, h⟩
    unfold settleMultileg at h
    split at h
    · rename_i dueAt sourceAt costBps hdue hsource hcost
      split at h
      · cases h
      · rename_i hlength
        split at h
        · cases h
        · rename_i fundings hfundings
          obtain ⟨closed, hclosed, h⟩ := bind_eq_ok h
          injection h with h
          obtain ⟨legOutcomes, rfl, -⟩ := Option.map_eq_some_iff.mp h
          have hdeep := (settleLegs_isSome_iff upper).mp ⟨_, hclosed⟩
          refine ⟨by rw [hcost]; rfl, not_not.mp hlength, ⟨sourceAt, dueAt, hsource, hdue,
            (fundingRows_isSome_iff upper evidence).mp ⟨fundings, hfundings⟩⟩, fun leg hleg => ?_⟩
          rw [← map_fst_zip_fundingRows upper evidence hfundings] at hleg
          obtain ⟨row, hrow, rfl⟩ := List.mem_map.mp hleg
          obtain ⟨book, fill, hbook, hfill⟩ := hdeep row hrow
          exact ⟨book, fill, Dict.get?_collect_eq_some_iff.mp hbook, hfill⟩
    · cases h
  -- complete evidence funds every leg and fills it from its last listed book
  · rintro ⟨hcost, hlength, ⟨sourceAt, dueAt, hsource, hdue, hfunded⟩, hdeep⟩
    obtain ⟨costBps, hcost⟩ := Option.isSome_iff_exists.mp hcost
    obtain ⟨fundings, hfundings⟩ := (fundingRows_isSome_iff upper evidence).mpr hfunded
    obtain ⟨closed, hclosed⟩ : ∃ closed, settleLegs upper (bookIndex upper snapshot)
        (trial.settlementLegs.zip fundings) = .ok (some closed) := by
      refine (settleLegs_isSome_iff upper).mpr (fun row hrow => ?_)
      have hleg : row.1 ∈ trial.settlementLegs := by
        rw [← map_fst_zip_fundingRows upper evidence hfundings]
        exact List.mem_map_of_mem hrow
      obtain ⟨book, fill, hlast, hfill⟩ := hdeep row.1 hleg
      exact ⟨book, fill, Dict.get?_collect_eq_some_iff.mpr hlast, hfill⟩
    refine ⟨multilegOutcome outcomeId trial snapshot dueAt costBps closed, ?_⟩
    unfold settleMultileg
    simp only [hdue, hsource, hcost, hlength, ne_eq, not_true_eq_false, if_false, hfundings]
    rw [hclosed]
    rfl

/-- The metadata and the quote of a directional trial are there exactly when its evidence
    is. -/
theorem directionalEvidence_iff :
    DirectionalEvidence upper snapshot trial
      ↔ ∃ entry cost quote, trial.entryReferencePrice = some entry
          ∧ trial.modeledRoundtripCostReturn = some cost
          ∧ exitQuote? upper snapshot trial = some quote := by
  constructor
  · rintro ⟨hentry, hcost, key, hkey, hquoted⟩
    obtain ⟨entry, hentry⟩ := Option.isSome_iff_exists.mp hentry
    obtain ⟨cost, hcost⟩ := Option.isSome_iff_exists.mp hcost
    obtain ⟨quote, hquote⟩ := Dict.exists_get?_collect_iff.mpr hquoted
    exact ⟨entry, cost, quote, hentry, hcost, by rw [exitQuote?, hkey]; exact hquote⟩
  · rintro ⟨entry, cost, quote, hentry, hcost, hquote⟩
    obtain ⟨key, hkey, hquote⟩ := Option.bind_eq_some_iff.mp hquote
    exact ⟨by rw [hentry]; rfl, by rw [hcost]; rfl, key, hkey,
      Dict.exists_get?_collect_iff.mp ⟨quote, hquote⟩⟩

/-- **Exit prices.** A settled trial exits at the prices of its sources. -/
theorem price?_of_settleTrial {o : PaperAllocationOutcome}
    (h : settleTrial upper evidence outcomeId trial snapshot = .ok (some o)) :
    (exitSources upper snapshot trial).map ExitSource.price? = (exitPrices o).map some := by
  unfold settleTrial at h
  unfold exitSources
  split at h
  · cases h
  · by_cases hmulti : trial.settlementMethod = some multiLegSettlementMethod
    · rw [if_pos hmulti] at h ⊢
      -- two legs are priced against their books
      exact price?_of_settleMultileg upper h
    · rw [if_neg hmulti] at h ⊢
      by_cases hperp : trial.settlementMethod = some perpShortSettlementMethod
      · rw [if_pos hperp] at h ⊢
        -- a short and a long are priced against the last listed quote of their key
        injection h with h
        simp only [settlePerpShort, Option.bind_eq_bind, Option.bind_eq_some_iff,
          Option.pure_def, Option.some.injEq] at h
        obtain ⟨_, -, _, -, _, -, _, -, _, -, key, hkey, quote, hquote, _, -, rfl⟩ := h
        have hexit : exitQuote? upper snapshot trial = some quote := by
          rw [exitQuote?, hkey]
          exact hquote
        rw [hexit]
        rfl
      · rw [if_neg hperp] at h ⊢
        injection h with h
        simp only [settleSpotLong, Option.bind_eq_bind, Option.bind_eq_some_iff,
          Option.pure_def, Option.some.injEq] at h
        obtain ⟨_, -, _, -, key, hkey, quote, hquote, rfl⟩ := h
        have hexit : exitQuote? upper snapshot trial = some quote := by
          rw [exitQuote?, hkey]
          exact hquote
        rw [hexit]
        rfl

/-- **Settled exactly on complete evidence.** A supported trial with a horizon settles exactly
    when the evidence its method exits on is complete. Each method of settlement reads its own
    evidence, so the three branches of the source are compared with the three cases of what is
    complete. -/
theorem settleTrial_isSome_iff (hsupported : trial.settlementSupported = true)
    (hdue : trial.dueAt.isSome) :
    (∃ o, settleTrial upper evidence outcomeId trial snapshot = .ok (some o))
      ↔ CompleteEvidence upper snapshot trial evidence := by
  -- a supported trial with a horizon passes the guard
  have hguard : ¬ (!trial.settlementSupported || trial.dueAt.isNone) = true := by
    obtain ⟨dueAt, hdue⟩ := Option.isSome_iff_exists.mp hdue
    simp [hsupported, hdue]
  unfold settleTrial CompleteEvidence
  rw [if_neg hguard]
  by_cases hmulti : trial.settlementMethod = some multiLegSettlementMethod
  · simp only [if_pos hmulti]
    exact settleMultileg_isSome_iff upper
  · simp only [if_neg hmulti]
    -- the perpetual short needs its exit quote and the funding of its leg
    by_cases hperp : trial.settlementMethod = some perpShortSettlementMethod
    · simp only [if_pos hperp, Except.ok.injEq]
      constructor
      · rintro ⟨o, h⟩
        simp only [settlePerpShort, Option.bind_eq_bind, Option.bind_eq_some_iff,
          Option.pure_def, Option.some.injEq] at h
        obtain ⟨entry, hentry, cost, hcost, dueAt, hdue, sourceAt, hsource, leg, hleg, key, hkey,
          quote, hquote, _, hfunding, -⟩ := h
        have hexit : exitQuote? upper snapshot trial = some quote := by
          rw [exitQuote?, hkey]
          exact hquote
        exact ⟨(directionalEvidence_iff upper).mpr ⟨entry, cost, quote, hentry, hcost, hexit⟩,
          sourceAt, dueAt, leg, hsource, hdue, hleg, Option.isSome_of_eq_some hfunding⟩
      · rintro ⟨hdirectional, sourceAt, dueAt, leg, hsource, hdue, hleg, hfunding⟩
        obtain ⟨entry, cost, quote, hentry, hcost, hexit⟩ :=
          (directionalEvidence_iff upper).mp hdirectional
        obtain ⟨key, hkey, hquote⟩ := Option.bind_eq_some_iff.mp hexit
        exact settlePerpShort_isSome upper evidence outcomeId snapshot
          (Option.isSome_of_eq_some hentry) (Option.isSome_of_eq_some hcost) hdue hsource hleg hkey
          hquote hfunding
    -- every other supported trial is a spot long, which needs its exit quote
    · simp only [if_neg hperp, Except.ok.injEq]
      rw [directionalEvidence_iff]
      constructor
      · rintro ⟨o, h⟩
        simp only [settleSpotLong, Option.bind_eq_bind, Option.bind_eq_some_iff,
          Option.pure_def, Option.some.injEq] at h
        obtain ⟨entry, hentry, cost, hcost, key, hkey, quote, hquote, -⟩ := h
        refine ⟨entry, cost, quote, hentry, hcost, ?_⟩
        rw [exitQuote?, hkey]
        exact hquote
      · rintro ⟨entry, cost, quote, hentry, hcost, hexit⟩
        obtain ⟨key, hkey, hquote⟩ := Option.bind_eq_some_iff.mp hexit
        simp only [settleSpotLong, hentry, hcost, hkey, hquote, Option.bind_eq_bind,
          Option.bind_some]
        exact ⟨_, rfl⟩

end Settlement

/-! ### The certification cycle -/

/-- The tables of the certification service, whose trial ids are unique. -/
structure CertificationTables extends CertificationStore where
  trials_unique : (trials.map PaperAllocationTrial.trialId).Nodup

section Certification

variable (R : Runtime) (input : CertificationInput) (totalCapitalUsd : ℚ)
  (s : CertificationTables)

/-- The outcomes a cycle records. -/
def recordedOutcomes : List PaperAllocationOutcome :=
  ((AllocationForwardCertificationService.runCycle R input totalCapitalUsd).final
    s.toCertificationStore).outcomes.drop s.outcomes.length

/-- Every outcome the cycle records is a forward outcome of its trial. -/
def CertificationForward : Prop :=
  ∀ o ∈ recordedOutcomes R input totalCapitalUsd s, ∃ snapshot, input.collected = .ok snapshot
    ∧ ∃ trial ∈ s.trials, trial.trialId = o.trialId ∧ Forward R.upper snapshot trial o

/-- The last listed observations a settled trial exits on are fresh. -/
def CertificationFresh : Prop :=
  0 < totalCapitalUsd → ∀ snapshot, input.collected = .ok snapshot →
    ∀ trial ∈ pendingSupportedTrials s.toCertificationStore snapshot.completedAt,
      CompleteEvidence R.upper snapshot trial (input.evidence trial) →
        LastListedFresh R.upper snapshot trial

/-- Without capital or a snapshot a cycle records nothing. -/
theorem recordedOutcomes_of_not_settling
    (h : totalCapitalUsd ≤ 0 ∨ ∃ e, input.collected = .error e) :
    recordedOutcomes R input totalCapitalUsd s = [] := by
  have hrun : ((AllocationForwardCertificationService.runCycle R input totalCapitalUsd)
      s.toCertificationStore).1 = [] := by
    unfold AllocationForwardCertificationService.runCycle
    by_cases hcapital : totalCapitalUsd ≤ 0
    · rw [if_pos hcapital]
      rfl
    · obtain ⟨e, he⟩ := h.resolve_left hcapital
      rw [if_neg hcapital, he]
      rfl
  rw [recordedOutcomes, Prog.final, hrun, commitAll_nil, List.drop_length]

/-- The outcomes a cycle records are those of the pending trials its snapshot settles. The
    pending trials have distinct ids and no outcomes, as the settlement loop assumes, and what
    the cycle writes behind the loop are trials. -/
theorem mem_recordedOutcomes {snapshot : ScanSnapshot} (hcapital : 0 < totalCapitalUsd)
    (hcollected : input.collected = .ok snapshot) :
    (∀ o ∈ recordedOutcomes R input totalCapitalUsd s,
      ∃ trial ∈ pendingSupportedTrials s.toCertificationStore snapshot.completedAt,
        ∃ i, settlement R input snapshot i trial = .ok (some o))
      ∧ ∀ trial ∈ pendingSupportedTrials s.toCertificationStore snapshot.completedAt,
        ∃ i result, settlement R input snapshot i trial = .ok result
          ∧ ∀ o, result = some o → o ∈ recordedOutcomes R input totalCapitalUsd s := by
  have hids : ((pendingSupportedTrials s.toCertificationStore snapshot.completedAt).map
      PaperAllocationTrial.trialId).Nodup := by
    refine (List.Sublist.map _ ?_).nodup s.trials_unique
    exact List.filter_sublist.trans List.filter_sublist
  have hnew : ∀ trial ∈ pendingSupportedTrials s.toCertificationStore snapshot.completedAt,
      trial.trialId ∉ s.completedTrialIds := fun trial htrial =>
    of_decide_eq_true (List.mem_filter.mp htrial).2
  obtain ⟨matured, added, hok, hfinal, hadded, hall⟩ :=
    outcomes_settlePending R input snapshot _ 0 hids hnew
  have hsettle : settlePending R input snapshot 0
      (pendingSupportedTrials s.toCertificationStore snapshot.completedAt) s.toCertificationStore
      = ((settlePending R input snapshot 0 (pendingSupportedTrials s.toCertificationStore
          snapshot.completedAt) s.toCertificationStore).1, .ok matured) := Prod.ext rfl hok
  have houtcomes : ((AllocationForwardCertificationService.runCycle R input totalCapitalUsd).final
      s.toCertificationStore).outcomes = s.outcomes ++ added := by
    unfold AllocationForwardCertificationService.runCycle
    rw [if_neg (not_le.mpr hcapital), hcollected, Prog.final]
    show (commitAll s.toCertificationStore ((settlePending R input snapshot 0
      (pendingSupportedTrials s.toCertificationStore snapshot.completedAt) >>= _)
      s.toCertificationStore).1).outcomes = _
    rw [Prog.run_bind_of_ok hsettle, commitAll_append,
      outcomes_commitAll_trials (emits_recordPlan R input matured _)]
    exact hfinal
  -- what is recorded is what the loop added
  have hrecorded : recordedOutcomes R input totalCapitalUsd s = added := by
    rw [recordedOutcomes, houtcomes, List.drop_left]
  rw [hrecorded]
  exact ⟨hadded, hall⟩

/-- A pending trial is a stored one that is supported, and has a horizon. -/
theorem of_mem_pendingSupportedTrials {now : Instant} {trial : PaperAllocationTrial}
    {s : CertificationStore} (h : trial ∈ pendingSupportedTrials s now) :
    trial ∈ s.trials ∧ trial.settlementSupported = true ∧ trial.dueAt.isSome := by
  obtain ⟨hdue, -⟩ := List.mem_filter.mp h
  obtain ⟨htrial, hcond⟩ := List.mem_filter.mp hdue
  obtain ⟨hsupported, hany⟩ := (Bool.and_eq_true _ _).mp hcond
  refine ⟨htrial, hsupported, ?_⟩
  cases hd : trial.dueAt with
  | none =>
    rw [hd] at hany
    cases hany
  | some dueAt => rfl

/-- **Forward certification.** The outcomes a certification cycle records are all forward
    exactly when the last listed observations of the trials it settles are fresh. -/
theorem certificationForward_iff :
    CertificationForward R input totalCapitalUsd s
      ↔ CertificationFresh R input totalCapitalUsd s := by
  constructor
  · intro h hcapital snapshot hcollected trial htrial hcomplete
    obtain ⟨-, hall⟩ := mem_recordedOutcomes R input totalCapitalUsd s hcapital hcollected
    obtain ⟨hstored, hsupported, hdue⟩ := of_mem_pendingSupportedTrials htrial
    obtain ⟨i, result, hresult, hmem⟩ := hall trial htrial
    have hsettles : ∃ o, settleTrial R.upper (input.evidence trial)
        (R.uuid4 input.run (.outcome i)) trial snapshot = .ok (some o) :=
      (settleTrial_isSome_iff R.upper hsupported hdue).mpr hcomplete
    obtain ⟨o, ho⟩ := hsettles
    have hsome : result = some o := Except.ok.inj (hresult.symm.trans ho)
    obtain ⟨snapshot', hcollected', trial', hstored', hid, hforward⟩ := h o (hmem o hsome)
    -- The trial the outcome names is this one, and so is the snapshot.
    obtain rfl : snapshot' = snapshot := Except.ok.inj (hcollected'.symm.trans hcollected)
    obtain ⟨result', hresult', hspec⟩ := settleTrial_total R.upper (input.evidence trial)
      (R.uuid4 input.run (.outcome i)) trial snapshot'
    have heq : trial'.trialId = trial.trialId := by
      rw [hid]
      exact hspec o (Except.ok.inj (hresult'.symm.trans ho))
    obtain rfl : trial' = trial :=
      List.inj_on_of_nodup_map s.trials_unique hstored' hstored heq
    exact (fresh_exitSources_iff R.upper snapshot' trial').mp hforward.2
  · intro h o ho
    by_cases hcapital : totalCapitalUsd ≤ 0
    · rw [recordedOutcomes_of_not_settling R input totalCapitalUsd s (Or.inl hcapital)] at ho
      cases ho
    · cases hcollected : input.collected with
      | error e =>
        rw [recordedOutcomes_of_not_settling R input totalCapitalUsd s (Or.inr ⟨e, hcollected⟩)]
          at ho
        cases ho
      | ok snapshot =>
        have hpos : 0 < totalCapitalUsd := not_le.mp hcapital
        obtain ⟨hadded, -⟩ := mem_recordedOutcomes R input totalCapitalUsd s hpos hcollected
        obtain ⟨trial, htrial, i, hi⟩ := hadded o ho
        obtain ⟨hstored, hsupported, hdue⟩ := of_mem_pendingSupportedTrials htrial
        obtain ⟨result, hresult, hspec⟩ := settleTrial_total R.upper (input.evidence trial)
          (R.uuid4 input.run (.outcome i)) trial snapshot
        have hid : o.trialId = trial.trialId := hspec o (Except.ok.inj (hresult.symm.trans hi))
        have hcomplete := (settleTrial_isSome_iff R.upper hsupported hdue).mp ⟨o, hi⟩
        have hfresh := h hpos snapshot hcollected trial htrial hcomplete
        exact ⟨snapshot, rfl, trial, hstored, hid.symm, price?_of_settleTrial R.upper hi,
          (fresh_exitSources_iff R.upper snapshot trial).mpr hfresh⟩

end Certification

/-! ### The evidence cycles of the alpha factories -/

section Alpha

variable (upper : String → String) (input : AlphaInput) (ledger : AlphaEvidenceLedger)

/-- The outcome exits at the price of the quote the index holds for its instrument, and the
    quote was observed at or after the horizon. -/
def AlphaForwardOutcome.Forward (snapshot : ScanSnapshot) (o : AlphaForwardOutcome) : Prop :=
  ∃ quote, (currentIndex upper snapshot).get? o.key = some quote ∧ o.exitPrice = quote.mid
    ∧ o.dueAt ≤ quote.observedAt

/-- Every outcome a cycle records is forward. -/
def AlphaForward (cycle : (String → String) → AlphaInput → AlphaProg AlphaEvidenceCycle) : Prop :=
  ∀ o ∈ ((cycle upper input).final ledger).outcomes.drop ledger.outcomes.length,
    ∃ snapshot, input.collected = .ok snapshot ∧ o.Forward upper snapshot

/-- The last listed quote of each pending signal's instrument is not from before its
    horizon. -/
def AlphaFresh : Prop :=
  ∀ snapshot, input.collected = .ok snapshot →
    ∀ signal ∈ ledger.pendingSignals snapshot.completedAt, ∀ quote,
      Dict.LastListed (alphaKey upper) snapshot.marketQuotes signal.candidate.key quote →
        signal.dueAt ≤ quote.observedAt

/-- **Forward signals.** The outcomes an evidence cycle records are all forward exactly when
    the last listed quotes of the pending signals are fresh, whichever candidates it
    skips. -/
theorem alphaForward_iff (skip : AlphaEvidenceLedger → AlphaCandidate → Bool) :
    AlphaForward upper input ledger (evidenceCycle skip) ↔ AlphaFresh upper input ledger := by
  unfold AlphaForward AlphaFresh
  cases hcollected : input.collected with
  -- a scan that failed records nothing
  | error e =>
    have hsilent : (evidenceCycle skip upper input ledger).1 = [] := by
      rw [evidenceCycle, hcollected]
      rfl
    rw [Prog.final, hsilent, commitAll_nil, List.drop_length]
    exact ⟨fun _ snapshot hsnapshot => (by cases hsnapshot), fun _ o ho => (by cases ho)⟩
  -- a scan records one outcome for each pending signal with a listed quote
  | ok snapshot =>
    rw [outcomes_evidenceCycle skip upper hcollected, List.drop_left]
    constructor
    · intro h snapshot' hsnapshot signal hsignal quote hlast
      -- the outcome of a matured signal determines the quote it was settled at
      obtain rfl : snapshot = snapshot' := Except.ok.inj hsnapshot
      have hquote := Dict.get?_collect_eq_some_iff.mpr hlast
      have hmature : matureSignal upper snapshot signal
          = some (signal.outcomeAt quote snapshot.completedAt) := by
        rw [matureSignal, currentIndex, hquote]
        rfl
      obtain ⟨snapshot', hsnapshot', quote', hquote', -, hdue⟩ :=
        h _ (List.mem_filterMap.mpr ⟨signal, hsignal, hmature⟩)
      obtain rfl : snapshot = snapshot' := Except.ok.inj hsnapshot'
      obtain rfl : quote = quote' := Option.some.inj (hquote.symm.trans hquote')
      exact hdue
    · intro h o ho
      obtain ⟨signal, hsignal, hmature⟩ := List.mem_filterMap.mp ho
      obtain ⟨quote, hquote, rfl⟩ := Option.map_eq_some_iff.mp hmature
      exact ⟨snapshot, rfl, quote, hquote, rfl,
        h snapshot rfl signal hsignal quote (Dict.get?_collect_eq_some_iff.mp hquote)⟩

end Alpha

/-! ### Research outcomes -/

/-- **Research outcomes are forward exactly on fresh listings.** For every state of the
    tables and every snapshot, the outcomes a certification cycle or an evidence cycle of
    either alpha factory records exit on evidence from the horizon on exactly when, for
    every due trial with complete exit evidence and for every due signal, the last listed
    observation of each instrument it exits in is not from before its horizon. -/
theorem researchForward_iff (R : Runtime) (input : CertificationInput) (totalCapitalUsd : ℚ)
    (s : CertificationTables) (alphaInput : AlphaInput) (ledger : AlphaEvidenceLedger) :
    (CertificationForward R input totalCapitalUsd s
        ↔ CertificationFresh R input totalCapitalUsd s)
      ∧ (AlphaForward R.upper alphaInput ledger AlphaFactoryService.runEvidenceCycle
        ↔ AlphaFresh R.upper alphaInput ledger)
      ∧ (AlphaForward R.upper alphaInput ledger ExpandedAlphaFactoryService.runEvidenceCycle
        ↔ AlphaFresh R.upper alphaInput ledger) :=
  ⟨certificationForward_iff R input totalCapitalUsd s,
    alphaForward_iff R.upper alphaInput ledger (fun _ _ => false),
    alphaForward_iff R.upper alphaInput ledger AlphaEvidenceLedger.hasOpenSignal⟩

/-! ### An exit on a price from before the horizon -/

/-- A spot long on one instrument, due an hour after its entry. -/
def hourLong : PaperAllocationTrial where
  trialId := 0
  planObservedAt := 0
  candidateId := "candidate"
  family := "alpha"
  strategy := "momentum"
  asset := "BTC"
  venues := ["kraken"]
  exposureKind := .directionalLong
  capitalRequiredUsd := 1000
  notionalUsd := 1000
  predictedProfitUsd := 1
  predictedReturnOnReservedCapital := 1
  sourceObservedAt := some 0
  dueAt := some 3600000000
  instrumentSymbol := some "BTC/USD"
  instrumentMarketKind := some MarketKind.spot.value
  entryReferencePrice := some 100
  modeledRoundtripCostReturn := some 0
  settlementLegs := []
  modeledNonSlippageCostBps := none
  modeledSafetyBufferBps := none
  capitalMultiple := none
  settlementSupported := true
  settlementMethod := some spotLongSettlementMethod
  settlementBlocker := none
  cohortKey := "alpha|momentum|BTC|directional_long|kraken|BTC/USD"

/-- A quote of the instrument half an hour before the horizon. -/
def halfHourQuote : MarketQuote :=
  ⟨"kraken", "BTC", .spot, "BTC/USD", 110, 1800000000⟩

/-- A cycle whose snapshot is completed after the horizon and lists only that quote. -/
def lateSnapshotInput : CertificationInput where
  run := 0
  collected := .ok ⟨"scan", 7200000000, [halfHourQuote], []⟩
  evidence _ := ⟨[], []⟩
  allocated := .error (.external "no plan")

/-- The trial is due after an hour and the scan completes after two, so it is settled at the one
    listed quote, whose price is from half an hour before the horizon. -/
theorem not_researchForward_hourLong :
    ¬ ∀ (R : Runtime) (input : CertificationInput) (totalCapitalUsd : ℚ) (s : CertificationTables)
        (alphaInput : AlphaInput) (ledger : AlphaEvidenceLedger),
      CertificationForward R input totalCapitalUsd s
        ∧ AlphaForward R.upper alphaInput ledger AlphaFactoryService.runEvidenceCycle
        ∧ AlphaForward R.upper alphaInput ledger ExpandedAlphaFactoryService.runEvidenceCycle := by
  intro h
  have hforward := (h Runtime.sample lateSnapshotInput 1 ⟨⟨[hourLong], []⟩, by simp⟩
    ⟨.error (.external "no snapshot"), .ok []⟩ ⟨[]⟩).1
  have hkey : hourLong.instrumentKey Runtime.sample.upper
      = some (halfHourQuote.key Runtime.sample.upper) := rfl
  have hpending : hourLong ∈ pendingSupportedTrials ⟨[hourLong], []⟩ 7200000000 := by
    simp [pendingSupportedTrials, CertificationStore.dueSupportedTrials,
      CertificationStore.completedTrialIds, hourLong]
  have hcomplete : CompleteEvidence Runtime.sample.upper
      ⟨"scan", 7200000000, [halfHourQuote], []⟩ hourLong ⟨[], []⟩ :=
    ⟨rfl, rfl, _, hkey, halfHourQuote, List.mem_singleton_self _, rfl⟩
  have hfresh := (certificationForward_iff Runtime.sample lateSnapshotInput 1 _).mp hforward
    one_pos _ rfl hourLong hpending hcomplete
  have hearly : (3600000000 : Instant) ≤ 1800000000 :=
    hfresh _ rfl _ hkey halfHourQuote ⟨[], [], rfl, rfl, by simp⟩
  exact absurd hearly (by decide)

end InefficiencyEngine.Research
