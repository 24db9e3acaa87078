import InefficiencyEngine.Lib.BoundedRead
import InefficiencyEngine.Mechanism.Executable
import InefficiencyEngine.Mechanism.Sample
import InefficiencyEngine.Mechanism.Sources

namespace InefficiencyEngine.Mechanism

open Portfolio

/-!
# What the bounded reads of settlement evidence hide

The settlement paths read the evidence tables with a limit and pick the rows of their instrument
out of what they have read.  For each of these reads there is a key, which the query filters by, a
test, which the code makes afterwards, and the rows that are wanted.  The lemmas say exactly when
the read finds what is in the table: when few enough rows of the same key come first.
-/

section Reads

variable (R : MechanismRuntime) (evidence : StoredEvidence)

/-! ### Market quotes -/

/-- What the query of `_quote_after` filters by. -/
def quoteKey (venue asset : String) (dueAt : Instant) (row : MarketQuote) : Bool :=
  row.venue = venue && row.asset = R.upper asset && dueAt ≤ row.observedAt

/-- What `_quote_after` tests afterwards. -/
def quoteTest (marketKind symbol : Option String) (quote : MarketQuote) : Bool :=
  marketKind.all (fun kind => quote.marketKind.value = kind)
    && symbol.all (fun text => quote.symbol = text)

/-- A quote is stored under the asset, as it is given or in upper case. -/
def underAsset (asset : String) (row : MarketQuote) : Bool :=
  row.asset = asset || row.asset = R.upper asset

/-- A stored quote of the venue, asset, market kind and symbol from an instant on. -/
def isQuoteOf (venue asset : String) (dueAt : Instant) (marketKind symbol : Option String)
    (row : MarketQuote) : Bool :=
  row.venue = venue && underAsset R asset row && dueAt ≤ row.observedAt
    && quoteTest marketKind symbol row

/-- The first such quote is stored under the upper-case asset, and fewer than two hundred rows that
    the query selects come before it. -/
def QuoteRead (venue asset : String) (dueAt : Instant) (marketKind symbol : Option String) : Prop :=
  ∀ row, evidence.marketQuotes.find? (isQuoteOf R venue asset dueAt marketKind symbol) = some row →
    row.asset = R.upper asset
      ∧ (beforeFirst (isQuoteOf R venue asset dueAt marketKind symbol)
          evidence.marketQuotes).countP (quoteKey R venue asset dueAt) < 200

/-- **A quote after an instant.** -/
theorem quoteAfter_eq_find?_iff (venue asset : String) (dueAt : Instant)
    (marketKind symbol : Option String) :
    evidence.quoteAfter R venue asset dueAt marketKind symbol
        = evidence.marketQuotes.find? (isQuoteOf R venue asset dueAt marketKind symbol)
      ↔ QuoteRead R evidence venue asset dueAt marketKind symbol := by
  have hread : evidence.quoteAfter R venue asset dueAt marketKind symbol
      = ((evidence.marketQuotes.filter (quoteKey R venue asset dueAt)).take 200).find?
          (quoteTest marketKind symbol) := rfl
  rw [hread, find?_bounded_eq_find?_iff, QuoteRead]
  · refine forall_congr' fun row => forall_congr' fun hrow => ?_
    have hwanted := List.find?_some hrow
    simp only [isQuoteOf, quoteKey, Bool.and_eq_true, decide_eq_true_eq] at hwanted ⊢
    constructor
    · rintro ⟨⟨⟨-, hasset⟩, -⟩, -, hcount⟩
      exact ⟨hasset, hcount⟩
    · rintro ⟨hasset, hcount⟩
      exact ⟨⟨⟨hwanted.1.1.1, hasset⟩, hwanted.1.2⟩, hwanted.2, hcount⟩
  · intro row hkey htest
    simp only [isQuoteOf, quoteKey, underAsset, Bool.and_eq_true, Bool.or_eq_true,
      decide_eq_true_eq] at hkey ⊢
    exact ⟨⟨⟨hkey.1.1, .inr hkey.1.2⟩, hkey.2⟩, htest⟩

/-- What the query of `_any_spot_quote_after` filters by. -/
def spotKey (asset : String) (dueAt : Instant) (row : MarketQuote) : Bool :=
  row.asset = R.upper asset && dueAt ≤ row.observedAt

/-- A stored spot quote of the asset from an instant on; its price is positive. -/
def isSpotQuoteOf (asset : String) (dueAt : Instant) (row : MarketQuote) : Bool :=
  underAsset R asset row && dueAt ≤ row.observedAt && row.marketKind = .spot

/-- The first such quote is stored under the upper-case asset, and fewer than five hundred rows that
    the query selects come before it. -/
def SpotRead (asset : String) (dueAt : Instant) : Prop :=
  ∀ row, evidence.marketQuotes.find? (isSpotQuoteOf R asset dueAt) = some row →
    row.asset = R.upper asset
      ∧ (beforeFirst (isSpotQuoteOf R asset dueAt) evidence.marketQuotes).countP
          (spotKey R asset dueAt) < 500

/-- **Any spot quote after an instant.** -/
theorem anySpotQuoteAfter_eq_find?_iff (asset : String) (dueAt : Instant) :
    anySpotQuoteAfter R evidence asset dueAt
        = evidence.marketQuotes.find? (isSpotQuoteOf R asset dueAt)
      ↔ SpotRead R evidence asset dueAt := by
  have hread : anySpotQuoteAfter R evidence asset dueAt
      = ((evidence.marketQuotes.filter (spotKey R asset dueAt)).take 500).find?
          (fun quote => quote.marketKind = .spot) := rfl
  rw [hread, find?_bounded_eq_find?_iff, SpotRead]
  · refine forall_congr' fun row => forall_congr' fun hrow => ?_
    have hwanted := List.find?_some hrow
    simp only [isSpotQuoteOf, spotKey, Bool.and_eq_true, decide_eq_true_eq] at hwanted ⊢
    constructor
    · rintro ⟨⟨hasset, -⟩, -, hcount⟩
      exact ⟨hasset, hcount⟩
    · rintro ⟨hasset, hcount⟩
      exact ⟨⟨hasset, hwanted.1.2⟩, hwanted.2, hcount⟩
  · intro row hkey htest
    simp only [isSpotQuoteOf, spotKey, underAsset, Bool.and_eq_true, Bool.or_eq_true,
      decide_eq_true_eq] at hkey htest ⊢
    exact ⟨⟨.inr hkey.1, hkey.2⟩, htest⟩

/-! ### Option capacity -/

section Capacity

variable (contract : OptionContract) (stop : Instant) (maxAgeMinutes : ℚ)

/-- What the query of `OptionCapacityLedger.latest` filters by. -/
def capacityKey (row : OptionCapacityObservation) : Bool :=
  row.venue = contract.venue && row.underlying = R.upper contract.underlying
    && row.expiry = contract.expiry && row.optionType = contract.optionType
    && row.observedAt ≤ stop
    && stop - timedeltaHours (max (1 / 10) maxAgeMinutes / 60) ≤ row.observedAt

/-- What `latest` tests afterwards. -/
def strikeTest (row : OptionCapacityObservation) : Bool :=
  |(row.strike : ℚ) - contract.strike| ≤ max (1 / 10 ^ 9) (|contract.strike| * (1 / 10 ^ 9))

/-- `OptionCapacityLedger.latest`. -/
def latestCapacityWithin (rows : List OptionCapacityObservation) :
    Option OptionCapacityObservation :=
  ((rows.reverse.filter (capacityKey R contract stop maxAgeMinutes)).take 50).find?
    (strikeTest contract)

/-- A stored observation of exactly the contract in the window. -/
def isCapacityOf (row : OptionCapacityObservation) : Bool :=
  capacityKey R contract stop maxAgeMinutes row && (row.strike : ℚ) = contract.strike

/-- The newest observation of the contract, if there is one, has no newer one of the window whose
    strike is another within the tolerance, and fewer than fifty rows that the query selects are
    newer. -/
def CapacityRead (rows : List OptionCapacityObservation) : Prop :=
  (rows.reverse.find? (isCapacityOf R contract stop maxAgeMinutes)).isSome →
    (∀ newer ∈ beforeFirst (isCapacityOf R contract stop maxAgeMinutes) rows.reverse,
        ¬ (capacityKey R contract stop maxAgeMinutes newer = true
          ∧ strikeTest contract newer = true))
      ∧ (beforeFirst (isCapacityOf R contract stop maxAgeMinutes) rows.reverse).countP
          (capacityKey R contract stop maxAgeMinutes) < 50

/-- The newest observation of exactly the contract is returned whenever there is one. -/
def LatestFound (rows : List OptionCapacityObservation) : Prop :=
  ∀ row, rows.reverse.find? (isCapacityOf R contract stop maxAgeMinutes) = some row →
    latestCapacityWithin R contract stop maxAgeMinutes rows = some row

/-- **The latest capacity of a contract.** -/
theorem latestFound_iff (rows : List OptionCapacityObservation) :
    LatestFound R contract stop maxAgeMinutes rows
      ↔ CapacityRead R contract stop maxAgeMinutes rows := by
  have hwant : ∀ row, isCapacityOf R contract stop maxAgeMinutes row = true →
      capacityKey R contract stop maxAgeMinutes row = true ∧ strikeTest contract row = true := by
    intro row hrow
    rw [isCapacityOf, Bool.and_eq_true, decide_eq_true_iff] at hrow
    refine ⟨hrow.1, decide_eq_true ?_⟩
    rw [hrow.2, sub_self, abs_zero]
    exact le_max_of_le_left (by norm_num)
  rw [LatestFound, CapacityRead]
  constructor
  · intro h hsome
    obtain ⟨row, hrow⟩ := Option.isSome_iff_exists.mp hsome
    exact (find?_bounded_eq_some_iff hwant hrow).mp (h row hrow)
  · intro h row hrow
    exact (find?_bounded_eq_some_iff hwant hrow).mpr (h (by rw [hrow]; rfl))

end Capacity

/-! ### Trades and opportunities -/

section Windows

variable (trial : MechanismForwardTrial)

/-- What the query of `_trades_between` filters by. -/
def tradeKey (event : SourceEventObservation) : Bool :=
  event.laneId = "liquidity_provision" && event.eventType = "public_trade"
    && trial.sourceObservedAt ≤ event.eventAt && event.eventAt ≤ trial.dueAt

/-- The trade is one of the instrument of a maker trial. -/
def isMakerTrade (payload : MakerPayload) (event : SourceEventObservation) : Bool :=
  R.upper event.assetText = R.upper (textOr payload.asset trial.asset)
    && event.payload.venue = payload.venue && event.payload.symbol = payload.symbol

/-- **The trades of a maker trial** are all of its instrument in the window exactly when none of
    them is behind the five thousandth public trade of the window. -/
theorem makerTrades_eq_filter_iff (payload : MakerPayload) :
    makerTrades R evidence trial payload
        = evidence.events.filter (fun event =>
            tradeKey trial event && isMakerTrade R trial payload event)
      ↔ ∀ event ∈ (evidence.events.filter (tradeKey trial)).drop 5000,
          ¬ isMakerTrade R trial payload event = true :=
  filter_bounded_eq_iff

/-- What the query of `_settle_location` filters by. -/
def opportunityKey (row : StoredOpportunity) : Bool :=
  trial.sourceObservedAt < row.observedAt && row.observedAt ≤ trial.dueAt

/-- The opportunity is a positive one of the asset with a leg at the venue of a location trial. -/
def isLocationOpportunity (payload : LocationPayload) (row : StoredOpportunity) : Bool :=
  R.upper row.asset = R.upper (textOr payload.asset trial.asset) && 0 < row.netAnnualizedReturn
    && row.legVenues.any (fun venue => venue = payload.venue)

/-- **The opportunities of a location trial** are all of its location in the window exactly when
    none of them is behind the five thousandth opportunity of the window. -/
theorem locationOpportunities_eq_filter_iff (payload : LocationPayload) :
    locationOpportunities R evidence trial payload
        = evidence.opportunities.filter (fun row =>
            opportunityKey trial row && isLocationOpportunity R trial payload row)
      ↔ ∀ row ∈ (evidence.opportunities.filter (opportunityKey trial)).drop 5000,
          ¬ isLocationOpportunity R trial payload row = true :=
  filter_bounded_eq_iff

end Windows

/-! ### Together -/

/-- **Bounded reads.** For every content of the tables: the quote after an instant is the first
    stored one of its venue, asset, market kind and symbol, any spot quote after an instant is the
    first stored one of its asset, the latest capacity is the newest stored one of exactly its
    contract whenever there is one, and the trades and opportunities a settlement uses are all the
    stored ones of its instrument in the window, each exactly when the rows of the same key leave
    room for it below the limit of its query. -/
theorem boundedReads_iff :
    (∀ venue asset dueAt marketKind symbol,
      evidence.quoteAfter R venue asset dueAt marketKind symbol
          = evidence.marketQuotes.find? (isQuoteOf R venue asset dueAt marketKind symbol)
        ↔ QuoteRead R evidence venue asset dueAt marketKind symbol)
    ∧ (∀ asset dueAt,
        anySpotQuoteAfter R evidence asset dueAt
            = evidence.marketQuotes.find? (isSpotQuoteOf R asset dueAt)
          ↔ SpotRead R evidence asset dueAt)
    ∧ (∀ contract stop maxAgeMinutes rows,
        LatestFound R contract stop maxAgeMinutes rows
          ↔ CapacityRead R contract stop maxAgeMinutes rows)
    ∧ (∀ trial payload,
        makerTrades R evidence trial payload
            = evidence.events.filter (fun event =>
                tradeKey trial event && isMakerTrade R trial payload event)
          ↔ ∀ event ∈ (evidence.events.filter (tradeKey trial)).drop 5000,
              ¬ isMakerTrade R trial payload event = true)
    ∧ (∀ trial payload,
        locationOpportunities R evidence trial payload
            = evidence.opportunities.filter (fun row =>
                opportunityKey trial row && isLocationOpportunity R trial payload row)
          ↔ ∀ row ∈ (evidence.opportunities.filter (opportunityKey trial)).drop 5000,
              ¬ isLocationOpportunity R trial payload row = true) :=
  ⟨quoteAfter_eq_find?_iff R evidence, anySpotQuoteAfter_eq_find?_iff R evidence,
    latestFound_iff R, makerTrades_eq_filter_iff R evidence,
    locationOpportunities_eq_filter_iff R evidence⟩

end Reads

/-- Two hundred spot quotes and then one of the perpetual. -/
def crowdedQuotes : StoredEvidence :=
  { StoredEvidence.empty with
    marketQuotes := (List.range 200).map (fun i : ℕ => spotQuote 100 (i : ℤ))
      ++ [⟨"kraken", "BTC", .perpetual, "BTC-PERP", 100, 200⟩] }

/-- The perpetual is stored behind two hundred spot quotes of its asset, and no quote of it is
    found. -/
theorem quoteAfter_crowdedQuotes :
    crowdedQuotes.quoteAfter .sample "kraken" "BTC" 0 (some "perpetual") (some "BTC-PERP") = none
      ∧ ∃ row ∈ crowdedQuotes.marketQuotes,
          isQuoteOf .sample "kraken" "BTC" 0 (some "perpetual") (some "BTC-PERP") row = true := by
  constructor
  · have hnone : (crowdedQuotes.quoteAfter .sample "kraken" "BTC" 0 (some "perpetual")
        (some "BTC-PERP")).isNone = true := by
      decide +kernel
    exact Option.isNone_iff_eq_none.mp hnone
  · exact ⟨_, List.mem_append_right _ (List.mem_singleton_self _), by decide⟩

end InefficiencyEngine.Mechanism
