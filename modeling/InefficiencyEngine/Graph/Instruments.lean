import InefficiencyEngine.Graph.MarketGraph
import InefficiencyEngine.Lib.NewestWrite

namespace InefficiencyEngine.Graph

open Portfolio (Instant MarketKind Positive IntervalHours)

/-!
# The instruments of the market graph

The dictionary of instruments holds under each id what the quotes of that id make of it
(`get?_instruments`).  Its currency, expiry, price and funding rate are values that the newest
quote writes, all with the one `observed_at`; its names are those of a quote, its sources those of
all quotes, and the symbol of a source is the last listed market quote's, or else the first listed
funding quote's.
-/

variable (R : TextRuntime)

/-- The market quotes of an instrument. -/
def pricesOf (market : List MarketQuote) (id : String) : List MarketQuote :=
  market.filter (fun quote => quote.listing.instrumentId R = id)

/-- The funding quotes of an instrument. -/
def fundingOf (funding : List FundingQuote) (id : String) : List FundingQuote :=
  funding.filter (fun quote => quote.listing.instrumentId R = id)

/-- What the quotes of one instrument make of it. -/
def instrumentOf (prices : List MarketQuote) (funding : List FundingQuote) :
    Option CanonicalInstrument :=
  funding.foldl (fun found quote => some (fundingStep R found quote))
    (prices.foldl (fun found quote => some (priceStep R found quote)) none)

/-- The instruments after the loops. -/
def instrumentsDict (funding : List FundingQuote) (market : List MarketQuote) :
    Dict String CanonicalInstrument :=
  (placeFunding R (placePrices R .empty market) funding).instruments

section Dictionary

variable {R}

theorem instruments_placePrices (state : GraphState) (market : List MarketQuote) :
    (placePrices R state market).instruments
      = Dict.accumulate (fun quote => quote.listing.instrumentId R) (priceStep R)
          state.instruments market := by
  induction market generalizing state with
  | nil => rfl
  | cons quote rest ih => exact ih _

theorem instruments_placeFunding (state : GraphState) (funding : List FundingQuote) :
    (placeFunding R state funding).instruments
      = Dict.accumulate (fun quote => quote.listing.instrumentId R) (fundingStep R)
          state.instruments funding := by
  induction funding generalizing state with
  | nil => rfl
  | cons quote rest ih => exact ih _

/-- **The dictionary** holds under each id what the quotes of the id make of it. -/
theorem get?_instruments (funding : List FundingQuote) (market : List MarketQuote) (id : String) :
    (instrumentsDict R funding market).get? id
      = instrumentOf R (pricesOf R market id) (fundingOf R funding id) := by
  rw [instrumentsDict, instruments_placeFunding, Dict.get?_accumulate, instruments_placePrices,
    Dict.get?_accumulate]
  rfl

end Dictionary

/-! ### What the newest quote writes -/

/-- The values of a market quote. -/
def MarketQuote.latestPrice (quote : MarketQuote) : LatestPrice := ⟨quote.bid, quote.ask, quote.mid⟩

/-- The values of a funding quote. -/
def FundingQuote.latestFunding (quote : FundingQuote) : LatestFunding :=
  ⟨quote.rate, quote.intervalHours⟩

/-- `observed_at` of a market quote. -/
def MarketQuote.time (quote : MarketQuote) : Instant := quote.observedAt

/-- `observed_at` of a funding quote. -/
def FundingQuote.time (quote : FundingQuote) : Instant := quote.observedAt

section Written

variable {R} {prices : List MarketQuote} {funding : List FundingQuote}
  {instrument : CanonicalInstrument}

/-- An instrument before a listing: it is new, or older than the listing, or newer. -/
theorem ensureInstrument_cases (listing : Listing) (found : Option CanonicalInstrument) :
    (found = none ∧ ensureInstrument R listing found = .ofListing R listing)
    ∨ (∃ old, found = some old ∧ old.observedAt ≤ listing.observedAt
        ∧ ensureInstrument R listing found
          = { old with
              observedAt := listing.observedAt
              quoteCurrency := (listing.currency R).or old.quoteCurrency
              expiresAt := listing.expiresAt.or old.expiresAt })
    ∨ ∃ old, found = some old ∧ listing.observedAt < old.observedAt
        ∧ ensureInstrument R listing found = old := by
  cases found with
  | none =>
    refine Or.inl ⟨rfl, ?_⟩
    simp [ensureInstrument, CanonicalInstrument.ofListing]
  | some old =>
    refine Or.inr ?_
    rcases le_or_gt old.observedAt listing.observedAt with hle | hlt
    · exact Or.inl ⟨old, rfl, hle, by simp [ensureInstrument, hle]⟩
    · exact Or.inr ⟨old, rfl, hlt, by simp [ensureInstrument, not_le.mpr hlt]⟩

/-- A value that `ensure_instrument` writes. -/
theorem read_ensureInstrument {β : Type} (val : Listing → Option β)
    (read : CanonicalInstrument → Option β) (listing : Listing) (found : Option CanonicalInstrument)
    (hnew : read (.ofListing R listing) = val listing)
    (hold : ∀ old : CanonicalInstrument, read { old with
        observedAt := listing.observedAt
        quoteCurrency := (listing.currency R).or old.quoteCurrency
        expiresAt := listing.expiresAt.or old.expiresAt } = (val listing).or (read old)) :
    ((ensureInstrument R listing found).observedAt, read (ensureInstrument R listing found))
      = writeRow Listing.observedAt val
          (found.map (fun instrument => (instrument.observedAt, read instrument))) listing := by
  rcases ensureInstrument_cases (R := R) listing found with
    ⟨rfl, heq⟩ | ⟨old, rfl, hle, heq⟩ | ⟨old, rfl, hlt, heq⟩
  · rw [heq, hnew]
    rfl
  · rw [heq, hold, Option.map_some, writeRow_of_reaches (by simpa using hle)]
    rfl
  · rw [heq, Option.map_some, writeRow_of_lt hlt]

/-- The currency that the quotes of an instrument write. -/
theorem currency_instrumentOf :
    (instrumentOf R prices funding).map (fun i => (i.observedAt, i.quoteCurrency))
      = writeTwice MarketQuote.time (fun quote => quote.listing.currency R)
          FundingQuote.time (fun quote => quote.listing.currency R) prices funding := by
  rw [instrumentOf, map_foldl_eq_writeRows (fun found quote => ?_), map_foldl_eq_writeRows
    (fun found quote => ?_)]
  · rfl
  · exact read_ensureInstrument (Listing.currency R) CanonicalInstrument.quoteCurrency
      quote.listing found rfl (fun _ => rfl)
  · exact read_ensureInstrument (Listing.currency R) CanonicalInstrument.quoteCurrency
      quote.listing found rfl (fun _ => rfl)

/-- The expiry that the quotes of an instrument write. -/
theorem expiry_instrumentOf :
    (instrumentOf R prices funding).map (fun i => (i.observedAt, i.expiresAt))
      = writeTwice MarketQuote.time (fun quote => quote.listing.expiresAt)
          FundingQuote.time (fun quote => quote.listing.expiresAt) prices funding := by
  rw [instrumentOf, map_foldl_eq_writeRows (fun found quote => ?_), map_foldl_eq_writeRows
    (fun found quote => ?_)]
  · rfl
  · exact read_ensureInstrument Listing.expiresAt CanonicalInstrument.expiresAt quote.listing found
      rfl (fun _ => rfl)
  · exact read_ensureInstrument Listing.expiresAt CanonicalInstrument.expiresAt quote.listing found
      rfl (fun _ => rfl)

/-- A value that a quote writes after `ensure_instrument`, when the instrument has its time. -/
theorem written_ensureInstrument {β : Type} (read : CanonicalInstrument → Option β) (value : β)
    (listing : Listing) (found : Option CanonicalInstrument) :
    ((ensureInstrument R listing found).observedAt,
        if (ensureInstrument R listing found).observedAt = listing.observedAt then some value
        else read (ensureInstrument R listing found))
      = writeRow Listing.observedAt (fun _ => some value)
          (found.map (fun instrument => (instrument.observedAt, read instrument))) listing := by
  rcases ensureInstrument_cases (R := R) listing found with
    ⟨rfl, heq⟩ | ⟨old, rfl, hle, heq⟩ | ⟨old, rfl, hlt, heq⟩
  · have htime : (CanonicalInstrument.ofListing R listing).observedAt = listing.observedAt := rfl
    rw [heq, if_pos htime]
    rfl
  · rw [heq, if_pos rfl, Option.map_some, writeRow_of_reaches (by simpa using hle)]
    rfl
  · rw [heq, if_neg (ne_of_gt hlt), Option.map_some, writeRow_of_lt hlt]

/-- The price of an instrument is written by its market quotes. -/
theorem price_instrumentOf :
    (instrumentOf R prices funding).map (fun i => (i.observedAt, i.latestPrice))
      = writeTwice MarketQuote.time (fun quote => some quote.latestPrice)
          FundingQuote.time (fun _ => none) prices funding := by
  rw [instrumentOf, map_foldl_eq_writeRows (fun found quote => ?_), map_foldl_eq_writeRows
    (fun found quote => ?_)]
  · rfl
  · exact written_ensureInstrument CanonicalInstrument.latestPrice quote.latestPrice quote.listing
      found
  · exact read_ensureInstrument (fun _ => none) CanonicalInstrument.latestPrice quote.listing found
      rfl (fun _ => rfl)

/-- The funding rate of an instrument is written by its funding quotes. -/
theorem rate_instrumentOf :
    (instrumentOf R prices funding).map (fun i => (i.observedAt, i.latestFunding))
      = writeTwice MarketQuote.time (fun _ => none)
          FundingQuote.time (fun quote => some quote.latestFunding) prices funding := by
  rw [instrumentOf, map_foldl_eq_writeRows (fun found quote => ?_), map_foldl_eq_writeRows
    (fun found quote => ?_)]
  · rfl
  · exact read_ensureInstrument (fun _ => none) CanonicalInstrument.latestFunding quote.listing
      found rfl (fun _ => rfl)
  · exact written_ensureInstrument CanonicalInstrument.latestFunding quote.latestFunding
      quote.listing found

/-- What an instrument reads off is the value of its record. -/
theorem held_of_map {β : Type} {read : CanonicalInstrument → Option β}
    {record : Option (Instant × Option β)}
    (h : (instrumentOf R prices funding).map (fun i => (i.observedAt, read i)) = record)
    (hsome : instrumentOf R prices funding = some instrument) : held record = read instrument := by
  rw [hsome] at h
  rw [← h]
  rfl

/-! ### The price and the funding rate -/

/-- **The price** of an instrument is that of its newest market quote. -/
theorem latestPrice_of_newest {quote : MarketQuote}
    (hdistinct : prices.Pairwise (fun a b => a.time ≠ b.time))
    (hnewest : Newest MarketQuote.time prices quote)
    (hsome : instrumentOf R prices funding = some instrument) :
    instrument.latestPrice = some quote.latestPrice := by
  rw [← held_of_map price_instrumentOf hsome, writeTwice,
    held_writeRows_of_forall (fun _ _ _ => Or.inl rfl)]
  exact hnewest.held_writeRows hdistinct reaches_none rfl

/-- The funding rate of an instrument is that of its newest funding quote, when no market quote of
    it is newer. -/
theorem latestFunding_of_newest {quote : FundingQuote}
    (hdistinct : funding.Pairwise (fun a b => a.time ≠ b.time))
    (hnewest : Newest FundingQuote.time funding quote)
    (hfresh : ∀ price ∈ prices, price.time ≤ quote.time)
    (hsome : instrumentOf R prices funding = some instrument) :
    instrument.latestFunding = some quote.latestFunding := by
  rw [← held_of_map rate_instrumentOf hsome, writeTwice]
  exact hnewest.held_writeRows hdistinct (reaches_writeRows_none.mpr hfresh) rfl

/-- An instrument has no funding rate when every funding quote of it is older than some market
    quote. -/
theorem latestFunding_of_stale
    (hstale : ∀ quote ∈ funding, ∃ price ∈ prices, quote.time < price.time)
    (hsome : instrumentOf R prices funding = some instrument) : instrument.latestFunding = none := by
  rw [← held_of_map rate_instrumentOf hsome, writeTwice,
    held_writeRows_of_forall (fun quote hquote hreach => ?_),
    held_writeRows_of_forall (fun _ _ _ => Or.inl rfl), held_none]
  obtain ⟨price, hprice, hlt⟩ := hstale quote hquote
  exact absurd (reaches_writeRows_none.mp hreach price hprice) (not_le.mpr hlt)

/-- `observed_at` is the newest time of the quotes. -/
theorem observedAt_le_iff {t : Instant} (hsome : instrumentOf R prices funding = some instrument) :
    instrument.observedAt ≤ t
      ↔ (∀ price ∈ prices, price.time ≤ t) ∧ ∀ quote ∈ funding, quote.time ≤ t := by
  have hrecord : (instrumentOf R prices funding).map (fun i => (i.observedAt, i.latestPrice)) = _ :=
    price_instrumentOf
  rw [hsome, Option.map_some] at hrecord
  rw [← reaches_writeRows_none, ← reaches_writeRows]
  show _ ↔ Reaches (writeTwice MarketQuote.time (fun quote => some quote.latestPrice)
    FundingQuote.time (fun _ => none) prices funding) t
  rw [← hrecord, reaches_some]

end Written

/-! ### Names, sources and symbols -/

/-- An instrument has the names of a listing. -/
structure Named (listing : Listing) (instrument : CanonicalInstrument) : Prop where
  instrumentId : instrument.instrumentId = listing.instrumentId R
  assetId : instrument.assetId = canonicalAssetId R listing.asset
  venueId : instrument.venueId = canonicalVenueId R listing.venue
  venue : instrument.venue = listing.venue
  asset : instrument.asset = R.upper listing.asset
  marketKind : instrument.marketKind = listing.marketKind
  contractKey : instrument.contractKey = listing.key

/-- An instrument, if there is one, has the names of a listing. -/
def NamedIn (listings : List Listing) (found : Option CanonicalInstrument) : Prop :=
  ∀ instrument, found = some instrument → ∃ listing ∈ listings, Named R listing instrument

section Names

variable {R} {prices : List MarketQuote} {funding : List FundingQuote}
  {found : Option CanonicalInstrument} {instrument : CanonicalInstrument} {listings : List Listing}
  {listing : Listing}

/-- A listing names the instrument that it makes, and keeps the names of one that exists. -/
theorem NamedIn.ensureInstrument (h : NamedIn R listings found) (next : Listing) :
    ∃ listing ∈ listings ++ [next], Named R listing (ensureInstrument R next found) := by
  rcases ensureInstrument_cases (R := R) next found with
    ⟨-, heq⟩ | ⟨old, hold, -, heq⟩ | ⟨old, hold, -, heq⟩
  · refine ⟨next, by simp, ?_⟩
    rw [heq]
    exact ⟨rfl, rfl, rfl, rfl, rfl, rfl, rfl⟩
  · obtain ⟨listing, hlisting, h₁, h₂, h₃, h₄, h₅, h₆, h₇⟩ := h old hold
    refine ⟨listing, by simp [hlisting], ?_⟩
    rw [heq]
    exact ⟨h₁, h₂, h₃, h₄, h₅, h₆, h₇⟩
  · obtain ⟨listing, hlisting, hnamed⟩ := h old hold
    refine ⟨listing, by simp [hlisting], ?_⟩
    rw [heq]
    exact hnamed

theorem NamedIn.priceStep (h : NamedIn R listings found) (quote : MarketQuote) :
    NamedIn R (listings ++ [quote.listing]) (some (priceStep R found quote)) := by
  rintro instrument hsome
  obtain ⟨listing, hlisting, h₁, h₂, h₃, h₄, h₅, h₆, h₇⟩ := h.ensureInstrument quote.listing
  rw [← Option.some.inj hsome]
  exact ⟨listing, hlisting, h₁, h₂, h₃, h₄, h₅, h₆, h₇⟩

theorem NamedIn.fundingStep (h : NamedIn R listings found) (quote : FundingQuote) :
    NamedIn R (listings ++ [quote.listing]) (some (fundingStep R found quote)) := by
  rintro instrument hsome
  obtain ⟨listing, hlisting, h₁, h₂, h₃, h₄, h₅, h₆, h₇⟩ := h.ensureInstrument quote.listing
  rw [← Option.some.inj hsome]
  exact ⟨listing, hlisting, h₁, h₂, h₃, h₄, h₅, h₆, h₇⟩

/-- **Names.** An instrument has the names of one of its quotes. -/
theorem exists_named (hsome : instrumentOf R prices funding = some instrument) :
    ∃ listing ∈ prices.map MarketQuote.listing ++ funding.map FundingQuote.listing,
      Named R listing instrument := by
  have hprices : NamedIn R (prices.map MarketQuote.listing)
      (prices.foldl (fun found quote => some (priceStep R found quote)) none) := by
    refine foldl_invariant (P := fun seen => NamedIn R (seen.map MarketQuote.listing))
      (fun seen found quote h => ?_) prices (fun _ h => nomatch h)
    simpa using h.priceStep quote
  have hboth : NamedIn R (prices.map MarketQuote.listing ++ funding.map FundingQuote.listing)
      (instrumentOf R prices funding) := by
    refine foldl_invariant (P := fun seen => NamedIn R
      (prices.map MarketQuote.listing ++ seen.map FundingQuote.listing))
      (fun seen found quote h => ?_) funding (by simpa using hprices)
    simpa using h.fundingStep quote
  exact hboth instrument hsome

/-- An instrument exists as soon as one quote has its id. -/
theorem instrumentOf_eq_none_iff :
    instrumentOf R prices funding = none ↔ prices = [] ∧ funding = [] := by
  have hloop : ∀ {α : Type} (step : Option CanonicalInstrument → α → CanonicalInstrument)
      (xs : List α) (found : Option CanonicalInstrument),
      xs.foldl (fun found x => some (step found x)) found = none ↔ found = none ∧ xs = [] := by
    intro α step xs
    induction xs with
    | nil => simp
    | cons x rest ih => simp [ih]
  rw [instrumentOf, hloop, hloop]
  simp

end Names

/-- The sources of an instrument, if there is one. -/
def sourcesOf (found : Option CanonicalInstrument) : List String :=
  found.elim [] CanonicalInstrument.sources

/-- The symbols of an instrument, if there is one. -/
def symbolsOf (found : Option CanonicalInstrument) : Dict String String :=
  found.elim Dict.empty CanonicalInstrument.providerSymbols

/-- The symbol of a source: the last listed of its market quotes, or the first listed of its
    funding quotes. -/
def symbolOf (prices : List MarketQuote) (funding : List FundingQuote) (source : String) :
    Option String :=
  ((prices.filter (fun quote => quote.source = source)).getLast?.map (fun quote => quote.symbol)).or
    ((funding.filter (fun quote => quote.source = source)).head?.map (FundingQuote.symbolName R))

section Sources

variable {R} {prices : List MarketQuote} {funding : List FundingQuote}
  {instrument : CanonicalInstrument}

theorem mem_addSource {sources : List String} {source s : String} :
    s ∈ addSource sources source ↔ s ∈ sources ∨ source = s := by
  rw [addSource]
  split
  · rename_i hmem
    refine ⟨Or.inl, ?_⟩
    rintro (h | rfl)
    · exact h
    · exact hmem
  · simp [eq_comm]

/-- `ensure_instrument` does not touch sources and symbols. -/
theorem sources_ensureInstrument (listing : Listing) (found : Option CanonicalInstrument) :
    (ensureInstrument R listing found).sources = sourcesOf found
    ∧ (ensureInstrument R listing found).providerSymbols = symbolsOf found := by
  rcases ensureInstrument_cases (R := R) listing found with
    ⟨rfl, heq⟩ | ⟨old, rfl, -, heq⟩ | ⟨old, rfl, -, heq⟩
  · rw [heq]
    exact ⟨rfl, rfl⟩
  · rw [heq]
    exact ⟨rfl, rfl⟩
  · rw [heq]
    exact ⟨rfl, rfl⟩

/-- **Sources.** An instrument has the sources of its quotes. -/
theorem mem_sources (hsome : instrumentOf R prices funding = some instrument) {source : String} :
    source ∈ instrument.sources
      ↔ (∃ quote ∈ prices, quote.source = source) ∨ ∃ quote ∈ funding, quote.source = source := by
  have hprices : source ∈ sourcesOf
        (prices.foldl (fun found quote => some (priceStep R found quote)) none)
      ↔ ∃ quote ∈ prices, quote.source = source := by
    refine foldl_invariant (s := none) (P := fun seen found => source ∈ sourcesOf found
      ↔ ∃ quote ∈ seen, quote.source = source) (fun seen found quote h => ?_) prices
      (by simp [sourcesOf])
    show source ∈ addSource (ensureInstrument R quote.listing found).sources quote.source ↔ _
    rw [mem_addSource, (sources_ensureInstrument _ _).1, h]
    simp [or_and_right, exists_or]
  have hboth : source ∈ sourcesOf (instrumentOf R prices funding)
      ↔ (∃ quote ∈ prices, quote.source = source) ∨ ∃ quote ∈ funding, quote.source = source := by
    refine foldl_invariant (P := fun seen found => source ∈ sourcesOf found
      ↔ (∃ quote ∈ prices, quote.source = source) ∨ ∃ quote ∈ seen, quote.source = source)
      (fun seen found quote h => ?_) funding (by rw [hprices]; simp)
    show source ∈ addSource (ensureInstrument R quote.listing found).sources quote.source ↔ _
    rw [mem_addSource, (sources_ensureInstrument _ _).1, h]
    simp [or_and_right, exists_or, or_assoc]
  rw [hsome] at hboth
  exact hboth

/-- **Symbols.** The symbol of a source, as the loops leave it. The loop over the prices
    overwrites the symbol of a source and the one over the fundings sets it only if it is
    missing, so the last price decides and else the first funding. -/
theorem get?_providerSymbols (hsome : instrumentOf R prices funding = some instrument)
    (source : String) :
    instrument.providerSymbols.get? source = symbolOf R prices funding source := by
  -- after the prices: the symbol of the last one of the source
  have hprices : (symbolsOf
        (prices.foldl (fun found quote => some (priceStep R found quote)) none)).get? source
      = (prices.filter (fun quote => quote.source = source)).getLast?.map
          (fun quote => quote.symbol) := by
    refine foldl_invariant (P := fun (seen : List MarketQuote) found =>
      (symbolsOf found).get? source
        = (seen.filter (fun quote => quote.source = source)).getLast?.map
            (fun quote => quote.symbol)) (fun seen found quote h => ?_) prices rfl
    show ((ensureInstrument R quote.listing found).providerSymbols.set quote.source
      quote.symbol).get? source = _
    rw [(sources_ensureInstrument _ _).2, Dict.get?_set, List.filter_append]
    by_cases hsource : quote.source = source
    · simp [hsource]
    · simp [hsource, h]
  -- after the fundings: theirs only where no price has set one
  have hboth : (symbolsOf (instrumentOf R prices funding)).get? source
      = symbolOf R prices funding source := by
    refine foldl_invariant (P := fun (seen : List FundingQuote) found =>
      (symbolsOf found).get? source = symbolOf R prices seen source)
      (fun seen found quote h => ?_) funding (by rw [hprices]; simp [symbolOf])
    show ((ensureInstrument R quote.listing found).providerSymbols.setDefault quote.source
      (quote.symbolName R)).get? source = _
    rw [(sources_ensureInstrument _ _).2, symbolOf, List.filter_append]
    by_cases hsource : quote.source = source
    · subst hsource
      rw [Dict.get?_setDefault_self, h, symbolOf]
      cases (prices.filter (fun price => price.source = quote.source)).getLast? with
      | some price => rfl
      | none =>
        cases hseen : seen.filter (fun other => other.source = quote.source) with
        | nil => simp
        | cons first rest => simp
    · rw [Dict.get?_setDefault_of_ne _ _ hsource, h, symbolOf]
      simp [hsource]
  rw [hsome] at hboth
  exact hboth

end Sources

end InefficiencyEngine.Graph
