import InefficiencyEngine.Graph.Edges

namespace InefficiencyEngine.Graph

open Portfolio (Instant MarketKind Positive IntervalHours)

/-!
# The market graph as the newest view of the quotes

The graph should show for each instrument the values of its newest quotes, be the same for every
order of the quotes, and keep quotes of different instruments apart (`IsNewestView`).  It does so
exactly when the quotes are `Unambiguous`:

* nothing that a slug drops tells two instruments apart;
* the newest funding quote of an instrument is no older than its newest market quote, since an
  older one does not write the funding rate;
* the newest quote names the currency and the expiry, or no quote could write another one;
* the quotes of a source agree on the symbol.
-/

/-! ### The same graph -/

/-- Two instruments are the same, up to the order of sources and symbols. -/
structure SameInstrument (a b : CanonicalInstrument) : Prop where
  record : { a with providerSymbols := b.providerSymbols, sources := b.sources } = b
  symbols : ∀ source, a.providerSymbols.get? source = b.providerSymbols.get? source
  sources : ∀ source, source ∈ a.sources ↔ source ∈ b.sources

/-- Two graphs have the same time, instruments and edges. -/
structure SameGraph (a b : MarketGraphSnapshot) : Prop where
  observedAt : a.observedAt = b.observedAt
  instruments : List.Forall₂ SameInstrument a.instruments b.instruments
  edges : a.edges = b.edges

/-- An equivalence between two instruments, in either direction. -/
def Joins (edge : MarketGraphEdge) (left right : CanonicalInstrument) : Prop :=
  edge.relationship = .economicEquivalence
  ∧ (edge.sourceId = left.instrumentId ∧ edge.targetId = right.instrumentId
    ∨ edge.sourceId = right.instrumentId ∧ edge.targetId = left.instrumentId)

section Statements

variable (R : TextRuntime)

/-- Two listings are of one instrument. -/
structure SameListing (a b : Listing) : Prop where
  venue : a.venue = b.venue
  asset : R.upper a.asset = R.upper b.asset
  marketKind : a.marketKind = b.marketKind
  key : a.key = b.key

/-- Two listings are written alike: the slugs of venue and contract, the asset and the kind. -/
structure SameSlugs (a b : Listing) : Prop where
  venue : slug R a.venue = slug R b.venue
  asset : R.upper (R.strip a.asset) = R.upper (R.strip b.asset)
  marketKind : a.marketKind = b.marketKind
  key : slug R a.key = slug R b.key

/-- The graph is the newest view of the quotes, whatever their order. -/
structure IsNewestView (now : Instant) (funding : List FundingQuote) (market : List MarketQuote) :
    Prop where
  price : ∀ instrument ∈ (buildMarketGraph R now funding market).instruments, ∀ quote,
    Newest MarketQuote.time (pricesOf R market instrument.instrumentId) quote →
      instrument.latestPrice = some ⟨quote.bid, quote.ask, quote.mid⟩
  rate : ∀ instrument ∈ (buildMarketGraph R now funding market).instruments, ∀ quote,
    Newest FundingQuote.time (fundingOf R funding instrument.instrumentId) quote →
      instrument.latestFunding = some ⟨quote.rate, quote.intervalHours⟩
  stable : ∀ funding' market', funding'.Perm funding → market'.Perm market →
    SameGraph (buildMarketGraph R now funding' market') (buildMarketGraph R now funding market)
  edge : ∀ left ∈ (buildMarketGraph R now funding market).instruments,
    ∀ right ∈ (buildMarketGraph R now funding market).instruments,
      left.assetId = right.assetId → left.instrumentId ≠ right.instrumentId →
      ∃! edge, edge ∈ (buildMarketGraph R now funding market).edges ∧ Joins edge left right
  apart : ∀ a ∈ listings funding market, ∀ b ∈ listings funding market,
    a.instrumentId R = b.instrumentId R → SameListing R a b

/-- The quotes of a source agree on the symbol: the market quotes, or the funding quotes where
    there are no market quotes. -/
def OneSymbol (prices : List MarketQuote) (funding : List FundingQuote) : Prop :=
  (∀ a ∈ prices, ∀ b ∈ prices, a.source = b.source → a.symbol = b.symbol)
  ∧ ∀ a ∈ funding, ∀ b ∈ funding, a.source = b.source →
    (∀ price ∈ prices, price.source ≠ a.source) → a.symbolName R = b.symbolName R

/-- The quotes leave no choice. -/
structure Unambiguous (funding : List FundingQuote) (market : List MarketQuote) : Prop where
  names : ∀ a ∈ listings funding market, ∀ b ∈ listings funding market,
    SameSlugs R a b → SameListing R a b
  fresh : ∀ quote ∈ funding, ∃ newer ∈ funding,
    newer.listing.instrumentId R = quote.listing.instrumentId R
    ∧ ∀ price ∈ market, price.listing.instrumentId R = quote.listing.instrumentId R →
        price.time ≤ newer.time
  currency : ∀ id, SettledTwice MarketQuote.time (fun quote => quote.listing.currency R)
    FundingQuote.time (fun quote => quote.listing.currency R)
    (pricesOf R market id) (fundingOf R funding id)
  expiry : ∀ id, SettledTwice MarketQuote.time (fun quote => quote.listing.expiresAt)
    FundingQuote.time (fun quote => quote.listing.expiresAt)
    (pricesOf R market id) (fundingOf R funding id)
  symbols : ∀ id, OneSymbol R (pricesOf R market id) (fundingOf R funding id)

end Statements

/-! ### Orders of the quotes -/

/-- Some rows can be brought in any order by an order of all rows. -/
theorem exists_perm_filter {α : Type} {p : α → Bool} {rows part : List α}
    (h : part.Perm (rows.filter p)) :
    ∃ others : List α, others.Perm rows ∧ others.filter p = part := by
  refine ⟨part ++ rows.filter (fun a => ! p a), ?_, ?_⟩
  · exact (h.append_right _).trans (List.filter_append_perm p rows)
  · have hpart : part.filter p = part := by
      rw [List.filter_eq_self]
      intro a ha
      exact (List.mem_filter.mp (h.mem_iff.mp ha)).2
    have hrest : (rows.filter (fun a => ! p a)).filter p = [] := by
      simp [List.filter_filter]
    rw [List.filter_append, hpart, hrest, List.append_nil]

section Symbols

variable {R : TextRuntime} {prices prices' : List MarketQuote} {funding funding' : List FundingQuote}

theorem OneSymbol.of_perm (h : OneSymbol R prices funding) (hperm : prices'.Perm prices)
    (hperm' : funding'.Perm funding) : OneSymbol R prices' funding' := by
  refine ⟨fun a ha b hb => h.1 a (hperm.mem_iff.mp ha) b (hperm.mem_iff.mp hb), ?_⟩
  intro a ha b hb hsource hnone
  refine h.2 a (hperm'.mem_iff.mp ha) b (hperm'.mem_iff.mp hb) hsource (fun price hprice => ?_)
  exact hnone price (hperm.mem_iff.mpr hprice)

/-- The symbol of a source is that of any of its market quotes. -/
theorem OneSymbol.symbolOf_price (h : OneSymbol R prices funding) {price : MarketQuote}
    (hprice : price ∈ prices) : symbolOf R prices funding price.source = some price.symbol := by
  have hmem : price ∈ prices.filter (fun quote => quote.source = price.source) := by
    simpa using hprice
  have hlast := List.getLast?_eq_some_getLast (List.ne_nil_of_mem hmem)
  have hmem' := List.mem_filter.mp (List.mem_of_getLast? hlast)
  rw [symbolOf, hlast]
  exact congrArg some (h.1 _ hmem'.1 price hprice (by simpa using hmem'.2))

/-- The symbol of a source without market quotes is that of any of its funding quotes. -/
theorem OneSymbol.symbolOf_funding (h : OneSymbol R prices funding) {quote : FundingQuote}
    (hquote : quote ∈ funding) (hnone : ∀ price ∈ prices, price.source ≠ quote.source) :
    symbolOf R prices funding quote.source = some (quote.symbolName R) := by
  have hnil : prices.filter (fun price => price.source = quote.source) = [] := by
    rw [List.filter_eq_nil_iff]
    exact fun price hprice heq => hnone price hprice (of_decide_eq_true heq)
  have hmem : quote ∈ funding.filter (fun other => other.source = quote.source) := by
    simpa using hquote
  obtain ⟨first, hhead⟩ : ∃ first,
      (funding.filter (fun other => other.source = quote.source)).head? = some first :=
    ⟨_, List.head?_eq_some_head (List.ne_nil_of_mem hmem)⟩
  obtain ⟨hfirst, hsource⟩ := List.mem_filter.mp (List.mem_of_mem_head? hhead)
  have hsource : first.source = quote.source := of_decide_eq_true hsource
  rw [symbolOf, hnil, hhead]
  refine congrArg some (h.2 first hfirst quote hquote hsource (fun price hprice => ?_))
  rw [hsource]
  exact hnone price hprice

/-- A source without quotes has no symbol. -/
theorem symbolOf_eq_none {source : String} (hprices : ∀ price ∈ prices, price.source ≠ source)
    (hfunding : ∀ quote ∈ funding, quote.source ≠ source) :
    symbolOf R prices funding source = none := by
  have hnil : prices.filter (fun price => price.source = source) = [] := by
    simpa [List.filter_eq_nil_iff] using hprices
  have hnil' : funding.filter (fun quote => quote.source = source) = [] := by
    simpa [List.filter_eq_nil_iff] using hfunding
  rw [symbolOf, hnil, hnil']
  rfl

/-- **Symbols.** They are the same for every order exactly when the quotes of a source agree. -/
theorem oneSymbol_iff :
    OneSymbol R prices funding
      ↔ ∀ prices' funding', prices'.Perm prices → funding'.Perm funding → ∀ source,
          symbolOf R prices' funding' source = symbolOf R prices funding source := by
  constructor
  · intro h prices' funding' hperm hperm' source
    have h' := h.of_perm hperm hperm'
    by_cases hprice : ∃ price ∈ prices, price.source = source
    · obtain ⟨price, hmem, rfl⟩ := hprice
      rw [h.symbolOf_price hmem, h'.symbolOf_price (hperm.mem_iff.mpr hmem)]
    have hnone : ∀ price ∈ prices, price.source ≠ source := fun price hmem heq =>
      hprice ⟨price, hmem, heq⟩
    have hnone' : ∀ price ∈ prices', price.source ≠ source := fun price hmem =>
      hnone price (hperm.mem_iff.mp hmem)
    by_cases hquote : ∃ quote ∈ funding, quote.source = source
    · obtain ⟨quote, hmem, rfl⟩ := hquote
      rw [h.symbolOf_funding hmem hnone, h'.symbolOf_funding (hperm'.mem_iff.mpr hmem) hnone']
    have hempty : ∀ quote ∈ funding, quote.source ≠ source := fun quote hmem heq =>
      hquote ⟨quote, hmem, heq⟩
    rw [symbolOf_eq_none hnone hempty,
      symbolOf_eq_none hnone' (fun quote hmem => hempty quote (hperm'.mem_iff.mp hmem))]
  · intro h
    constructor
    · intro a ha b hb hsource
      -- the quote that is listed last has the symbol
      have hlast : ∀ q ∈ prices, q.source = a.source →
          symbolOf R prices funding a.source = some q.symbol := by
        intro q hq hqs
        obtain ⟨rest, hrest⟩ := exists_perm_cons hq
        have hperm : (rest ++ [q]).Perm prices := (List.perm_append_singleton q rest).trans hrest
        rw [← h _ funding hperm (List.Perm.refl _), symbolOf, List.filter_append]
        simp [hqs]
      have heq := (hlast a ha rfl).symm.trans (hlast b hb hsource.symm)
      exact Option.some.inj heq
    · intro a ha b hb hsource hnone
      have hnil : prices.filter (fun quote => quote.source = a.source) = [] := by
        rw [List.filter_eq_nil_iff]
        exact fun price hprice heq => hnone price hprice (of_decide_eq_true heq)
      have hfirst : ∀ q ∈ funding, q.source = a.source →
          symbolOf R prices funding a.source = some (q.symbolName R) := by
        intro q hq hqs
        obtain ⟨rest, hrest⟩ := exists_perm_cons hq
        rw [← h prices _ (List.Perm.refl _) hrest, symbolOf, hnil]
        simp [hqs]
      have heq := (hfirst a ha rfl).symm.trans (hfirst b hb hsource.symm)
      exact Option.some.inj heq

end Symbols

end InefficiencyEngine.Graph
