import InefficiencyEngine.Graph.Identity
import InefficiencyEngine.Lib.Accumulate
import Mathlib.Data.Int.Order.Basic

namespace InefficiencyEngine.Graph

open Portfolio (Instant MarketKind Positive IntervalHours)

/-!
# The market graph

`build_market_graph` reads market quotes and then funding quotes.  Each makes or updates the
instrument it names, which has one `observed_at` for both kinds of quote: a quote writes its values
when it is at least as new.  At the end all instruments of one asset are joined pairwise.
-/

/-! ### Quotes -/

/-- `MarketQuote`. A quote with the fields that identify its contract, besides those the
    portfolio reads. -/
structure MarketQuote extends Portfolio.MarketQuote where
  quoteCurrency : Option String
  contractKey : Option String
  expiresAt : Option Instant
  bid : Option Positive
  ask : Option Positive
  source : String

/-- `FundingQuote`. -/
structure FundingQuote extends Portfolio.FundingQuote where
  quoteCurrency : Option String
  contractKey : Option String
  source : String

/-- The arguments of `ensure_instrument`. -/
structure Listing where
  venue : String
  asset : String
  marketKind : MarketKind
  observedAt : Instant
  contractKey : Option String
  quoteCurrency : Option String
  expiresAt : Option Instant

/-- What a market quote says of its instrument. -/
def MarketQuote.listing (quote : MarketQuote) : Listing where
  venue := quote.venue
  asset := quote.asset
  marketKind := quote.marketKind
  observedAt := quote.observedAt
  contractKey := quote.contractKey
  quoteCurrency := quote.quoteCurrency
  expiresAt := quote.expiresAt

/-- What a funding quote says of its instrument, which is a perpetual. -/
def FundingQuote.listing (quote : FundingQuote) : Listing where
  venue := quote.venue
  asset := quote.asset
  marketKind := .perpetual
  observedAt := quote.observedAt
  contractKey := quote.contractKey
  quoteCurrency := quote.quoteCurrency
  expiresAt := none

/-- `quote.symbol or quote.asset.upper()`. -/
def FundingQuote.symbolName (R : TextRuntime) (quote : FundingQuote) : String :=
  (quote.symbol.filter (· ≠ "")).getD (R.upper quote.asset)

namespace Listing

variable (R : TextRuntime) (listing : Listing)

/-- The normalized contract key. -/
def key : String := normalizedContractKey listing.marketKind listing.contractKey

/-- `canonical_instrument_id`, of the normalized contract key. -/
def instrumentId : String :=
  canonicalInstrumentId R listing.venue listing.asset listing.marketKind (some listing.key)

/-- `quote_currency.upper() if quote_currency else None`. -/
def currency : Option String := (listing.quoteCurrency.filter (· ≠ "")).map R.upper

end Listing

/-! ### Instruments -/

/-- `latest_bid`, `latest_ask` and `latest_mid`, which are written together. -/
structure LatestPrice where
  bid : Option Positive
  ask : Option Positive
  mid : Positive

/-- `latest_funding_rate` and `funding_interval_hours`, which are written together. -/
structure LatestFunding where
  rate : ℚ
  intervalHours : IntervalHours

/-- `CanonicalInstrument`. One instrument: the quotes of its id folded into their newest price
    and rate. -/
structure CanonicalInstrument where
  instrumentId : String
  assetId : String
  venueId : String
  venue : String
  asset : String
  marketKind : MarketKind
  contractKey : String
  quoteCurrency : Option String
  expiresAt : Option Instant
  providerSymbols : Dict String String
  sources : List String
  observedAt : Instant
  latestPrice : Option LatestPrice
  latestFunding : Option LatestFunding

section Instruments

variable (R : TextRuntime)

/-- The instrument that a listing makes. -/
def CanonicalInstrument.ofListing (listing : Listing) : CanonicalInstrument where
  instrumentId := listing.instrumentId R
  assetId := canonicalAssetId R listing.asset
  venueId := canonicalVenueId R listing.venue
  venue := listing.venue
  asset := R.upper listing.asset
  marketKind := listing.marketKind
  contractKey := listing.key
  quoteCurrency := listing.currency R
  expiresAt := listing.expiresAt
  providerSymbols := Dict.empty
  sources := []
  observedAt := listing.observedAt
  latestPrice := none
  latestFunding := none

/-- `ensure_instrument`: the instrument of a listing, made or updated. -/
def ensureInstrument (listing : Listing) (found : Option CanonicalInstrument) :
    CanonicalInstrument :=
  let instrument := found.getD (.ofListing R listing)
  if instrument.observedAt ≤ listing.observedAt then
    { instrument with
      observedAt := listing.observedAt
      quoteCurrency := (listing.currency R).or instrument.quoteCurrency
      expiresAt := listing.expiresAt.or instrument.expiresAt }
  else instrument

/-- `if source not in sources: sources.append(source)`. -/
def addSource (sources : List String) (source : String) : List String :=
  if source ∈ sources then sources else sources ++ [source]

/-- The body of the loop over the market quotes, for the instrument of the quote. -/
def priceStep (found : Option CanonicalInstrument) (quote : MarketQuote) : CanonicalInstrument :=
  let instrument := ensureInstrument R quote.listing found
  { instrument with
    providerSymbols := instrument.providerSymbols.set quote.source quote.symbol
    sources := addSource instrument.sources quote.source
    latestPrice := if instrument.observedAt = quote.observedAt then
        some ⟨quote.bid, quote.ask, quote.mid⟩ else instrument.latestPrice }

/-- The body of the loop over the funding quotes, for the instrument of the quote. -/
def fundingStep (found : Option CanonicalInstrument) (quote : FundingQuote) : CanonicalInstrument :=
  let instrument := ensureInstrument R quote.listing found
  { instrument with
    providerSymbols := instrument.providerSymbols.setDefault quote.source (quote.symbolName R)
    sources := addSource instrument.sources quote.source
    latestFunding := if instrument.observedAt = quote.observedAt then
        some ⟨quote.rate, quote.intervalHours⟩ else instrument.latestFunding }

end Instruments

/-! ### The graph -/

/-- `CanonicalAsset`. -/
structure CanonicalAsset where
  assetId : String
  symbol : String

/-- `CanonicalVenue`. -/
structure CanonicalVenue where
  venueId : String
  name : String

/-- The metadata of an equivalence. -/
structure EquivalenceMetadata where
  assetId : String
  leftQuoteCurrency : Option String
  rightQuoteCurrency : Option String
  quoteCurrencyMatch : Bool
  deriving DecidableEq

/-- `MarketGraphEdge`; only an equivalence has metadata. -/
structure MarketGraphEdge where
  edgeId : String
  sourceId : String
  targetId : String
  relationship : GraphRelationship
  metadata : Option EquivalenceMetadata
  deriving DecidableEq

/-- `MarketGraphSnapshot`. The graph that one call builds, with the numbers of observations it
    was built from. -/
structure MarketGraphSnapshot where
  observedAt : Instant
  assets : List CanonicalAsset
  venues : List CanonicalVenue
  instruments : List CanonicalInstrument
  edges : List MarketGraphEdge
  priceObservationCount : ℕ
  fundingObservationCount : ℕ

/-- The dictionaries that the loops fill. -/
structure GraphState where
  assets : Dict String CanonicalAsset
  venues : Dict String CanonicalVenue
  instruments : Dict String CanonicalInstrument
  edges : Dict String MarketGraphEdge

/-- The state before the loops. -/
def GraphState.empty : GraphState := ⟨.empty, .empty, .empty, .empty⟩

/-- An edge without metadata. -/
def linkEdge (sourceId targetId : String) (relationship : GraphRelationship) : MarketGraphEdge :=
  ⟨edgeId sourceId targetId relationship, sourceId, targetId, relationship, none⟩

section Build

variable (R : TextRuntime)

/-- The edges of a listing: its venue lists the instrument, which represents the asset. -/
def Listing.links (listing : Listing) : List MarketGraphEdge :=
  [linkEdge (canonicalVenueId R listing.venue) (listing.instrumentId R) .lists,
    linkEdge (listing.instrumentId R) (canonicalAssetId R listing.asset) .represents]

/-- `edges.setdefault(edge_id, edge)`. -/
def storeLink (edges : Dict String MarketGraphEdge) (edge : MarketGraphEdge) :
    Dict String MarketGraphEdge := edges.setDefault edge.edgeId edge

/-- The loop body for a listing, with what becomes of its instrument. -/
def GraphState.place (state : GraphState) (listing : Listing)
    (step : Option CanonicalInstrument → CanonicalInstrument) : GraphState where
  assets := state.assets.setDefault (canonicalAssetId R listing.asset)
    ⟨canonicalAssetId R listing.asset, R.upper listing.asset⟩
  venues := state.venues.setDefault (canonicalVenueId R listing.venue)
    ⟨canonicalVenueId R listing.venue, listing.venue⟩
  instruments := state.instruments.set (listing.instrumentId R)
    (step (state.instruments.get? (listing.instrumentId R)))
  edges := (listing.links R).foldl storeLink state.edges

/-- `for quote in market_quotes`. -/
def placePrices (state : GraphState) (market : List MarketQuote) : GraphState :=
  market.foldl (fun state quote =>
    state.place R quote.listing (fun found => priceStep R found quote)) state

/-- `for quote in funding_quotes`. -/
def placeFunding (state : GraphState) (funding : List FundingQuote) : GraphState :=
  funding.foldl (fun state quote =>
    state.place R quote.listing (fun found => fundingStep R found quote)) state

/-- The edge between two instruments of an asset. -/
def equivalenceEdge (assetId : String) (left right : CanonicalInstrument) : MarketGraphEdge where
  edgeId := edgeId left.instrumentId right.instrumentId .economicEquivalence
  sourceId := left.instrumentId
  targetId := right.instrumentId
  relationship := .economicEquivalence
  metadata := some
    { assetId := assetId
      leftQuoteCurrency := left.quoteCurrency
      rightQuoteCurrency := right.quoteCurrency
      quoteCurrencyMatch := left.quoteCurrency = none ∨ right.quoteCurrency = none
        ∨ left.quoteCurrency = right.quoteCurrency }

/-- Each element with each later one. -/
def orderedPairs {α : Type} : List α → List (α × α)
  | [] => []
  | left :: rest => rest.map (fun right => (left, right)) ++ orderedPairs rest

/-- The edges between the instruments, asset by asset. -/
def equivalenceEdges (instruments : List CanonicalInstrument) : List MarketGraphEdge :=
  (Dict.group CanonicalInstrument.assetId instruments).items.flatMap (fun item =>
    (orderedPairs (sortOn CanonicalInstrument.instrumentId item.2)).map
      (fun pair => equivalenceEdge item.1 pair.1 pair.2))

/-- `edges[edge_id] = edge`. -/
def storeEdge (edges : Dict String MarketGraphEdge) (edge : MarketGraphEdge) :
    Dict String MarketGraphEdge := edges.set edge.edgeId edge

/-- `build_market_graph`; an empty graph is observed now. -/
def buildMarketGraph (now : Instant) (funding : List FundingQuote) (market : List MarketQuote) :
    MarketGraphSnapshot :=
  let state := placeFunding R (placePrices R .empty market) funding
  let edges := (equivalenceEdges state.instruments.values).foldl storeEdge state.edges
  let observedTimes := market.map (fun quote => quote.observedAt)
    ++ funding.map (fun quote => quote.observedAt)
  { observedAt := observedTimes.max?.getD now
    assets := sortOn CanonicalAsset.assetId state.assets.values
    venues := sortOn CanonicalVenue.venueId state.venues.values
    instruments := sortOn CanonicalInstrument.instrumentId state.instruments.values
    edges := sortOn MarketGraphEdge.edgeId edges.values
    priceObservationCount := market.length
    fundingObservationCount := funding.length }

end Build

end InefficiencyEngine.Graph
