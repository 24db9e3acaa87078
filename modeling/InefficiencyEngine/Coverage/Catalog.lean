import Mathlib.Algebra.Order.Ring.Rat

namespace InefficiencyEngine.Coverage

/-!
# The source catalog

The lanes with the evidence classes they require, the sources with the lanes they serve, and how
long evidence of a class stays fresh (`source_coverage_catalog.py`, `evidence_velocity.py`).
-/

/-- An entry of `LANES`. -/
structure LaneDefinition where
  laneId : String
  required : List String
  deriving DecidableEq

/-- The `table` of a source: a table, and the column and value that select its rows. -/
structure TableProbe where
  table : String
  column : Option String
  value : Option String
  deriving DecidableEq

/-- An entry of `SOURCES`. -/
structure SourceSpec where
  sourceId : String
  name : String
  lanes : List String
  classes : List String
  group : String
  tier : String
  provider : List String := []
  table : Option TableProbe := none
  authoritative : Bool := true
  credential : Option String := none
  enabledEnv : Option String := none
  active : Bool := true

/-- `LANES`. The lanes in the order of the catalogue, each with the classes of evidence it
    needs. -/
def lanes : List LaneDefinition :=
  [ { laneId := "price_discrepancy", required := ["market_quotes", "executable_depth"] },
    { laneId := "carry", required := ["market_quotes", "funding_or_basis", "executable_depth"] },
    { laneId := "yield", required := ["yield_rate", "capacity", "exit_liquidity"] },
    { laneId := "liquidity_provision", required := ["order_book", "trade_flow"] },
    { laneId := "trend_momentum", required := ["market_history", "execution_costs"] },
    { laneId := "mean_reversion", required := ["market_history", "execution_costs"] },
    { laneId := "fundamental_onchain", required := ["chain_activity", "protocol_fundamentals"] },
    { laneId := "cross_sectional_relative_value"
      required := ["multi_asset_market_history", "execution_costs"] },
    { laneId := "volatility"
      required := ["option_quotes", "option_greeks", "option_depth", "option_capacity"] },
    { laneId := "event_driven", required := ["timestamped_events", "event_identity"] },
    { laneId := "microstructure", required := ["order_book", "trade_flow"] },
    { laneId := "liquidation_distress", required := ["liquidation_events", "distress_state"] },
    { laneId := "capital_location_settlement"
      required := ["venue_opportunity_history", "transfer_costs", "transfer_latency"] } ]

/-- `SOURCES`. Where the evidence of the lanes comes from: the classes a source can bring, the
    group it counts in for redundancy, and the table or the runtime its rows are read from. -/
def sources : List SourceSpec :=
  [ { sourceId := "coinbase-market", name := "Coinbase market data"
      lanes := ["price_discrepancy", "trend_momentum", "mean_reversion",
        "cross_sectional_relative_value"]
      classes := ["market_quotes", "market_history", "multi_asset_market_history",
        "execution_costs"]
      group := "coinbase", tier := "first_party"
      provider := ["coinbase-exchange:ticker"]
      table := some ⟨"market_quotes", some "venue", some "Coinbase"⟩ },
    { sourceId := "bybit-market", name := "Bybit market data"
      lanes := ["price_discrepancy", "carry", "trend_momentum", "mean_reversion",
        "cross_sectional_relative_value"]
      classes := ["market_quotes", "market_history", "multi_asset_market_history",
        "execution_costs"]
      group := "bybit", tier := "first_party"
      provider := ["bybit-v5:market-snapshot"]
      table := some ⟨"market_quotes", some "venue", some "Bybit"⟩
      enabledEnv := some "CIE_BYBIT_PUBLIC_ENABLED" },
    { sourceId := "kraken-market", name := "Kraken market data"
      lanes := ["price_discrepancy", "trend_momentum", "mean_reversion",
        "cross_sectional_relative_value"]
      classes := ["market_quotes", "market_history", "multi_asset_market_history",
        "execution_costs"]
      group := "kraken", tier := "first_party"
      provider := ["kraken:PreTrade"]
      table := some ⟨"market_quotes", some "venue", some "Kraken"⟩ },
    { sourceId := "okx-market", name := "OKX market data"
      lanes := ["price_discrepancy", "carry", "trend_momentum", "mean_reversion",
        "cross_sectional_relative_value"]
      classes := ["market_quotes", "market_history", "multi_asset_market_history",
        "execution_costs"]
      group := "okx", tier := "first_party"
      provider := ["okx-v5:market:ticker"]
      table := some ⟨"market_quotes", some "venue", some "OKX"⟩ },
    { sourceId := "hyperliquid-market", name := "Hyperliquid market data"
      lanes := ["price_discrepancy", "carry", "trend_momentum", "mean_reversion",
        "cross_sectional_relative_value"]
      classes := ["market_quotes", "market_history", "multi_asset_market_history",
        "execution_costs"]
      group := "hyperliquid", tier := "first_party"
      provider := ["hyperliquid:metaAndAssetCtxs"]
      table := some ⟨"market_quotes", some "venue", some "HlPerp"⟩ },
    { sourceId := "coinbase-l2", name := "Coinbase visible L2"
      lanes := ["price_discrepancy", "carry", "liquidity_provision", "microstructure"]
      classes := ["executable_depth", "order_book"]
      group := "coinbase", tier := "first_party"
      provider := ["coinbase-exchange:book-level2"]
      table := some ⟨"order_books", some "venue", some "Coinbase"⟩ },
    { sourceId := "bybit-l2", name := "Bybit visible L2"
      lanes := ["price_discrepancy", "carry", "liquidity_provision", "microstructure"]
      classes := ["executable_depth", "order_book"]
      group := "bybit", tier := "first_party"
      provider := ["bybit-v5:orderbook"]
      table := some ⟨"order_books", some "venue", some "Bybit"⟩
      enabledEnv := some "CIE_BYBIT_PUBLIC_ENABLED" },
    { sourceId := "okx-l2", name := "OKX visible L2"
      lanes := ["price_discrepancy", "carry", "liquidity_provision", "microstructure"]
      classes := ["executable_depth", "order_book"]
      group := "okx", tier := "first_party"
      provider := ["okx-v5:market:books"]
      table := some ⟨"order_books", some "venue", some "OKX"⟩ },
    { sourceId := "hyperliquid-l2", name := "Hyperliquid visible L2"
      lanes := ["price_discrepancy", "carry", "liquidity_provision", "microstructure"]
      classes := ["executable_depth", "order_book"]
      group := "hyperliquid", tier := "first_party"
      provider := ["hyperliquid:l2Book"]
      table := some ⟨"order_books", some "venue", some "HlPerp"⟩ },
    { sourceId := "bybit-funding", name := "Bybit funding"
      lanes := ["carry"]
      classes := ["funding_or_basis"]
      group := "bybit", tier := "first_party"
      provider := ["bybit-v5:market-snapshot"]
      table := some ⟨"funding_quotes", some "venue", some "Bybit"⟩
      enabledEnv := some "CIE_BYBIT_PUBLIC_ENABLED" },
    { sourceId := "okx-funding", name := "OKX funding"
      lanes := ["carry"]
      classes := ["funding_or_basis"]
      group := "okx", tier := "first_party"
      provider := ["okx-v5:public:funding-rate"]
      table := some ⟨"funding_quotes", some "venue", some "OKX"⟩ },
    { sourceId := "hyperliquid-funding", name := "Hyperliquid funding"
      lanes := ["carry"]
      classes := ["funding_or_basis"]
      group := "hyperliquid", tier := "first_party"
      provider := ["hyperliquid:predictedFundings"]
      table := some ⟨"funding_quotes", some "venue", some "HlPerp"⟩ },
    { sourceId := "lido-yield", name := "Lido stETH APR"
      lanes := ["yield"]
      classes := ["yield_rate"]
      group := "lido", tier := "protocol_native"
      provider := ["lido:steth-apr-sma"] },
    { sourceId := "morpho-markets", name := "Morpho markets"
      lanes := ["yield", "fundamental_onchain"]
      classes := ["yield_rate", "capacity", "exit_liquidity", "protocol_fundamentals"]
      group := "morpho", tier := "protocol_native" },
    { sourceId := "aave-liquidations", name := "Aave V3 LiquidationCall logs"
      lanes := ["liquidation_distress"]
      classes := ["liquidation_events"]
      group := "aave", tier := "protocol_native" },
    { sourceId := "bybit-catalog", name := "Bybit instrument catalog"
      lanes := ["event_driven"]
      classes := ["timestamped_events", "event_identity"]
      group := "bybit", tier := "first_party"
      provider := ["bybit-v5:instrument-catalog"]
      enabledEnv := some "CIE_BYBIT_PUBLIC_ENABLED" },
    { sourceId := "coinbase-catalog", name := "Coinbase product catalog"
      lanes := ["event_driven"]
      classes := ["timestamped_events", "event_identity"]
      group := "coinbase", tier := "first_party"
      provider := ["coinbase-exchange:product-catalog"] },
    { sourceId := "snapshot-governance", name := "Snapshot governance"
      lanes := ["event_driven"]
      classes := ["timestamped_events", "event_identity"]
      group := "snapshot", tier := "first_party" },
    { sourceId := "tokenomist-unlocks", name := "Tokenomist unlock calendar"
      lanes := ["event_driven", "fundamental_onchain"]
      classes := ["timestamped_events", "event_identity", "protocol_fundamentals"]
      group := "tokenomist", tier := "secondary"
      authoritative := false
      credential := some "CIE_TOKENOMIST_API_KEY" },
    { sourceId := "ethereum-publicnode", name := "Ethereum finalized RPC"
      lanes := ["fundamental_onchain"]
      classes := ["chain_activity"]
      group := "ethereum-rpc", tier := "protocol_native"
      provider := ["ethereum-mainnet:publicnode-finalized"] },
    { sourceId := "defillama-protocols", name := "DefiLlama protocol metrics"
      lanes := ["fundamental_onchain"]
      classes := ["protocol_fundamentals"]
      group := "defillama", tier := "secondary"
      authoritative := false },
    { sourceId := "deribit-options", name := "Deribit option books and Greeks"
      lanes := ["volatility"]
      classes := ["option_quotes", "option_greeks", "option_depth"]
      group := "deribit", tier := "first_party"
      provider := ["deribit:public-option-order-book"] },
    { sourceId := "deribit-option-capacity", name := "Deribit normalized visible option capacity"
      lanes := ["volatility"]
      classes := ["option_capacity"]
      group := "deribit", tier := "first_party" },
    { sourceId := "bybit-options", name := "Bybit options"
      lanes := ["volatility"]
      classes := ["option_quotes", "option_greeks"]
      group := "bybit", tier := "first_party"
      enabledEnv := some "CIE_BYBIT_PUBLIC_ENABLED" },
    { sourceId := "okx-options", name := "OKX options"
      lanes := ["volatility"]
      classes := ["option_quotes", "option_greeks", "option_depth"]
      group := "okx", tier := "first_party" },
    { sourceId := "bybit-liquidations", name := "Bybit all-liquidation stream"
      lanes := ["liquidation_distress", "microstructure"]
      classes := ["liquidation_events", "liquidation_pressure"]
      group := "bybit", tier := "first_party"
      enabledEnv := some "CIE_BYBIT_PUBLIC_ENABLED" },
    { sourceId := "bybit-distress", name := "Bybit ADL / insurance state"
      lanes := ["liquidation_distress"]
      classes := ["distress_state"]
      group := "bybit", tier := "first_party"
      provider := ["bybit-v5:adl-alert", "bybit-v5:insurance-pool"]
      enabledEnv := some "CIE_BYBIT_PUBLIC_ENABLED" },
    { sourceId := "hyperliquid-distress", name := "Hyperliquid distress state"
      lanes := ["liquidation_distress"]
      classes := ["distress_state"]
      group := "hyperliquid", tier := "first_party"
      provider := ["hyperliquid:perp-asset-contexts"] },
    { sourceId := "internal-maker-shadow", name := "Internal maker-fill outcomes"
      lanes := ["liquidity_provision"]
      classes := ["maker_fill_outcomes"]
      group := "internal-maker", tier := "internal"
      table := some ⟨"maker_shadow_outcomes", none, none⟩ },
    { sourceId := "public-trade-flow", name := "Public trade-flow capture"
      lanes := ["liquidity_provision", "microstructure"]
      classes := ["trade_flow"]
      group := "trade-flow", tier := "first_party"
      active := true },
    { sourceId := "internal-opportunity-history", name := "Durable opportunity history"
      lanes := ["capital_location_settlement"]
      classes := ["venue_opportunity_history"]
      group := "internal-opportunities", tier := "internal"
      table := some ⟨"opportunities", none, none⟩ },
    { sourceId := "internal-transfer-telemetry", name := "Transfer / withdrawal telemetry"
      lanes := ["capital_location_settlement"]
      classes := ["transfer_costs", "transfer_latency"]
      group := "internal-transfer", tier := "internal"
      table := some ⟨"capital_transfer_outcomes", none, none⟩ } ]

/-- `EVIDENCE_CLASS_FRESHNESS_SECONDS`. After how many seconds a row no longer shows its class.
    -/
def evidenceClassFreshnessSeconds : List (String × ℚ) :=
  [("market_quotes", 300), ("executable_depth", 120), ("order_book", 120), ("trade_flow", 120),
    ("funding_or_basis", 900), ("yield_rate", 1800), ("capacity", 1800), ("exit_liquidity", 1800),
    ("market_history", 21600), ("multi_asset_market_history", 21600), ("execution_costs", 21600),
    ("chain_activity", 21600), ("protocol_fundamentals", 86400), ("option_quotes", 900),
    ("option_greeks", 900), ("option_depth", 900), ("option_capacity", 900),
    ("timestamped_events", 86400), ("event_identity", 86400), ("liquidation_events", 300),
    ("liquidation_pressure", 300), ("distress_state", 900), ("venue_opportunity_history", 86400),
    ("transfer_costs", 86400), ("transfer_latency", 86400), ("maker_fill_outcomes", 21600)]

/-- `evidence_freshness_seconds`: the evidence is fresh as long as its shortest-lived class. -/
def evidenceFreshnessSeconds (evidenceClasses : List String) (fallbackSeconds : ℚ) : ℚ :=
  max 1 ((evidenceClasses.filterMap (fun item =>
    List.lookup item evidenceClassFreshnessSeconds)).min?.getD fallbackSeconds)

end InefficiencyEngine.Coverage
