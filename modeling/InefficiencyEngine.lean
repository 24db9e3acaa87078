import InefficiencyEngine.Coverage.Backfill
import InefficiencyEngine.Coverage.Catalog
import InefficiencyEngine.Coverage.GateLaws
import InefficiencyEngine.Coverage.Snapshot
import InefficiencyEngine.Coverage.SnapshotHistory
import InefficiencyEngine.Coverage.SourceGates
import InefficiencyEngine.Coverage.Sources
import InefficiencyEngine.Coverage.StandingEvidence
import InefficiencyEngine.CycleHistory.Buckets
import InefficiencyEngine.CycleHistory.Cache
import InefficiencyEngine.CycleHistory.ExactReads
import InefficiencyEngine.CycleHistory.Exactness
import InefficiencyEngine.CycleHistory.Invariant
import InefficiencyEngine.CycleHistory.Progress
import InefficiencyEngine.Execution.CapacityFrontier
import InefficiencyEngine.Execution.ConversionDepth
import InefficiencyEngine.Execution.Costs
import InefficiencyEngine.Execution.DepthWalks
import InefficiencyEngine.Execution.FillStates
import InefficiencyEngine.Execution.Qualification
import InefficiencyEngine.Execution.ShadowBooks
import InefficiencyEngine.Feedback.Diversification
import InefficiencyEngine.Feedback.LaneSuccess
import InefficiencyEngine.Feedback.RankedAllocation
import InefficiencyEngine.Feedback.SerialRuns
import InefficiencyEngine.Feedback.Settlements
import InefficiencyEngine.Graph.Edges
import InefficiencyEngine.Graph.Identity
import InefficiencyEngine.Graph.Instruments
import InefficiencyEngine.Graph.MarketGraph
import InefficiencyEngine.Graph.NewestView
import InefficiencyEngine.Graph.Unambiguous
import InefficiencyEngine.History.Append
import InefficiencyEngine.History.Calls
import InefficiencyEngine.History.ConcurrentReads
import InefficiencyEngine.History.CrashRuns
import InefficiencyEngine.History.DualWrite
import InefficiencyEngine.History.FragmentLimit
import InefficiencyEngine.History.Invariant
import InefficiencyEngine.History.LayoutAgreement
import InefficiencyEngine.History.Manifest
import InefficiencyEngine.History.Operations
import InefficiencyEngine.History.Partitioned
import InefficiencyEngine.History.QuoteText
import InefficiencyEngine.History.Reading
import InefficiencyEngine.History.SameHistory
import InefficiencyEngine.History.Sample
import InefficiencyEngine.Latency.CorrelatedTiers
import InefficiencyEngine.Latency.Metrics
import InefficiencyEngine.Lease.Ledger
import InefficiencyEngine.Lease.MutualExclusion
import InefficiencyEngine.Lib.Accumulate
import InefficiencyEngine.Lib.Bisection
import InefficiencyEngine.Lib.BoundedRead
import InefficiencyEngine.Lib.Budgets
import InefficiencyEngine.Lib.Calendar
import InefficiencyEngine.Lib.Clusters
import InefficiencyEngine.Lib.Delimited
import InefficiencyEngine.Lib.Dict
import InefficiencyEngine.Lib.DisjointWindows
import InefficiencyEngine.Lib.Durable
import InefficiencyEngine.Lib.Fuel
import InefficiencyEngine.Lib.GroupBy
import InefficiencyEngine.Lib.HashChain
import InefficiencyEngine.Lib.Hops
import InefficiencyEngine.Lib.IsoText
import InefficiencyEngine.Lib.KeyedTable
import InefficiencyEngine.Lib.KeysetWalk
import InefficiencyEngine.Lib.Lines
import InefficiencyEngine.Lib.Loop
import InefficiencyEngine.Lib.Machine
import InefficiencyEngine.Lib.Newest
import InefficiencyEngine.Lib.NewestRows
import InefficiencyEngine.Lib.NewestWrite
import InefficiencyEngine.Lib.Numbered
import InefficiencyEngine.Lib.Numbers
import InefficiencyEngine.Lib.Quantile
import InefficiencyEngine.Lib.Rungs
import InefficiencyEngine.Lib.Selections
import InefficiencyEngine.Lib.SkippedNumbers
import InefficiencyEngine.Lib.SortedDistinct
import InefficiencyEngine.Lib.StableSort
import InefficiencyEngine.Lib.StoreView
import InefficiencyEngine.Lib.Wilson
import InefficiencyEngine.Mechanism.BoundedReads
import InefficiencyEngine.Mechanism.Cycle
import InefficiencyEngine.Mechanism.Evidence
import InefficiencyEngine.Mechanism.Executable
import InefficiencyEngine.Mechanism.ExecutableLanes
import InefficiencyEngine.Mechanism.Governed
import InefficiencyEngine.Mechanism.Lanes
import InefficiencyEngine.Mechanism.LateSettlement
import InefficiencyEngine.Mechanism.Ledger
import InefficiencyEngine.Mechanism.MakerQueue
import InefficiencyEngine.Mechanism.PendingWindow
import InefficiencyEngine.Mechanism.Positions
import InefficiencyEngine.Mechanism.Promotions
import InefficiencyEngine.Mechanism.ResearchOnly
import InefficiencyEngine.Mechanism.Runs
import InefficiencyEngine.Mechanism.Sample
import InefficiencyEngine.Mechanism.Settlement
import InefficiencyEngine.Mechanism.Sources
import InefficiencyEngine.Migration.AppendOnly
import InefficiencyEngine.Migration.Captured
import InefficiencyEngine.Migration.HighWater
import InefficiencyEngine.Migration.InventoryRuns
import InefficiencyEngine.Migration.MarketInventory
import InefficiencyEngine.Migration.Membership
import InefficiencyEngine.Migration.Monotonic
import InefficiencyEngine.Migration.Reconciliation
import InefficiencyEngine.Migration.Repair
import InefficiencyEngine.Migration.Sample
import InefficiencyEngine.Migration.SourceRead
import InefficiencyEngine.Migration.World
import InefficiencyEngine.Portfolio.Account
import InefficiencyEngine.Portfolio.Accounting
import InefficiencyEngine.Portfolio.Allocation
import InefficiencyEngine.Portfolio.Blocks
import InefficiencyEngine.Portfolio.BoundedAllocation
import InefficiencyEngine.Portfolio.CanonicalSettlement
import InefficiencyEngine.Portfolio.Certification
import InefficiencyEngine.Portfolio.CexDexSettlement
import InefficiencyEngine.Portfolio.Closes
import InefficiencyEngine.Portfolio.Cycle
import InefficiencyEngine.Portfolio.Deployment
import InefficiencyEngine.Portfolio.EventChain
import InefficiencyEngine.Portfolio.Evidence
import InefficiencyEngine.Portfolio.Exclusion
import InefficiencyEngine.Portfolio.Execution
import InefficiencyEngine.Portfolio.Findings
import InefficiencyEngine.Portfolio.FundingSchedule
import InefficiencyEngine.Portfolio.GreedyPlan
import InefficiencyEngine.Portfolio.Horizon
import InefficiencyEngine.Portfolio.Identifiers
import InefficiencyEngine.Portfolio.Ledger
import InefficiencyEngine.Portfolio.MarkSettlement
import InefficiencyEngine.Portfolio.Market
import InefficiencyEngine.Portfolio.OpeningDiscipline
import InefficiencyEngine.Portfolio.RiskBudget
import InefficiencyEngine.Portfolio.Runs
import InefficiencyEngine.Portfolio.Sample
import InefficiencyEngine.Portfolio.Settlement
import InefficiencyEngine.Portfolio.Store
import InefficiencyEngine.Portfolio.Trial
import InefficiencyEngine.Portfolio.TwoLedgers
import InefficiencyEngine.Portfolio.Valuation
import InefficiencyEngine.Portfolio.ValuationStatus
import InefficiencyEngine.Research.AlphaFactory
import InefficiencyEngine.Research.CertificationCycle
import InefficiencyEngine.Research.ForwardExits
import InefficiencyEngine.Research.HistoricalReplay
import InefficiencyEngine.Research.IndependentOutcomes
import InefficiencyEngine.Research.LookAhead
import InefficiencyEngine.Research.ReplayCache
import InefficiencyEngine.Research.WalkForward
import InefficiencyEngine.Statistics.CompositeEdges
import InefficiencyEngine.Statistics.DexRoutes
import InefficiencyEngine.Statistics.Estimates
import InefficiencyEngine.Statistics.StablecoinDepth
import InefficiencyEngine.Statistics.WorseEvidence
import InefficiencyEngine.Streams.Integrity
import InefficiencyEngine.Streams.TradeFlow
