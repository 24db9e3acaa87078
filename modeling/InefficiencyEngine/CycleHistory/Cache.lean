import InefficiencyEngine.Lib.Dict
import InefficiencyEngine.Lib.Durable
import InefficiencyEngine.Lib.Machine
import InefficiencyEngine.Lib.NewestRows
import InefficiencyEngine.Portfolio.Market
import Mathlib.Data.String.Basic

namespace InefficiencyEngine.CycleHistory

open Portfolio Durable

/-!
# The durable compact cycle history

The slow strategies need months of stored quotes, of which only the newest rows of each instrument
and day count.  `_compact_cycle_history` (`memory_bounded_alpha_factory.py`) asks the quote table
for them in one query.  `durable_control_cycle_history_target_runtime.py` keeps the answer in a
table of its own, and builds it over many calls of `advance`, one bucket after the other: a bucket
is the newest rows of one venue and asset on one day.

What is built is the history of a frozen target, a snapshot with its time and instruments.  Whole
days go to the base namespace and are shared by all targets.  The day on which the window of a
target ends goes to one of two slots, and the slot of the target that is being served is never the
one being built.

A bucket is selected from the quote table or, when the backend of the market history is the
partitioned one, from what its `range` returns (`BucketSource`).  Instants count microseconds.
-/

/-! ### Rows and times -/

/-- The texts of the runtime: `str.upper`, with the one law of it that the cache relies on, and the
    number that the digest of a quote's JSON text is cut down to. -/
structure CycleTexts where
  upper : String → String
  upper_upper : ∀ text, upper (upper text) = upper text
  contentNumber : MarketQuote → ℕ

/-- A UTC day, by its number. -/
abbrev Day := ℤ

/-- The microseconds of a day. -/
def dayLength : Instant := 86400000000

/-- The day of an instant, `date()` of it or the first ten characters of its text. -/
def dayOf (t : Instant) : Day := t / dayLength

/-- `_day_start`. -/
def dayStart (day : Day) : Instant := day * dayLength

/-- A row of `market_quotes`. -/
structure QuoteRow where
  id : ℕ
  venue : String
  asset : String
  observedAt : Instant
  payload : MarketQuote

/-- A venue and an asset. -/
abbrev CyclePair := String × String

/-- A venue, an asset and a market kind. -/
abbrev CycleKey := String × String × MarketKind

/-- `rows_per_day`, `required_history_hours` and `_effective_history_hours` of a factory. -/
structure CycleConfig where
  rowsPerDay : ℕ
  requiredHistory : Instant
  effectiveHistory : Instant

/-- The namespaces of the cache table: the base namespace and its two boundary slots. -/
inductive Namespace
  | base
  | slotA
  | slotB
  deriving DecidableEq

/-- A row of `control_cycle_history_rows`. -/
structure CachedRow where
  cacheNamespace : Namespace
  sourceId : ℕ
  venue : String
  asset : String
  marketKind : MarketKind
  day : Day
  observedAt : Instant
  payload : MarketQuote

/-! ### Keys -/

section Keys

variable (T : CycleTexts)

/-- The key of a quote. -/
def quoteKey (quote : MarketQuote) : CycleKey :=
  (quote.venue, T.upper quote.asset, quote.marketKind)

/-- `_current_keys`: the spot and perpetual instruments of a snapshot. -/
def currentKeys (snapshot : ScanSnapshot) : List CycleKey :=
  ((snapshot.marketQuotes.filter (fun quote =>
    quote.marketKind = .spot || quote.marketKind = .perpetual)).map (quoteKey T)).dedup

/-- `sorted({(venue, asset) for ...})`. -/
def pairsOf (keys : List CycleKey) : List CyclePair :=
  (keys.map (fun key => (key.1, key.2.1))).dedup.insertionSort
    (fun a b => a.1 < b.1 ∨ a.1 = b.1 ∧ a.2 ≤ b.2)

/-- Two lists of keys make the same set. -/
def sameKeys (keys others : List CycleKey) : Bool :=
  keys.all (others.contains ·) && others.all (keys.contains ·)

end Keys

/-! ### Targets and the checkpoint -/

/-- A target: the snapshot it is frozen at and the slot of its last day.  While it is built,
    `boundaryCutoffs` says up to which instant the slot has the rows of a pair. -/
structure CycleTarget where
  scanId : String
  completedAt : Instant
  keys : List CycleKey
  boundaryNamespace : Namespace
  boundaryCutoffs : Dict CyclePair Instant := Dict.empty

/-- The checkpoint of the cache. -/
structure Checkpoint where
  version : ℕ
  rowsPerDay : ℕ
  requiredHistory : Instant
  pairCompletedThrough : Dict CyclePair Day
  nextPairIndex : ℕ
  activeTarget : Option CycleTarget
  workingTarget : Option CycleTarget

/-- `_CACHE_VERSION`. -/
def cacheVersion : ℕ := 3

/-- The tables of the cache. -/
structure CacheStore where
  rows : List CachedRow
  checkpoint : Option Checkpoint

/-- A transaction of the cache. -/
inductive CacheWrite
  | resetNamespace (ns : Namespace)
  | replaceBucket (ns : Namespace) (pair : CyclePair) (day : Day) (selected : List CachedRow)
  | saveCheckpoint (checkpoint : Checkpoint)
  | dropBefore (floor : Instant)

/-- A row of a bucket. -/
def CachedRow.inBucket (row : CachedRow) (ns : Namespace) (pair : CyclePair) (day : Day) : Bool :=
  row.cacheNamespace = ns && row.venue = pair.1 && row.asset = pair.2 && row.day = day

/-- What a transaction does. -/
def CacheStore.commit (store : CacheStore) : CacheWrite → CacheStore
  | .resetNamespace ns => { store with rows := store.rows.filter (fun row => row.cacheNamespace ≠ ns) }
  | .replaceBucket ns pair day selected =>
    { store with
      rows := store.rows.filter (fun row => !row.inBucket ns pair day) ++ selected }
  | .saveCheckpoint checkpoint => { store with checkpoint := some checkpoint }
  | .dropBefore floor =>
    { store with
      rows := store.rows.filter (fun row => !(row.cacheNamespace = .base && row.observedAt < floor)) }

instance : Durable CacheStore CacheWrite := ⟨CacheStore.commit⟩

/-- A program over the cache. -/
abbrev CacheProg := Prog CacheStore CacheWrite Raised

section Cache

variable (T : CycleTexts) (config : CycleConfig)

/-- `_fresh_checkpoint`. Nothing is completed, and no target is being built. -/
def freshCheckpoint : Checkpoint where
  version := cacheVersion
  rowsPerDay := config.rowsPerDay
  requiredHistory := config.requiredHistory
  pairCompletedThrough := Dict.empty
  nextPairIndex := 0
  activeTarget := none
  workingTarget := none

/-- Whether a stored checkpoint is one of this version and configuration. -/
def Checkpoint.valid (checkpoint : Checkpoint) : Bool :=
  checkpoint.version = cacheVersion && checkpoint.rowsPerDay = config.rowsPerDay
    && checkpoint.requiredHistory = config.requiredHistory

/-- `_load_checkpoint`, when it is valid. -/
def CacheStore.checkpoint? (store : CacheStore) : Option Checkpoint :=
  store.checkpoint.filter (Checkpoint.valid config)

/-- `_target_matches_snapshot`. -/
def CycleTarget.matchesSnapshot (target : CycleTarget) (snapshot : ScanSnapshot) : Bool :=
  target.scanId = snapshot.scanId && target.completedAt = snapshot.completedAt
    && sameKeys target.keys (currentKeys T snapshot)

/-- `_target_from_snapshot`. -/
def targetFromSnapshot (snapshot : ScanSnapshot) (boundaryNamespace : Namespace) : CycleTarget where
  scanId := snapshot.scanId
  completedAt := snapshot.completedAt
  keys := currentKeys T snapshot
  boundaryNamespace := boundaryNamespace

/-- `_inactive_boundary_namespace`. -/
def inactiveBoundaryNamespace (active : Option CycleTarget) : Namespace :=
  if active.any (fun target => target.boundaryNamespace = .slotA) then .slotB else .slotA

/-! ### The window of a target -/

/-- `long_cutoff`. -/
def longCutoff (completedAt : Instant) : Instant := completedAt - config.requiredHistory

/-- `recent_cutoff`. -/
def recentCutoff (completedAt : Instant) : Instant := completedAt - config.effectiveHistory

/-- `first_day`. -/
def firstDay (completedAt : Instant) : Day := dayOf (longCutoff config completedAt)

/-- `boundary_day`. -/
def boundaryDay (completedAt : Instant) : Day := dayOf (recentCutoff config completedAt)

/-- `stable_end_day`. -/
def stableEndDay (completedAt : Instant) : Day := boundaryDay config completedAt - 1

/-- `boundary_start`. -/
def boundaryStart (completedAt : Instant) : Instant :=
  max (longCutoff config completedAt) (dayStart (boundaryDay config completedAt))

/-! ### Buckets -/

/-- A row of a pair in an interval. -/
def QuoteRow.within (row : QuoteRow) (pair : CyclePair) (start stop : Instant) : Bool :=
  row.venue = pair.1 && row.asset = pair.2 && start ≤ row.observedAt && row.observedAt < stop

/-- The cached row of a quote row. -/
def QuoteRow.cached (row : QuoteRow) (ns : Namespace) (day : Day) : CachedRow where
  cacheNamespace := ns
  sourceId := row.id
  venue := row.venue
  asset := T.upper row.asset
  marketKind := row.payload.marketKind
  day := day
  observedAt := row.observedAt
  payload := row.payload

/-- What `_replace_bucket` selects from: the quote table or, with `CIE_MARKET_HISTORY_BACKEND` set
    to "parquet", the partitioned history, by what its `range` returns for the venue, the asset and
    the first and the last instant it is asked for. -/
inductive BucketSource
  | quoteTable (rows : List QuoteRow)
  | partitioned (range : String → String → Instant → Instant → List MarketQuote)

/-- The cached row of a quote of the partitioned history, where a row has no number of its own. -/
def partitionedRow (ns : Namespace) (day : Day) (quote : MarketQuote) : CachedRow where
  cacheNamespace := ns
  sourceId := T.contentNumber quote
  venue := quote.venue
  asset := T.upper quote.asset
  marketKind := quote.marketKind
  day := day
  observedAt := quote.observedAt
  payload := quote

/-- The rows `_replace_bucket` selects.  `range` includes its last instant, and its order is that of
    time, so the last quotes it returns are the newest ones. -/
def selectBucket (source : BucketSource) (ns : Namespace) (pair : CyclePair) (day : Day)
    (start stop : Instant) : List CachedRow :=
  if start < stop ∧ 0 < config.rowsPerDay then
    match source with
    | .quoteTable rows =>
      (newestRows QuoteRow.id config.rowsPerDay
        (rows.filter (fun row => row.within pair start stop))).map (fun row => row.cached T ns day)
    | .partitioned range =>
      let quotes := range pair.1 pair.2 start (stop - 1)
      (quotes.drop (quotes.length - config.rowsPerDay)).reverse.map (partitionedRow T ns day)
  else []

/-! ### Building a target -/

/-- A call of `advance`: the snapshot it is given, what each of its bucket queries reads, the setting
    of its query budget, how often the loop is entered before the time budget is used up, and whether
    time is left after a promotion. -/
structure AdvanceCall where
  snapshot : ScanSnapshot
  source : ℕ → BucketSource
  queryBudget : ℤ
  visits : ℕ
  timeLeft : Bool

/-- `_bucket_query_budget`. -/
def AdvanceCall.bucketQueryBudget (call : AdvanceCall) : ℕ := (max 1 (min 256 call.queryBudget)).toNat

/-- The variables of the loop. -/
structure BuildState where
  completed : Dict CyclePair Day
  boundaryCutoffs : Dict CyclePair Instant
  pairIndex : ℕ
  bucketQueries : ℕ
  idleVisits : ℕ

/-- The checkpoint `persist_progress` saves. -/
def Checkpoint.withProgress (checkpoint : Checkpoint) (target : CycleTarget) (state : BuildState) :
    Checkpoint :=
  { checkpoint with
    pairCompletedThrough := state.completed
    nextPairIndex := state.pairIndex
    workingTarget := some { target with boundaryCutoffs := state.boundaryCutoffs } }

/-- `_parse_day` of what is recorded for a pair. -/
def completedDay (completed : Dict CyclePair Day) (pair : CyclePair) (fallback : Day) : Day :=
  (completed.get? pair).getD fallback

/-- The bucket a pair needs next. -/
inductive NextBucket
  | stable (day : Day)
  | boundary
  | nothing

/-- What a visit finds to do for a pair: its stable days first, then its last day. -/
def nextBucket (target : CycleTarget) (state : BuildState) (pair : CyclePair) : NextBucket :=
  let fallback := firstDay config target.completedAt - 1
  let completed := max fallback (completedDay state.completed pair fallback)
  let nextDay := max (firstDay config target.completedAt) (completed + 1)
  if nextDay ≤ stableEndDay config target.completedAt then .stable nextDay
  else if state.boundaryCutoffs.get? pair ≠ some (recentCutoff config target.completedAt) then
    .boundary
  else .nothing

/-- The loop, entered at most so many more times. Each bucket is written before the checkpoint
    that counts it, so a call that is lost between the two writes repeats the bucket. -/
def buildBuckets (call : AdvanceCall) (checkpoint : Checkpoint) (target : CycleTarget)
    (pairs : List CyclePair) : ℕ → BuildState → CacheProg BuildState
  | 0, state => pure state
  | visits + 1, state =>
    -- the budget of the call is spent, or a whole turn found nothing to do
    if call.bucketQueryBudget ≤ state.bucketQueries ∨ pairs.length ≤ state.idleVisits then pure state
    else
      match pairs[state.pairIndex]? with
      | none => pure state
      | some pair =>
        let turned := { state with pairIndex := (state.pairIndex + 1) % pairs.length }
        match nextBucket config target state pair with
        -- the next stable day of the pair, under the namespace that all targets share
        | .stable day => do
          let start := max (longCutoff config target.completedAt) (dayStart day)
          Prog.write (.replaceBucket .base pair day (selectBucket T config
            (call.source state.bucketQueries) .base pair day start (dayStart day + dayLength)))
          let next := { turned with
            completed := state.completed.set pair day
            bucketQueries := state.bucketQueries + 1
            idleVisits := 0 }
          Prog.write (.saveCheckpoint (checkpoint.withProgress target next))
          buildBuckets call checkpoint target pairs visits next
        -- the day of the cutoff, under the namespace of this target
        | .boundary => do
          let day := boundaryDay config target.completedAt
          let stop := recentCutoff config target.completedAt
          Prog.write (.replaceBucket target.boundaryNamespace pair day (selectBucket T config
            (call.source state.bucketQueries) target.boundaryNamespace pair day
            (boundaryStart config target.completedAt) stop))
          let next := { turned with
            boundaryCutoffs := state.boundaryCutoffs.set pair stop
            bucketQueries := state.bucketQueries + 1
            idleVisits := 0 }
          Prog.write (.saveCheckpoint (checkpoint.withProgress target next))
          buildBuckets call checkpoint target pairs visits next
        -- the pair is complete for this target
        | .nothing =>
          buildBuckets call checkpoint target pairs visits
            { turned with idleVisits := state.idleVisits + 1 }

/-- A target whose window is empty, or that has no instruments, needs no buckets. -/
def CycleTarget.trivial (target : CycleTarget) : Bool :=
  recentCutoff config target.completedAt ≤ longCutoff config target.completedAt
    || (pairsOf target.keys).isEmpty

/-- `stable_complete and boundary_complete`. -/
def BuildState.complete (state : BuildState) (target : CycleTarget) : Bool :=
  (pairsOf target.keys).all (fun pair =>
    stableEndDay config target.completedAt
        ≤ completedDay state.completed pair (firstDay config target.completedAt - 1)
      && state.boundaryCutoffs.get? pair = some (recentCutoff config target.completedAt))

/-- What a call of `advance` reports to its callers. -/
structure AdvanceReport where
  complete : Bool
  workingComplete : Bool
  promotedWorkingTarget : Bool
  servingScanId : Option String
  servingTargetCompletedAt : Option Instant
  bucketQueries : ℕ

/-- The report of a call by the target that is served after it. -/
def reportOf (active : Option CycleTarget) (workingComplete promoted : Bool) (bucketQueries : ℕ) :
    AdvanceReport where
  complete := active.isSome
  workingComplete := workingComplete
  promotedWorkingTarget := promoted
  servingScanId := active.map CycleTarget.scanId
  servingTargetCompletedAt := active.map CycleTarget.completedAt
  bucketQueries := bucketQueries

/-- `_RETENTION_SAFETY_HOURS`. -/
def retentionSafety : Instant := 24 * 3600000000

/-- The promotion of a working target that is complete. -/
def promote (call : AdvanceCall) (checkpoint : Checkpoint) (target : CycleTarget)
    (state : BuildState) : CacheProg AdvanceReport := do
  let promoted := { target with boundaryCutoffs := Dict.empty }
  Prog.write (.saveCheckpoint { checkpoint with
    pairCompletedThrough := state.completed
    nextPairIndex := 0
    activeTarget := some promoted
    workingTarget := none })
  Prog.writeOption (if call.timeLeft then
    some (.dropBefore (longCutoff config target.completedAt - retentionSafety)) else none)
  return reportOf (some promoted) true true state.bucketQueries

/-- The part of `advance` that works on a target. -/
def buildTarget (call : AdvanceCall) (checkpoint : Checkpoint) (target : CycleTarget) :
    CacheProg AdvanceReport := do
  let pairs := pairsOf target.keys
  let start : BuildState :=
    { completed := checkpoint.pairCompletedThrough
      boundaryCutoffs := target.boundaryCutoffs
      pairIndex := if pairs.isEmpty then 0 else checkpoint.nextPairIndex % pairs.length
      bucketQueries := 0
      idleVisits := 0 }
  let state ← if target.trivial config then pure start
    else buildBuckets T config call checkpoint target pairs call.visits start
  if target.trivial config || state.complete config target then
    promote config call checkpoint target state
  else return reportOf checkpoint.activeTarget false false state.bucketQueries

/-- `_load_checkpoint`; without a valid one the cache is emptied and a fresh one saved. -/
def openCheckpoint : CacheProg Checkpoint := do
  let store ← Prog.get
  match store.checkpoint? config with
  | some checkpoint => pure checkpoint
  | none => do
    Prog.write (.resetNamespace .base)
    Prog.write (.resetNamespace .slotA)
    Prog.write (.resetNamespace .slotB)
    Prog.write (.saveCheckpoint (freshCheckpoint config))
    return freshCheckpoint config

/-- `_start_working_target`, when no target is being built and the snapshot is not the one that is
    served. -/
def startWorkingTarget (call : AdvanceCall) (checkpoint : Checkpoint) : CacheProg Checkpoint :=
  if checkpoint.workingTarget.isNone
      && !checkpoint.activeTarget.any (fun target => target.matchesSnapshot T call.snapshot) then do
    let ns := inactiveBoundaryNamespace checkpoint.activeTarget
    Prog.write (.resetNamespace ns)
    let next := { checkpoint with
      nextPairIndex := 0
      workingTarget := some (targetFromSnapshot T call.snapshot ns) }
    Prog.write (.saveCheckpoint next)
    return next
  else pure checkpoint

/-- `advance_durable_control_cycle_history_cache`. One call opens the checkpoint, sets a working
    target where there is none, and builds a bounded number of its buckets. -/
def advance (call : AdvanceCall) : CacheProg AdvanceReport := do
  let checkpoint ← openCheckpoint config
  let checkpoint ← startWorkingTarget T call checkpoint
  match checkpoint.workingTarget with
  | none => return reportOf checkpoint.activeTarget true false 0
  | some target => buildTarget T config call checkpoint target

/-! ### Reading -/

/-- The quotes of the keys, each key's in the order of time. -/
def groupQuotes (keys : List CycleKey) (quotes : List MarketQuote) :
    Dict CycleKey (List MarketQuote) :=
  let grouped := Dict.group (quoteKey T) (quotes.filter (fun quote => keys.contains (quoteKey T quote)))
  grouped.items.foldl (fun d item => d.set item.1
    (item.2.insertionSort (fun a b => a.observedAt ≤ b.observedAt))) Dict.empty

/-- A cached row of one of the pairs in an interval. -/
def CachedRow.within (row : CachedRow) (ns : Namespace) (pairs : List CyclePair)
    (start stop : Instant) : Bool :=
  row.cacheNamespace = ns && start ≤ row.observedAt && row.observedAt < stop
    && pairs.contains (row.venue, row.asset)

/-- The rows `load` reads: the stable days from the base namespace, the last day from the slot. -/
def loadedRows (store : CacheStore) (target : CycleTarget) (pairs : List CyclePair) :
    List CachedRow :=
  let long := longCutoff config target.completedAt
  let recent := recentCutoff config target.completedAt
  let boundary := boundaryStart config target.completedAt
  (if long < boundary then store.rows.filter (fun row => row.within .base pairs long boundary)
    else [])
  ++ (if boundary < recent then
      store.rows.filter (fun row => row.within target.boundaryNamespace pairs boundary recent)
    else [])

/-- `load_durable_control_cycle_history`. The history of a snapshot is loaded only if the active
    target is the snapshot's own and every pair is complete up to its last stable day. -/
def load (store : CacheStore) (snapshot : ScanSnapshot) : Option (Dict CycleKey (List MarketQuote)) := do
  let checkpoint ← store.checkpoint? config
  let target ← checkpoint.activeTarget
  if !target.matchesSnapshot T snapshot then none
  else
    let keys := currentKeys T snapshot
    let pairs := pairsOf keys
    if pairs.isEmpty then some Dict.empty
    else if pairs.any (fun pair => completedDay checkpoint.pairCompletedThrough pair
        (firstDay config target.completedAt - 1) < stableEndDay config target.completedAt) then none
    else some (groupQuotes T keys ((loadedRows config store target pairs).map CachedRow.payload))

/-! ### The query the cache stands for -/

/-- The rank of a row by descending id among the selected rows of its venue, asset and day. -/
def dailyRank (selected : List QuoteRow) (row : QuoteRow) : ℕ :=
  newerCount QuoteRow.id (selected.filter (fun other => other.venue = row.venue
    && other.asset = row.asset && dayOf other.observedAt = dayOf row.observedAt)) row + 1

/-- The rows of the query of `_compact_cycle_history`. -/
def compactRows (source : List QuoteRow) (pairs : List CyclePair) (completedAt : Instant) :
    List QuoteRow :=
  let selected := source.filter (fun row => longCutoff config completedAt ≤ row.observedAt
    && row.observedAt < recentCutoff config completedAt && pairs.contains (row.venue, row.asset))
  selected.filter (fun row => dailyRank selected row ≤ config.rowsPerDay)

/-- `_compact_cycle_history` of a snapshot, without the separately stored backfill. -/
def compactCycleHistory (source : List QuoteRow) (snapshot : ScanSnapshot) :
    Dict CycleKey (List MarketQuote) :=
  let keys := currentKeys T snapshot
  let pairs := pairsOf keys
  if pairs.isEmpty then Dict.empty
  else groupQuotes T keys ((compactRows config source pairs snapshot.completedAt).map QuoteRow.payload)

end Cache

end InefficiencyEngine.CycleHistory
