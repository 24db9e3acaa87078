import InefficiencyEngine.Lib.GroupBy
import InefficiencyEngine.Lib.Lines
import InefficiencyEngine.Lib.StoreView
import InefficiencyEngine.Migration.SourceRead
import Mathlib.Data.Int.Order.Basic
import Mathlib.Data.String.Basic

namespace InefficiencyEngine.Migration

open Durable

/-!
# The inventory of the source's market quotes

`_source_market_inventory` of `postgres_local_migration` groups the quotes up to a high water
by their lineage hash in one query.  `bounded_market_source_inventory` of
`stage_one_market_inventory` reads them in batches of their primary key and merges every batch
into a SQLite file of its own, from which it goes on after a restart; when it is through it
keeps the summary in that file.

Every transaction on the file is one write.  An entry of the table `meta` is represented by the
value whose text it is, and the columns of `market_quotes` are texts, compared by code points
in either database.
-/

/-! ### The runtime and the tables -/

/-- A row of `market_quotes`, without its primary key. -/
structure MarketQuoteRow where
  lineageHash : String
  venue : String
  asset : String
  observedAt : String
  payloadJson : String

/-- The library functions of the inventory. -/
structure InventoryRuntime extends Runtime ℤ MarketQuoteRow where
  /-- `str.upper`. -/
  upper : String → String
  /-- Whether `int(digest, 16)` returns. -/
  isHexadecimal : String → Bool

/-- What the inventory knows of a lineage. -/
structure LineageRow where
  venue : String
  asset : String
  minObservedAt : String
  maxObservedAt : String

/-- The dictionary both inventories return. -/
structure SourceInventory where
  sourceRows : ℕ
  lineageCount : ℕ
  lineageDigest : String
  minObservedAt : Option String
  maxObservedAt : Option String
  identities : List String

/-- Rows of the source by their lineage hash. -/
def byLineage (rows : List (ℤ × MarketQuoteRow)) : List (String × MarketQuoteRow) :=
  rows.map (fun row => (row.2.lineageHash, row.2))

/-! ### The inventory of lineages -/

section Summary

variable (R : InventoryRuntime)

/-- The local variables of the loop over the lineages. -/
structure SummaryState where
  digested : List String
  identities : Finset String
  minimum : Option String
  maximum : Option String
  lineageCount : ℕ

/-- One lineage in that loop. -/
def SummaryState.add (state : SummaryState) (row : String × LineageRow) : SummaryState where
  digested := state.digested ++ [row.1]
  identities := insert (row.2.venue ++ "|" ++ R.upper row.2.asset) state.identities
  minimum := match state.minimum with
    | none => some row.2.minObservedAt
    | some minimum => some (if row.2.minObservedAt < minimum then row.2.minObservedAt else minimum)
  maximum := match state.maximum with
    | none => some row.2.maxObservedAt
    | some maximum => some (if maximum < row.2.maxObservedAt then row.2.maxObservedAt else maximum)
  lineageCount := state.lineageCount + 1

/-- The dictionary that the loop over the lineages ends with. -/
def summarize (sourceRows : ℕ) (lineages : List (String × LineageRow)) : SourceInventory :=
  let state := lineages.foldl (SummaryState.add R) ⟨[], ∅, none, none, 0⟩
  { sourceRows := sourceRows
    lineageCount := state.lineageCount
    lineageDigest := R.sha256 (unlines state.digested)
    minObservedAt := state.minimum
    maxObservedAt := state.maximum
    identities := state.identities.sort (· ≤ ·) }

/-- `min(venue), min(asset), min(observed_at), max(observed_at)` of a group. -/
def lineageAggregate (rows : List MarketQuoteRow) : Option LineageRow := do
  let venue ← leastOf (rows.map MarketQuoteRow.venue)
  let asset ← leastOf (rows.map MarketQuoteRow.asset)
  let minObservedAt ← leastOf (rows.map MarketQuoteRow.observedAt)
  let maxObservedAt ← greatestOf (rows.map MarketQuoteRow.observedAt)
  return ⟨venue, asset, minObservedAt, maxObservedAt⟩

/-- `_source_market_inventory`; a high water is the list of the values of a primary key. -/
def sourceMarketInventory (market : KeyedTable ℤ MarketQuoteRow) (highWater : Option (List ℤ)) :
    SourceInventory :=
  let rows := atOrBeforeHighWater market (highWater.bind List.head?)
  summarize R rows.length (groupBy lineageAggregate (byLineage rows))

end Summary

/-! ### The inventory file -/

/-- The file `market-quotes-source-inventory.sqlite3`: its entries of `meta`, and `lineages`. -/
structure InventoryFile where
  highWater : Option (Option (List ℤ))
  checkpoint : Option ℤ
  sourceRows : ℕ
  finalSummaryVersion : Option ℕ
  finalSummaryHighWater : Option (Option (List ℤ))
  finalSummaryCheckpoint : Option ℤ
  finalSummaryPayload : Option SourceInventory
  lineages : KeyedTable String LineageRow

/-- The file before the first run. -/
def InventoryFile.empty : InventoryFile := ⟨none, none, 0, none, none, none, none, .empty⟩

/-- `MARKET_INVENTORY_FINAL_SUMMARY_VERSION`. -/
def marketInventoryFinalSummaryVersion : ℕ := 1

/-- The row of a lineage after `INSERT .. ON CONFLICT(lineage_hash) DO UPDATE`. -/
def mergeLineage : KeyedTable.Merge LineageRow MarketQuoteRow
  | none, row => ⟨row.venue, row.asset, row.observedAt, row.observedAt⟩
  | some lineage, row =>
    { venue := min lineage.venue row.venue
      asset := min lineage.asset row.asset
      minObservedAt := min lineage.minObservedAt row.observedAt
      maxObservedAt := max lineage.maxObservedAt row.observedAt }

/-- Where the summary of a run comes from. -/
inductive SummarySource
  | durableCache
  | exactRecompute
deriving DecidableEq

/-- What the report says about the inventory. -/
structure InventoryReport where
  phase : Option String
  highWaterPrimaryKey : Option (List ℤ)
  lastPrimaryKey : Option (List ℤ)
  rowsScanned : Option ℕ
  lineageCount : Option ℕ
  finalSummarySource : Option SummarySource

/-- The source reads and their report, the inventory's own report and file, and the summaries
    committed so far with the high waters they are for, which nothing reads. -/
structure InventoryWorld where
  world : World ℤ MarketQuoteRow
  report : InventoryReport
  file : InventoryFile
  summaries : List (Option (List ℤ) × SourceInventory)

/-- What the inventory does to the world. -/
inductive InventoryWrite
  | table (write : Write ℤ MarketQuoteRow)
  | publishInventory (report : InventoryReport)
  /-- The transaction of `_prepare_inventory`. -/
  | reset (token : Option (List ℤ))
  /-- The transaction of `_accumulate_batch`. -/
  | accumulate (rows : List (ℤ × MarketQuoteRow)) (checkpoint : ℤ) (sourceRows : ℕ)
  /-- The transaction of `_persist_finalized_inventory`. -/
  | persistSummary (token : Option (List ℤ)) (checkpoint : ℤ) (inventory : SourceInventory)

/-- The world after a write. Accumulating drops the final summary, which would no longer be of
    these rows. -/
def InventoryWorld.commit (s : InventoryWorld) : InventoryWrite → InventoryWorld
  | .table write => { s with world := Durable.commit s.world write }
  | .publishInventory report => { s with report := report }
  | .reset token => { s with file := { InventoryFile.empty with highWater := some token } }
  | .accumulate rows checkpoint sourceRows =>
    { s with
      file :=
        { s.file with
          finalSummaryVersion := none
          finalSummaryHighWater := none
          finalSummaryCheckpoint := none
          finalSummaryPayload := none
          lineages := s.file.lineages.mergeAll mergeLineage (byLineage rows)
          checkpoint := some checkpoint
          sourceRows := sourceRows } }
  | .persistSummary token checkpoint inventory =>
    { s with
      file :=
        { s.file with
          finalSummaryVersion := some marketInventoryFinalSummaryVersion
          finalSummaryHighWater := some token
          finalSummaryCheckpoint := some checkpoint
          finalSummaryPayload := some inventory }
      summaries := s.summaries ++ [(token, inventory)] }

instance : Durable InventoryWorld InventoryWrite := ⟨InventoryWorld.commit⟩

/-- A step of the inventory. -/
abbrev InventoryProg := Prog InventoryWorld InventoryWrite Raised

/-- The world of the source reads. -/
def readsView : StoreView (World ℤ MarketQuoteRow) (Write ℤ MarketQuoteRow) InventoryWorld
    InventoryWrite where
  part := InventoryWorld.world
  inject := .table
  part_commit _ _ := rfl

/-- `table_report.update(..)` and `_publish`. -/
def publishInventory (update : InventoryReport → InventoryReport) : InventoryProg Unit := do
  let s ← Prog.get
  Prog.write (.publishInventory (update s.report))

/-! ### The functions of the source -/

/-- `_prepare_inventory`. An inventory of another high water is started anew. -/
def prepareInventory (highWater : Option (List ℤ)) : InventoryProg (Option ℤ × ℕ) := do
  let s ← Prog.get
  if s.file.highWater ≠ some highWater then
    Prog.write (.reset highWater)
  let s ← Prog.get
  return (s.file.checkpoint, s.file.sourceRows)

/-- `_read_market_inventory_batch`. The next rows above the checkpoint and up to the high water,
    which has to be a single integer key. -/
def readMarketInventoryBatch (highWater : Option (List ℤ)) (checkpoint : Option ℤ) (batchSize : ℕ)
    (table : KeyedTable ℤ MarketQuoteRow) : Except Raised (List (ℤ × MarketQuoteRow)) :=
  match highWater with
  | none | some [] => .ok []
  | some [highWaterId] => .ok (table.batch (fun id => id ≤ highWaterId) batchSize checkpoint)
  | some (_ :: _ :: _) => .error (.runtimeError
      "market_quotes inventory requires one integer high-water primary key")

/-- `_accumulate_batch`. The rows of a batch and the new checkpoint are stored in one
    transaction. -/
def accumulateBatch (rows : List (ℤ × MarketQuoteRow)) (previousSourceRows : ℕ) :
    InventoryProg (ℤ × ℕ) :=
  match rows.getLast? with
  | none => Prog.lift (.error (.runtimeError
      "market inventory accumulator requires a non-empty batch"))
  | some last => do
    Prog.write (.accumulate rows last.1 (previousSourceRows + rows.length))
    return (last.1, previousSourceRows + rows.length)

/-- `_finalize_inventory`. -/
def InventoryFile.finalize (R : InventoryRuntime) (file : InventoryFile) : SourceInventory :=
  summarize R file.sourceRows file.lineages.rows

/-- `_validated_final_summary_payload`. A stored summary is used only if it agrees with the rows
    and with itself. -/
def validatedFinalSummaryPayload (R : InventoryRuntime) (sourceRows : ℕ) :
    Option SourceInventory → Option SourceInventory
  | none => none
  | some payload =>
    if payload.sourceRows ≠ sourceRows then none
    else if payload.sourceRows < payload.lineageCount then none
    else if payload.lineageDigest.length ≠ 64 then none
    else if R.isHexadecimal payload.lineageDigest = false then none
    else if payload.identities ≠ payload.identities.toFinset.sort (· ≤ ·) then none
    else if (payload.minObservedAt.any (fun minimum =>
        payload.maxObservedAt.any (fun maximum => maximum < minimum))) = true then none
    else if 0 < payload.sourceRows
        ∧ (payload.minObservedAt = none ∨ payload.maxObservedAt = none) then none
    else some payload

/-- `_read_finalized_inventory`. The finished inventory of a high water, if the file has gone
    all the way up to it. -/
def InventoryFile.readFinalized (R : InventoryRuntime) (file : InventoryFile) :
    Option (List ℤ) → Option SourceInventory
  | some [highWaterId] =>
    if file.highWater ≠ some (some [highWaterId]) then none
    else if file.checkpoint ≠ some highWaterId then none
    else if file.finalSummaryVersion ≠ some marketInventoryFinalSummaryVersion then none
    else if file.finalSummaryHighWater ≠ some (some [highWaterId]) then none
    else if file.finalSummaryCheckpoint ≠ some highWaterId then none
    else validatedFinalSummaryPayload R file.sourceRows file.finalSummaryPayload
  | _ => none

/-- `_persist_finalized_inventory`. The summary is stored if neither the high water nor the rows
    have moved in the meantime. -/
def persistFinalizedInventory (inventory : SourceInventory) :
    Option (List ℤ) → InventoryProg Unit
  | some [highWaterId] => do
    let s ← Prog.get
    if s.file.highWater ≠ some (some [highWaterId]) then
      Prog.lift (.error (.runtimeError
        "market source inventory high-water changed before summary commit"))
    else if s.file.checkpoint ≠ some highWaterId then
      Prog.lift (.error (.runtimeError
        "market source inventory checkpoint incomplete before summary commit"))
    else if s.file.sourceRows ≠ inventory.sourceRows then
      Prog.lift (.error (.runtimeError
        "market source inventory row count changed before summary commit"))
    else
      Prog.write (.persistSummary (some [highWaterId]) highWaterId inventory)
  | _ => return ()

section Inventory

variable (R : InventoryRuntime) (src : Source ℤ MarketQuoteRow)

/-- Whether a checkpoint is before the high water: the condition of the `while` loop. -/
def isBehind (checkpoint : Option ℤ) : Option (List ℤ) → Bool
  | some (highWaterId :: _) => checkpoint.all (fun key => key < highWaterId)
  | _ => false

/-- The `while` loop over the batches. The loop ends at the high water or on an empty batch, and
    the checkpoint is stored with the rows it covers. -/
def scanBatches (highWater : Option (List ℤ)) (batchSize : ℕ) :
    ℕ → Option ℤ → ℕ → InventoryProg Unit
  | fuel, checkpoint, sourceRows =>
    -- the checkpoint has reached the high water
    if isBehind checkpoint highWater = false then pure ()
    else match fuel with
      | 0 => Prog.lift (.error .outOfFuel)
      | fuel + 1 => do
        let batch ← (sourceReadWithRetry R.toRuntime src "market_source_inventory_batch"
          (readMarketInventoryBatch highWater checkpoint batchSize)).within readsView
        let rows ← Prog.lift batch
        if rows = [] then pure ()
        else do
          let (checkpoint, sourceRows) ← accumulateBatch rows sourceRows
          publishInventory (fun r => { r with
            lastPrimaryKey := some [checkpoint]
            rowsScanned := some sourceRows })
          scanBatches highWater batchSize fuel (some checkpoint) sourceRows

/-- The summary of a scanned file, and where it comes from. -/
def finishInventory (highWater : Option (List ℤ)) :
    InventoryProg (SourceInventory × SummarySource) := do
  let s ← Prog.get
  match s.file.readFinalized R highWater with
  | some inventory => return (inventory, .durableCache)
  | none => do
    persistFinalizedInventory (s.file.finalize R) highWater
    return (s.file.finalize R, .exactRecompute)

/-- `bounded_market_source_inventory`. The report follows its phases, scanning with the
    checkpoint of each batch and verified with the counts of the inventory. -/
def boundedMarketSourceInventory (fuel batchSize : ℕ) (highWater : Option (List ℤ)) :
    InventoryProg SourceInventory := do
  -- a composite key has no order to scan by
  if highWater.any (fun key => key.length ≠ 1) then
    Prog.lift (.error (.runtimeError
      "market_quotes inventory requires one primary-key high-water"))
  else do
    let (checkpoint, sourceRows) ← prepareInventory highWater
    publishInventory (fun r => { r with
      phase := some "scanning"
      highWaterPrimaryKey := highWater
      lastPrimaryKey := checkpoint.map (fun key => [key])
      rowsScanned := some sourceRows })
    scanBatches R src highWater batchSize fuel checkpoint sourceRows
    let (inventory, summarySource) ← finishInventory R highWater
    publishInventory (fun r => { r with
      phase := some "verified"
      lastPrimaryKey := highWater
      rowsScanned := some inventory.sourceRows
      lineageCount := some inventory.lineageCount
      finalSummarySource := some summarySource })
    return inventory

end Inventory

end InefficiencyEngine.Migration
