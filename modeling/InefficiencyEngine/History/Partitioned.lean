import InefficiencyEngine.History.Manifest
import Mathlib.Data.Int.Order.Basic
import Mathlib.Order.Bounds.Basic
import Mathlib.Data.String.Basic

namespace InefficiencyEngine.History

open Portfolio Durable

/-!
# Appending, compacting and reaping

`append_records` groups the records of a batch and stores a new partition for each group: a
temporary file, a rename and one transaction.  When a group has sixteen partitions it is
compacted first: its rows are copied into one file, the manifest is switched in one transaction,
and the old files, now garbage, are deleted.

Every step of the file system and of SQLite may raise; the operations then delete the files they
have not published.  The two classes differ in the group of a record (`Layout`).
-/

/-- Which class appends or reads. -/
inductive Layout
  /-- `PartitionedMarketHistory`: one group for each venue, asset and day. -/
  | fine
  /-- `CoarsePartitionedMarketHistory`: one group for each venue and day. -/
  | coarse
  deriving DecidableEq

/-! ### What may fail -/

/-- A step that may raise. -/
inductive StepPoint
  | lock
  | read (path : FilePath)
  | write
  | sync
  | publish
  | commit
  | garbage
  | lookup (path : FilePath)
  | clear
  deriving DecidableEq

/-- What goes wrong in an operation: the steps that raise, for each file it writes, and the
    files that cannot be deleted. -/
structure Faults where
  raises : ℕ → StepPoint → Bool
  unlinkFails : FilePath → Bool

/-- Nothing goes wrong. -/
def Faults.none : Faults := ⟨fun _ _ => false, fun _ => false⟩

/-- One call: its number, from which its file names are drawn, and its faults. -/
structure Operation where
  run : ℕ
  faults : Faults

namespace Operation

variable (op : Operation)

/-- Raise, if this step does. -/
def attempt (i : ℕ) (point : StepPoint) : HistoryProg Unit :=
  Prog.lift (if op.faults.raises i point then .error (.external "OSError") else .ok ())

/-- Delete a file, if that is possible. -/
def remove (path : FilePath) : HistoryProg Unit :=
  Prog.writeOption (if op.faults.unlinkFails path then none else some (.unlink path))

/-- What an operation does before it raises: delete the temporary and the final file. -/
def discard (path : FilePath) : HistoryProg Unit := do
  op.remove path.temporary
  op.remove path

end Operation

/-! ### Reaping -/

/-- The loop of `_reap_compaction_garbage`. -/
def reapFiles (op : Operation) (i : ℕ) : List FilePath → HistoryProg (List FilePath)
  | [] => pure []
  | path :: rest => do
    op.attempt i (.lookup path)
    let w ← Prog.get
    if w.manifest.partitions.any (fun p => p.path = path) then
      Prog.write (.clearGarbage [path])
      reapFiles op i rest
    else if op.faults.unlinkFails path then
      reapFiles op i rest
    else
      Prog.write (.unlink path)
      let cleared ← reapFiles op i rest
      pure (path :: cleared)

/-- `_reap_compaction_garbage`. The files of past compactions are unlinked first, and then taken
    off the list, so that a call cut off in between only unlinks again. -/
def reapCompactionGarbage (op : Operation) (i : ℕ) : HistoryProg ℕ := do
  op.attempt i .garbage
  let w ← Prog.get
  let cleared ← reapFiles op i w.manifest.garbage
  if cleared = [] then
    pure 0
  else
    op.attempt i .clear
    Prog.write (.clearGarbage cleared)
    pure cleared.length

/-! ### Compacting -/

/-- `min` of the observation times. -/
def earliest (times : List Instant) : Instant := times.min?.getD 0

/-- `max` of the observation times. -/
def latest (times : List Instant) : Instant := times.max?.getD 0

theorem isLeast_earliest {times : List Instant} (h : times ≠ []) :
    IsLeast {t | t ∈ times} (earliest times) := by
  cases hmin : times.min? with
  | none => exact absurd (List.min?_eq_none_iff.mp hmin) h
  | some t =>
    rw [earliest, hmin]
    exact List.min?_eq_some_iff.mp hmin

theorem isGreatest_latest {times : List Instant} (h : times ≠ []) :
    IsGreatest {t | t ∈ times} (latest times) := by
  cases hmax : times.max? with
  | none => exact absurd (List.max?_eq_none_iff.mp hmax) h
  | some t =>
    rw [latest, hmax]
    exact List.max?_eq_some_iff.mp hmax

/-- The partitions of a group, by path. -/
def HistoryWorld.groupParts (R : HistoryRuntime) (w : HistoryWorld) (key : GroupKey) :
    List Partition :=
  (w.manifest.partitions.filter (fun p => p.group = key)).insertionSort
    (fun a b => R.pathText a.path ≤ R.pathText b.path)

/-- The rows of a partition whose file is as the manifest says. -/
def verifiedRows (R : HistoryRuntime) (w : HistoryWorld) (part : Partition) :
    Except Raised (List HistoryRow) :=
  match w.files part.path with
  | none => .error (.runtimeError ("cannot compact missing partition: " ++ R.pathText part.path))
  | some rows =>
    if R.checksum rows ≠ part.checksum then
      .error (.runtimeError ("cannot compact checksum mismatch: " ++ R.pathText part.path))
    else if rows.length ≠ part.rowCount then
      .error (.runtimeError ("cannot compact row count mismatch: " ++ R.pathText part.path))
    else
      .ok rows

section Operations

variable (R : HistoryRuntime) (op : Operation)

/-- The copying loop of `compact_partition_group`. -/
def rewriteParts (i : ℕ) (target : FilePath) :
    List Partition → List HistoryRow → HistoryProg (List HistoryRow)
  | [], written => pure written
  | part :: rest, written => do
    op.attempt i (.read part.path)
    let w ← Prog.get
    let rows ← Prog.lift (verifiedRows R w part)
    Prog.write (.put target.temporary (written ++ rows))
    rewriteParts i target rest (written ++ rows)

/-- The manifest row of a compacted group. -/
def compactedPartition (key : GroupKey) (target : FilePath) (parts : List Partition)
    (rows : List HistoryRow) : Partition where
  path := target
  group := key
  minObservedAt := earliest (parts.map Partition.minObservedAt)
  maxObservedAt := latest (parts.map Partition.maxObservedAt)
  rowCount := (parts.map Partition.rowCount).sum
  checksum := R.checksum rows

/-- `compact_partition_group` up to its commit. The counts of the rows and of the lineages are
    compared with the manifest before the commit, so a file that differs is never listed. -/
def switchParts (i : ℕ) (key : GroupKey) (target : FilePath) (parts : List Partition) :
    HistoryProg Unit := do
  let expectedRows := (parts.map Partition.rowCount).sum
  let oldPaths := parts.map Partition.path
  let rows ← rewriteParts R op i target parts []
  if rows.length ≠ expectedRows then
    Prog.lift (.error (.runtimeError ("compaction row count mismatch: expected="
      ++ toString expectedRows ++ " written=" ++ toString rows.length)))
  else
    -- the temporary file is complete and gets its name
    op.attempt i .sync
    Prog.write (.rename target.temporary target)
    op.attempt i .publish
    let w ← Prog.get
    let moved := (w.manifest.lineages.filter (fun row => row.path ∈ target :: oldPaths)).length
    if moved ≠ expectedRows then
      Prog.lift (.error (.runtimeError ("compaction lineage count mismatch: expected="
        ++ toString expectedRows ++ " moved=" ++ toString moved)))
    else
      -- the manifest lists the new partition in place of the old ones
      op.attempt i .commit
      Prog.write (.switchPartitions (compactedPartition R key target parts rows) oldPaths)

/-- `compact_partition_group`: whether the group was compacted. -/
def compactPartitionGroup (key : GroupKey) (i : ℕ) : HistoryProg Bool := do
  op.attempt i .lock
  let w ← Prog.get
  match w.groupParts R key with
  | first :: second :: rest =>
    let target : FilePath := ⟨first.path.directory, .compact (R.uuid4 op.run i), false⟩
    Prog.onError (switchParts R op i key target (first :: second :: rest)) (op.discard target)
    let _ ← reapCompactionGarbage op i
    pure true
  | _ => pure false

/-! ### Appending -/

/-- The records of a group, the last one for each lineage. -/
def candidates (records : List HistoryRecord) : List HistoryRecord :=
  (Dict.collect HistoryRecord.lineage records).values

/-- A lineage is in `quote_lineage`. -/
def Manifest.stored (manifest : Manifest) (lineage : String) : Prop :=
  lineage ∈ manifest.lineages.map LineageRow.lineage

instance (manifest : Manifest) (lineage : String) : Decidable (manifest.stored lineage) :=
  inferInstanceAs (Decidable (lineage ∈ manifest.lineages.map LineageRow.lineage))

/-- The order of the rows of a file: by observation time, then by lineage. -/
def HistoryRecord.before (a b : HistoryRecord) : Prop :=
  a.quote.observedAt < b.quote.observedAt
    ∨ (a.quote.observedAt = b.quote.observedAt ∧ a.lineage ≤ b.lineage)

instance : DecidableRel HistoryRecord.before := fun a b =>
  inferInstanceAs (Decidable (a.quote.observedAt < b.quote.observedAt
    ∨ (a.quote.observedAt = b.quote.observedAt ∧ a.lineage ≤ b.lineage)))

/-- The candidates that are not stored yet, in the order of the file. -/
def Manifest.accepted (manifest : Manifest) (records : List HistoryRecord) :
    List HistoryRecord :=
  ((candidates records).filter (fun record => ¬ manifest.stored record.lineage)).insertionSort
    HistoryRecord.before

/-- `COALESCE(MAX(history_id), 0) + 1`. -/
def Manifest.nextId (manifest : Manifest) : ℤ :=
  (manifest.lineages.map LineageRow.historyId).max?.getD 0 + 1

/-- The source ids, when all are given, pairwise distinct and unused; else the next free ones. -/
def Manifest.historyIds (manifest : Manifest) (accepted : List HistoryRecord) : List ℤ :=
  let requested := accepted.map HistoryRecord.sourceId
  let ids := requested.filterMap id
  if none ∉ requested ∧ ids.Nodup ∧ ∀ row ∈ manifest.lineages, row.historyId ∉ ids then
    ids
  else
    (List.range accepted.length).map (fun (k : ℕ) => manifest.nextId + k)

/-- The group of a record. -/
def Layout.group (layout : Layout) (record : HistoryRecord) : GroupKey where
  venue := record.quote.venue
  asset :=
    match layout with
    | .fine => R.upper record.quote.asset
    | .coarse => multiAssetPartition
  day := utcDate record.quote.observedAt

/-- The row of an accepted record. -/
def Layout.row (layout : Layout) (key : GroupKey) (record : HistoryRecord) (historyId : ℤ) :
    HistoryRow where
  historyId := historyId
  lineage := record.lineage
  venue := key.venue
  asset :=
    match layout with
    | .fine => key.asset
    | .coarse => R.upper record.quote.asset
  observedAt := record.quote.observedAt
  quote := record.quote

/-- The lineage row of a row of a file. -/
def HistoryRow.lineageRow (path : FilePath) (row : HistoryRow) : LineageRow :=
  ⟨row.lineage, path, row.historyId⟩

/-- The manifest row of a new file. -/
def newPartition (key : GroupKey) (path : FilePath) (rows : List HistoryRow) : Partition where
  path := path
  group := key
  minObservedAt := earliest (rows.map HistoryRow.observedAt)
  maxObservedAt := latest (rows.map HistoryRow.observedAt)
  rowCount := rows.length
  checksum := R.checksum rows

/-- The rows of a new partition. -/
def newRows (layout : Layout) (key : GroupKey) (manifest : Manifest)
    (records : List HistoryRecord) : List HistoryRow :=
  List.zipWith (layout.row R key) (manifest.accepted records)
    (manifest.historyIds (manifest.accepted records))

/-- Write a file, publish it and list it. -/
def storeRows (i : ℕ) (key : GroupKey) (target : FilePath) (rows : List HistoryRow) :
    HistoryProg Unit := do
  op.attempt i .write
  Prog.write (.put target.temporary rows)
  op.attempt i .sync
  Prog.write (.rename target.temporary target)
  op.attempt i .publish
  op.attempt i .commit
  Prog.write (.insertPartition (newPartition R key target rows) (rows.map (·.lineageRow target)))

/-- `_append_partition` once the group has room: store the candidates that are new. -/
def appendAccepted (layout : Layout) (key : GroupKey) (records : List HistoryRecord) (i : ℕ) :
    HistoryProg (ℕ × ℕ) := do
  let w ← Prog.get
  let accepted := w.manifest.accepted records
  if accepted = [] then
    pure (0, i)
  else
    let rows := newRows R layout key w.manifest records
    let target : FilePath := ⟨key, .part (R.uuid4 op.run i), false⟩
    Prog.onError (storeRows R op i key target rows) (op.discard target)
    pure (accepted.length, i + 1)

/-- `_append_partition` and `_append_coarse_partition`: the number of rows written and the next
    file name.  The function calls itself after a compaction, at most `fuel` times. -/
def appendPartition (layout : Layout) (key : GroupKey) (records : List HistoryRecord) :
    ℕ → ℕ → HistoryProg (ℕ × ℕ)
  | 0, _ => Prog.lift (.error (.external "RecursionError"))
  | fuel + 1, i => do
    op.attempt i .lock
    let w ← Prog.get
    if maxPartitionFilesPerGroup ≤ (w.groupParts R key).length then
      let _ ← compactPartitionGroup R op key i
      appendPartition layout key records fuel (i + 1)
    else
      appendAccepted R op layout key records i

/-- How often a function may call itself. -/
def recursionLimit : ℕ := 1000

/-- The records of each group, in the order of the batch. -/
def Layout.grouped (layout : Layout) (records : List HistoryRecord) :
    Dict GroupKey (List HistoryRecord) :=
  Dict.group (layout.group R) records

/-- Append the records of one group to what was written before. -/
def appendGroup (layout : Layout) (progress : ℕ × ℕ) (item : GroupKey × List HistoryRecord) :
    HistoryProg (ℕ × ℕ) := do
  let (written, next) ← appendPartition R op layout item.1 item.2 recursionLimit progress.2
  pure (progress.1 + written, next)

/-- `append_records`: the number of rows written. -/
def appendRecords (layout : Layout) (records : List HistoryRecord) : HistoryProg ℕ :=
  if records.any (fun record => record.lineage = "") then
    Prog.lift (.error (.valueError "market history lineage_hash is required"))
  else do
    let (written, _) ← (layout.grouped R records).items.foldlM (appendGroup R op layout) (0, 0)
    pure written

end Operations

end InefficiencyEngine.History
