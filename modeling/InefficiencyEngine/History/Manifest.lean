import InefficiencyEngine.Lib.Dict
import InefficiencyEngine.Lib.Durable
import InefficiencyEngine.Portfolio.Market
import Mathlib.Data.List.Sort
import Mathlib.Logic.Function.Basic

namespace InefficiencyEngine.History

open Portfolio Durable

/-!
# The file history of market quotes: files and manifest

`PartitionedMarketHistory` keeps the quotes of a root in immutable Parquet files and lists them
in a SQLite manifest: a row for each published partition, a row for each lineage hash, and the
files a compaction has made garbage.

* a file is its rows, and a path its directory and name; a temporary file has a hidden name;
* a SQLite transaction is one write, which takes effect at its commit;
* the name of a file is a `uuid4`, so no two files ever share one.
-/

/-! ### Quotes and records -/

/-- `MarketQuote` with the fields that only its serialization reads, as its validator accepts
    it. -/
structure QuoteRecord extends MarketQuote where
  quoteCurrency : Option String
  contractKey : Option String
  expiresAt : Option Instant
  bid : Option Positive
  ask : Option Positive
  source : String
  bid_le_ask : ∀ b ∈ bid, ∀ a ∈ ask, (b : ℚ) ≤ a
  dated : marketKind = .future → expiresAt.isSome

/-- What `append_records` is given: a source id, a lineage hash and a quote. -/
structure HistoryRecord where
  sourceId : Option ℤ
  lineage : String
  quote : QuoteRecord

/-- The UTC date of an instant, in days. -/
def utcDate (t : Instant) : ℤ := Int.fdiv t 86400000000

/-! ### Files -/

/-- What the rows of a partition share: venue, manifest asset and UTC date. -/
structure GroupKey where
  venue : String
  asset : String
  day : ℤ
  deriving DecidableEq

/-- The name of a partition file. -/
inductive FileName
  | part (id : Uuid)
  | compact (id : Uuid)
  deriving DecidableEq

/-- The `uuid4` in a file name. -/
def FileName.uuid : FileName → Uuid
  | .part id => id
  | .compact id => id

/-- A path under the root of the history; a hidden name begins with a dot. -/
structure FilePath where
  directory : GroupKey
  name : FileName
  isHidden : Bool
  deriving DecidableEq

/-- The temporary file that is renamed to a path. -/
def FilePath.temporary (path : FilePath) : FilePath := { path with isHidden := true }

/-- A row of a Parquet file; the payload is the quote. -/
structure HistoryRow where
  historyId : ℤ
  lineage : String
  venue : String
  asset : String
  observedAt : Instant
  quote : QuoteRecord

/-! ### The manifest -/

/-- `MULTI_ASSET_PARTITION`. -/
def multiAssetPartition : String := "__all_assets__"

/-- `MAX_PARTITION_FILES_PER_GROUP`. -/
def maxPartitionFilesPerGroup : ℕ := 16

/-- A row of `partitions`. -/
structure Partition where
  path : FilePath
  group : GroupKey
  minObservedAt : Instant
  maxObservedAt : Instant
  rowCount : ℕ
  checksum : String

/-- A row of `quote_lineage`. -/
structure LineageRow where
  lineage : String
  path : FilePath
  historyId : ℤ

/-- The tables of `manifest.sqlite3`. -/
structure Manifest where
  partitions : List Partition
  lineages : List LineageRow
  garbage : List FilePath

/-- What lies under a root. -/
structure HistoryWorld where
  files : FilePath → Option (List HistoryRow)
  manifest : Manifest

/-- An empty root. -/
def HistoryWorld.empty : HistoryWorld := ⟨fun _ => none, ⟨[], [], []⟩⟩

/-- The library functions the history uses. -/
structure HistoryRuntime where
  /-- `str.upper`, which leaves no lower-case letter. -/
  upper : String → String
  upper_ne_multiAsset : ∀ text, upper text ≠ multiAssetPartition
  /-- The `i`-th `uuid.uuid4().hex` of an operation. -/
  uuid4 : ℕ → ℕ → Uuid
  uuid4_injective : Function.Injective2 uuid4
  /-- The text of a path relative to the root. -/
  pathText : FilePath → String
  /-- `_file_checksum` of a file with some rows. -/
  checksum : List HistoryRow → String
  /-- The digest of the sorted lineage hashes. -/
  lineageDigest : List String → String

/-! ### Writes -/

/-- A durable step: one on a file, or a transaction on the manifest. -/
inductive HistoryWrite
  /-- A file is written. -/
  | put (path : FilePath) (rows : List HistoryRow)
  /-- `os.replace`. -/
  | rename (source target : FilePath)
  /-- `Path.unlink`, which leaves a missing file missing. -/
  | unlink (path : FilePath)
  /-- The commit of an append. -/
  | insertPartition (partition : Partition) (lineages : List LineageRow)
  /-- The commit of a compaction. -/
  | switchPartitions (partition : Partition) (old : List FilePath)
  /-- Rows of `compaction_garbage` are deleted. -/
  | clearGarbage (paths : List FilePath)

/-- The manifest after the commit of a compaction: the new partition takes the lineages of the
    old ones, which become garbage. -/
def Manifest.switch (manifest : Manifest) (partition : Partition) (old : List FilePath) :
    Manifest where
  partitions := (manifest.partitions ++ [partition]).filter (fun p => p.path ∉ old)
  lineages := manifest.lineages.map (fun row =>
    if row.path ∈ old then { row with path := partition.path } else row)
  garbage := manifest.garbage ++ old.filter (fun path => path ∉ manifest.garbage)

/-- What a durable step does. -/
def HistoryWorld.commit (w : HistoryWorld) : HistoryWrite → HistoryWorld
  | .put path rows => { w with files := Function.update w.files path (some rows) }
  | .rename source target =>
    { w with files := Function.update (Function.update w.files target (w.files source)) source none }
  | .unlink path => { w with files := Function.update w.files path none }
  | .insertPartition partition lineages =>
    { w with manifest := { w.manifest with
        partitions := w.manifest.partitions ++ [partition]
        lineages := w.manifest.lineages ++ lineages } }
  | .switchPartitions partition old => { w with manifest := w.manifest.switch partition old }
  | .clearGarbage paths =>
    { w with manifest := { w.manifest with
        garbage := w.manifest.garbage.filter (fun path => path ∉ paths) } }

instance : Durable HistoryWorld HistoryWrite := ⟨HistoryWorld.commit⟩

/-- A step of the history. -/
abbrev HistoryProg := Prog HistoryWorld HistoryWrite Raised

namespace HistoryWorld

variable (w : HistoryWorld)

/-- The rows in the file of a partition. -/
def rowsAt (partition : Partition) : List HistoryRow := (w.files partition.path).getD []

/-- The rows of all listed partitions: what the history holds. -/
def storedRows : List HistoryRow := w.manifest.partitions.flatMap w.rowsAt

/-- A path is listed in the manifest. -/
def listed (path : FilePath) : Prop := ∃ p ∈ w.manifest.partitions, p.path = path

end HistoryWorld

end InefficiencyEngine.History
