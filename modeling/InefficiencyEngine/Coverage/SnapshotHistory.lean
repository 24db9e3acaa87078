import InefficiencyEngine.Coverage.Snapshot
import InefficiencyEngine.Lib.Machine

namespace InefficiencyEngine.Coverage

/-!
# The history of source coverage

Every published snapshot is a heartbeat of the snapshot worker and a row of
`source_coverage_history` for each of its lanes.  The heartbeats that are older than the history
are brought in by runs of `backfill_source_coverage_history_from_heartbeats`: a run reads the
checkpoint, then a batch of heartbeats behind it, and then writes the rows of the batch and the
new checkpoint in one transaction.  Several runs, the live writer and the heartbeats of all
workers take turns here, on a database that resolves conflicts in the insert itself.
-/

variable (sha256 : String → String)

/-! ### The tables -/

/-- `SOURCE_COVERAGE_SNAPSHOT_WORKER_ID`. -/
def sourceCoverageSnapshotWorkerId : String := "canonical-source-coverage-snapshot"

/-- A row of `worker_heartbeats`; the snapshot is there if the payload holds a valid one. -/
structure Heartbeat where
  id : ℕ
  workerId : String
  /-- `_parse_time` of the row's time -/
  observedAt : Option String
  snapshot : Option SourceCoverageSnapshot

/-- A row of `source_coverage_history`. -/
structure HistoryRow where
  snapshotKey : String
  snapshotObservedAt : String
  publishedAt : String
  heartbeatId : Option ℕ
  laneId : String
  requiredEvidenceClassCount : ℕ
  coveredEvidenceClassCount : ℕ
  healthySourceCount : ℕ
  evidenceClassCoverageSatisfied : Bool
  sourceLayerSufficient : Bool
  coveredEvidenceClasses : List String
  admittedSourceIds : List String
  payload : LaneSourceCoverage
  deriving DecidableEq

/-- The row of `source_coverage_history_migrations`. -/
structure MigrationRow where
  checkpointHeartbeatId : ℕ
  complete : Bool
  updatedAt : String
  deriving DecidableEq

/-- `_snapshot_key`. -/
def snapshotKey (snapshotObservedAt laneId : String) : String :=
  sha256 (snapshotObservedAt ++ "|" ++ laneId)

/-- The row of a lane in `_snapshot_rows`. -/
def snapshotRow (snapshot : SourceCoverageSnapshot) (publishedAt : String)
    (heartbeatId : Option ℕ) (lane : LaneSourceCoverage) : HistoryRow :=
  { snapshotKey := snapshotKey sha256 snapshot.observedAt lane.laneId
    snapshotObservedAt := snapshot.observedAt
    publishedAt := publishedAt
    heartbeatId := heartbeatId
    laneId := lane.laneId
    requiredEvidenceClassCount := lane.requiredEvidenceClasses.length
    coveredEvidenceClassCount := lane.coveredEvidenceClasses.length
    healthySourceCount := lane.healthySourceCount
    evidenceClassCoverageSatisfied := lane.evidenceClassCoverageSatisfied
    sourceLayerSufficient := lane.sourceLayerSufficient
    coveredEvidenceClasses := lane.coveredEvidenceClasses.insertionSort (· ≤ ·)
    admittedSourceIds := sortedDistinct
      ((lane.sources.filter (fun source => source.admitted ∧ source.sourceId ≠ "")).map
        SourceStatus.sourceId)
    payload := lane }

/-- `_snapshot_rows`. -/
def snapshotRows (snapshot : SourceCoverageSnapshot) (publishedAt : String)
    (heartbeatId : Option ℕ) : List HistoryRow :=
  snapshot.lanes.map (snapshotRow sha256 snapshot publishedAt heartbeatId)

/-! ### The writes -/

/-- `INSERT … ON CONFLICT DO NOTHING` of one row. -/
def insertMissingRow (table : List HistoryRow) (row : HistoryRow) : List HistoryRow :=
  if row.snapshotKey ∈ table.map HistoryRow.snapshotKey then table else table ++ [row]

/-- `_insert_missing_rows`: the table, and how many rows were inserted. -/
def insertMissingRows (table rows : List HistoryRow) : List HistoryRow × ℕ :=
  let written := rows.foldl insertMissingRow table
  (written, written.length - table.length)

/-- `_upsert_migration_checkpoint`: the stored row is replaced unless its checkpoint is larger. -/
def upsertMigrationCheckpoint (stored : Option MigrationRow) (row : MigrationRow) :
    Option MigrationRow :=
  match stored with
  | none => some row
  | some current =>
    if current.checkpointHeartbeatId ≤ row.checkpointHeartbeatId then some row else some current

/-- `migration_status()["checkpoint_heartbeat_id"]`. -/
def checkpoint (stored : Option MigrationRow) : ℕ :=
  match stored with
  | none => 0
  | some row => row.checkpointHeartbeatId

/-! ### A run of the backfill -/

/-- What a run returns. -/
structure BackfillResult where
  complete : Bool
  checkpointHeartbeatId : ℕ
  migratedHeartbeats : ℕ
  insertedLaneSnapshots : ℕ
  invalidHeartbeats : ℕ
  batchLimit : ℕ
  deriving DecidableEq

/-- `bounded`. -/
def batchLimit (maxHeartbeats : ℤ) : ℕ := (max 1 (min maxHeartbeats 2000)).toNat

/-- `archive_rows`: the first rows behind the checkpoint, in the order of their ids, which is that
    of the table, and one more to see whether there are others. -/
def archiveRows (heartbeats : List Heartbeat) (checkpoint limit : ℕ) : List Heartbeat :=
  (heartbeats.filter (fun row =>
    row.workerId = sourceCoverageSnapshotWorkerId ∧ checkpoint < row.id)).take (limit + 1)

/-- `lane_rows` of one heartbeat. -/
def heartbeatRows (row : Heartbeat) : List HistoryRow :=
  match row.snapshot with
  | none => []
  | some snapshot =>
    snapshotRows sha256 snapshot (row.observedAt.getD snapshot.observedAt) (some row.id)

/-- `latest_heartbeat_id`: that of the checkpoint and of the batch, valid or not. -/
def latestHeartbeatId (checkpoint : ℕ) (batch : List Heartbeat) : ℕ :=
  batch.foldl (fun latest row => max latest row.id) checkpoint

/-- How far a run has come. -/
inductive BackfillRun
  | started (limit : ℕ)
  | readCheckpoint (limit checkpoint : ℕ)
  | readBatch (limit checkpoint : ℕ) (archive : List Heartbeat)
  | finished (result : BackfillResult)

/-- The database, and the runs that have been started. -/
structure CoverageStore where
  lastHeartbeatId : ℕ
  heartbeats : List Heartbeat
  rows : List HistoryRow
  migration : Option MigrationRow
  runs : List BackfillRun

/-- An empty database. -/
def CoverageStore.empty : CoverageStore :=
  { lastHeartbeatId := 0, heartbeats := [], rows := [], migration := none, runs := [] }

/-- The transaction at the end of a run. -/
def commitBackfill (s : CoverageStore) (limit checkpoint : ℕ) (archive : List Heartbeat)
    (now : String) : CoverageStore × BackfillResult :=
  let batch := archive.take limit
  let complete := ¬ limit < archive.length
  let written := insertMissingRows s.rows (batch.flatMap (heartbeatRows sha256))
  let latest := latestHeartbeatId checkpoint batch
  ({ s with
      rows := written.1
      migration := upsertMigrationCheckpoint s.migration ⟨latest, complete, now⟩ },
    { complete := complete
      checkpointHeartbeatId := latest
      migratedHeartbeats := (batch.filter (fun row => row.snapshot.isSome)).length
      insertedLaneSnapshots := written.2
      invalidHeartbeats := (batch.filter (fun row => row.snapshot.isNone)).length
      batchLimit := limit })

/-! ### The machine -/

/-- What can happen next; a run that crashes is one that takes no further step. -/
inductive CoverageAction
  /-- a worker appends a heartbeat; ids may be skipped -/
  | heartbeat (skipped : ℕ) (workerId : String) (observedAt : Option String)
      (snapshot : Option SourceCoverageSnapshot)
  /-- `record_snapshot` -/
  | recordSnapshot (snapshot : SourceCoverageSnapshot) (publishedAt : String)
      (heartbeatId : Option ℕ)
  /-- a run starts -/
  | start (maxHeartbeats : ℤ)
  /-- a run reads the checkpoint -/
  | readCheckpoint (run : ℕ)
  /-- a run reads its batch -/
  | readBatch (run : ℕ)
  /-- a run writes its rows and the checkpoint -/
  | commit (run : ℕ) (now : String)

/-- One action; a run that is not at that point does nothing. A publisher writes the heartbeat
    and the snapshot in two transactions, and a backfill run reads its checkpoint and its batch
    before it commits both in one. -/
def coverageStep (s : CoverageStore) : CoverageAction → CoverageStore
  | .heartbeat skipped workerId observedAt snapshot =>
    -- ids grow, and a rolled back insertion may skip some
    let id := s.lastHeartbeatId + 1 + skipped
    { s with
      lastHeartbeatId := id
      heartbeats := s.heartbeats ++ [⟨id, workerId, observedAt, snapshot⟩] }
  | .recordSnapshot snapshot publishedAt heartbeatId =>
    { s with
      rows := (insertMissingRows s.rows
        (snapshotRows sha256 snapshot publishedAt heartbeatId)).1 }
  | .start maxHeartbeats => { s with runs := s.runs ++ [.started (batchLimit maxHeartbeats)] }
  -- the checkpoint is read outside of the transaction that moves it
  | .readCheckpoint run =>
    match s.runs[run]? with
    | some (.started limit) =>
      { s with runs := s.runs.set run (.readCheckpoint limit (checkpoint s.migration)) }
    | _ => s
  | .readBatch run =>
    match s.runs[run]? with
    | some (.readCheckpoint limit checkpoint) =>
      { s with
        runs := s.runs.set run
          (.readBatch limit checkpoint (archiveRows s.heartbeats checkpoint limit)) }
    | _ => s
  | .commit run now =>
    match s.runs[run]? with
    | some (.readBatch limit checkpoint archive) =>
      let (written, result) := commitBackfill sha256 s limit checkpoint archive now
      { written with runs := s.runs.set run (.finished result) }
    | _ => s

end InefficiencyEngine.Coverage
