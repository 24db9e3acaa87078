import InefficiencyEngine.Migration.AppendOnly
import Mathlib.Data.Int.Order.Basic

namespace InefficiencyEngine.Migration

/-!
# The monotonic high-water migration

`migrate_monotonic_integer_append_only_table` of `stage_one_monotonic_append_only`.  The
newest key of the source is captured once and published; the rows up to it are copied in
keyset batches from the published checkpoint, without touching rows the target has; a second
walk compares them with the target and hashes them.
-/

/-- `MIGRATION_MODE`. -/
def monotonicMigrationMode : String := "captured_monotonic_integer_high_water"

/-- `VERIFICATION_SCOPE`. -/
def monotonicVerificationScope : String := "captured_monotonic_integer_high_water"

/-- `MAX_BATCH_SIZE`. -/
def maxBatchSize : ℕ := 256

/-- `_bounded_batch_size`. -/
def boundedBatchSize (requested : ℕ) : ℕ := max 1 (min requested maxBatchSize)

variable {V : Type}

/-- `_source_batch`. The rows after the checkpoint and up to the high water, of which a batch
    takes the first. -/
def sourceBatch (batchSize : ℕ) (highWater checkpoint : Option ℤ) (table : KeyedTable ℤ V) :
    List (ℤ × V) :=
  match highWater with
  | none => []
  | some highWater =>
    (table.rows.filter (fun row => row.1 ≤ highWater
      && checkpoint.all (fun key => key < row.1))).take batchSize

section Function

variable (R : Runtime ℤ V) (src : Source ℤ V) (job : Job)

/-- The high water of the report, or a new one that is published first. -/
def monotonicHighWater : MigrationProg ℤ V (Option ℤ) := do
  let s ← Prog.get
  if s.report.snapshotHighWaterCaptured then return s.report.snapshotHighWaterPrimaryKey
  else do
    let highWater ← sourceReadWithRetry R src "snapshot_high_water_capture" captureHighWater
    publish (fun r => { r with
      snapshotHighWaterPrimaryKey := highWater
      snapshotHighWaterCaptured := true
      snapshotPhase := some "high_water_captured" })
    return highWater

/-- The copy loop: the batches completed. -/
def monotonicCopyLoop (highWater : Option ℤ) : ℕ → Option ℤ → ℕ → ℕ → MigrationProg ℤ V ℕ
  | 0, _, _, _ => Prog.lift (.error .outOfFuel)
  | fuel + 1, checkpoint, copied, completedBatches => do
    let rows ← sourceReadWithRetry R src "snapshot_copy_batch"
      (sourceBatch (boundedBatchSize job.batchSize) highWater checkpoint)
    match rows.getLast? with
    | none => return completedBatches
    | some last => do
      Prog.write (.insertIgnore rows)
      publish (fun r => { r with
        lastPrimaryKey := some last.1
        snapshotRowsCopied := copied + rows.length })
      Prog.lift (interruptIf job.interruptAfterBatches (completedBatches + 1))
      monotonicCopyLoop highWater fuel (some last.1) (copied + rows.length) (completedBatches + 1)

/-- The verification loop: the rows it has compared. -/
def monotonicVerifyLoop (highWater : Option ℤ) :
    ℕ → Option ℤ → List (ℤ × V) → MigrationProg ℤ V (List (ℤ × V))
  | 0, _, _ => Prog.lift (.error .outOfFuel)
  | fuel + 1, checkpoint, verified => do
    let sourceRows ← sourceReadWithRetry R src "snapshot_verification_batch"
      (sourceBatch (boundedBatchSize job.batchSize) highWater checkpoint)
    match sourceRows.getLast? with
    | none => return verified
    | some last => do
      let s ← Prog.get
      if canonicalRows R sourceRows ≠ canonicalRows R (targetRowsForKeys s.target sourceRows) then
        Prog.lift (.error (.runtimeError ("captured row-content mismatch for " ++ job.name)))
      else do
        publish (fun r => { r with
          snapshotRowsVerified := (verified ++ sourceRows).length })
        monotonicVerifyLoop highWater fuel (some last.1) (verified ++ sourceRows)

/-- The end of a migration that verified these rows. The target is digested up to the high
    water, and any difference from the verified rows raises before the report is finished. -/
def finishMonotonic (highWater : Option ℤ) (verified : List (ℤ × V)) : MigrationProg ℤ V Unit := do
  let s ← Prog.get
  let target := rowDigest R s.target highWater
  if target.1 ≠ verified.length ∨ target.2 ≠ R.digest verified then
    Prog.lift (.error (.runtimeError ("captured monotonic snapshot mismatch for " ++ job.name
      ++ ": source=" ++ toString verified.length ++ "/" ++ R.digest verified
      ++ " target=" ++ toString target.1 ++ "/" ++ target.2)))
  else
    publish (fun r => { r with
      sourceRows := some verified.length
      verifiedRows := some verified.length
      snapshotRowCount := some verified.length
      snapshotRowsCopied := verified.length
      snapshotRowsVerified := verified.length
      rowDigest := some target.2
      highWaterPrimaryKey := some highWater
      lastPrimaryKey := highWater
      verificationScope := some monotonicVerificationScope
      snapshotPhase := some "verified"
      verified := true })

/-- Whether a report says that this migration has verified an intact target. -/
def monotonicTargetIsIntact (s : World ℤ V) : Except Raised Bool :=
  if s.report.verified = true ∧ s.report.migrationMode = some monotonicMigrationMode then
    verifiedTargetIsIntact R job.name s.target s.report
  else .ok false

/-- A report of another migration is cleared. -/
def resetReport : MigrationProg ℤ V Unit := do
  let s ← Prog.get
  if s.report.migrationMode ≠ some monotonicMigrationMode then
    publish (fun r => { TableReport.cleared r.transport with
      migrationMode := some monotonicMigrationMode
      verificationScope := some monotonicVerificationScope
      snapshotPhase := some "capturing_high_water" })
  else return ()

/-- `migrate_monotonic_integer_append_only_table`; `beforeSnapshotCopy` is the precondition a
    caller may provide, which raises or returns. A run that was interrupted goes on at the
    checkpoint of its report, while the verification always starts over. -/
def migrateMonotonicIntegerAppendOnlyTable
    (beforeSnapshotCopy : Option ℤ → Except Raised Unit) (fuel : ℕ) : MigrationProg ℤ V ℕ := do
  let s ← Prog.get
  let intact ← Prog.lift (monotonicTargetIsIntact R job s)
  if intact then return job.completedBatches
  else do
    resetReport
    let highWater ← monotonicHighWater R src
    Prog.lift (beforeSnapshotCopy highWater)
    let s ← Prog.get
    -- where an interrupted copy goes on; the verification below starts without a checkpoint
    let checkpoint := s.report.lastPrimaryKey
    let copied := s.report.snapshotRowsCopied
    publish (fun r => { r with snapshotPhase := some "copying_snapshot" })
    let completedBatches ← monotonicCopyLoop R src job highWater fuel checkpoint copied
      job.completedBatches
    publish (fun r => { r with
      snapshotPhase := some "verifying_snapshot"
      snapshotRowsVerified := 0 })
    let verified ← monotonicVerifyLoop R src job highWater fuel none []
    finishMonotonic R job highWater verified
    return completedBatches

end Function

end InefficiencyEngine.Migration
