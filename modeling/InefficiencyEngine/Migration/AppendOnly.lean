import InefficiencyEngine.Migration.SourceRead

namespace InefficiencyEngine.Migration

/-!
# The resumable append-only migration

`_migrate_resumable_append_only_table` of `postgres_local_migration`.  The copy walks the
source in keyset batches and upserts them; when the row counts agree, a second walk compares
the rows themselves.  A pass that does not converge is repeated from the beginning, eight
times at most.  The `while` loops take their fuel as an argument: `passFuel` the passes,
`fuel` the batches of a walk.
-/

/-- `MAX_APPEND_ONLY_RECONCILIATION_PASSES`. -/
def maxAppendOnlyReconciliationPasses : ℕ := 8

/-- What the caller of a table migration decides. -/
structure Job where
  /-- `source_table.name`. -/
  name : String
  batchSize : ℕ
  completedBatches : ℕ
  interruptAfterBatches : Option ℕ

variable {K V : Type} [LinearOrder K]

/-- `_source_rows_after_checkpoint`, on the statement ordered by key and limited. -/
def sourceRowsAfterCheckpoint (limit : ℕ) (checkpoint : Option K) (table : KeyedTable K V) :
    List (K × V) :=
  (table.rows.filter (fun row => checkpoint.all (fun key => key < row.1))).take limit

/-- The target rows of the keys of some source rows, in key order. -/
def targetRowsForKeys (target : KeyedTable K V) (sourceRows : List (K × V)) : List (K × V) :=
  target.rows.filter (fun row => row.1 ∈ sourceRows.map Prod.fst)

/-- `_canonical_rows`. -/
def canonicalRows (R : Runtime K V) (rows : List (K × V)) : List String := rows.map R.json

/-- Whether a batch ends the process, as the tests inject it. -/
def interruptIf (interruptAfterBatches : Option ℕ) (completedBatches : ℕ) : Except Raised Unit :=
  if interruptAfterBatches = some completedBatches then
    .error (.interruptedError "injected migration interruption")
  else .ok ()

section Function

variable (R : Runtime K V) (src : Source K V) (job : Job)

/-- The copy loop, from a checkpoint, with the batches completed so far. -/
def copyLoop : ℕ → Option K → ℕ → MigrationProg K V ℕ
  | 0, _, _ => Prog.lift (.error .outOfFuel)
  | fuel + 1, checkpoint, completedBatches => do
    let rows ← sourceReadWithRetry R src "copy_batch"
      (sourceRowsAfterCheckpoint job.batchSize checkpoint)
    match rows.getLast? with
    | none => return completedBatches
    | some last => do
      Prog.write (.upsert rows)
      let s ← Prog.get
      publish (fun r => { r with
        lastPrimaryKey := some last.1
        copiedRowsAtLeast := some s.target.rows.length })
      Prog.lift (interruptIf job.interruptAfterBatches (completedBatches + 1))
      copyLoop fuel (some last.1) (completedBatches + 1)

/-- The verification loop: whether a batch differs, and the rows verified. -/
def verifyLoop : ℕ → Option K → ℕ → MigrationProg K V (Bool × ℕ)
  | 0, _, _ => Prog.lift (.error .outOfFuel)
  | fuel + 1, checkpoint, verifiedCount => do
    let sourceRows ← sourceReadWithRetry R src "verification_batch"
      (sourceRowsAfterCheckpoint job.batchSize checkpoint)
    match sourceRows.getLast? with
    | none => return (false, verifiedCount)
    | some last => do
      let s ← Prog.get
      if canonicalRows R sourceRows ≠ canonicalRows R (targetRowsForKeys s.target sourceRows) then
        return (true, verifiedCount)
      else verifyLoop fuel (some last.1) (verifiedCount + sourceRows.length)

/-- The report of a pass that did not converge. -/
def recordReconciliation (reconciliationPass : ℤ) (reason : String) : MigrationProg K V Unit :=
  publish (fun r => { r with
    reconciliationPass := some (reconciliationPass + 1)
    lastPrimaryKey := none
    reconciliationReason := some reason })

/-- The end of a pass that verified `targetCount` rows. The digest covers the target up to its
    own newest key. -/
def finishReconciliation (sourceCount targetCount : ℕ) : MigrationProg K V Unit := do
  let s ← Prog.get
  let highWater := captureHighWater s.target
  let digest := rowDigest R s.target highWater
  if digest.1 ≠ targetCount then
    Prog.lift (.error (.runtimeError ("append-only target digest count mismatch for " ++ job.name
      ++ ": count=" ++ toString targetCount ++ " digest_count=" ++ toString digest.1)))
  else
    publish (fun r => { r with
      reconciliationReason := none
      sourceRows := some sourceCount
      verifiedRows := some targetCount
      rowDigest := some digest.2
      highWaterPrimaryKey := some highWater
      lastPrimaryKey := highWater
      verificationScope := some "append_only_exact_content_reconciliation"
      verified := true })

/-- The reconciliation passes from the `reconciliationPass`-th on. A pass copies, counts both
    sides, verifies every row and counts the source again; whatever does not agree starts
    another pass from the first row. -/
def reconcile (fuel : ℕ) : ℕ → ℤ → Option K → ℕ → MigrationProg K V ℕ
  | passFuel, reconciliationPass, checkpoint, completedBatches =>
    if (maxAppendOnlyReconciliationPasses : ℤ) < reconciliationPass then
      Prog.lift (.error (.runtimeError ("append-only reconciliation did not converge for "
        ++ job.name ++ " after " ++ toString maxAppendOnlyReconciliationPasses ++ " passes")))
    else
      match passFuel with
      -- the fuel bounds the passes here, the limit of the source bounds them there
      | 0 => Prog.lift (.error .outOfFuel)
      | passFuel + 1 => do
        publish (fun r => { r with
          reconciliationPass := some reconciliationPass
          lastPrimaryKey := checkpoint })
        let completedBatches ← copyLoop R src job fuel checkpoint completedBatches
        let sourceCount ← sourceReadWithRetry R src "source_count" (fun t => t.rows.length)
        let s ← Prog.get
        let targetCount := s.target.rows.length
        publish (fun r => { r with
          sourceRowsObserved := some sourceCount
          targetRowsObserved := some targetCount })
        -- the counts differ after the copy: rows came in between
        if sourceCount ≠ targetCount then do
          recordReconciliation reconciliationPass "source_target_count_not_converged"
          reconcile fuel passFuel (reconciliationPass + 1) none completedBatches
        else do
          let (contentMismatch, verifiedCount) ← verifyLoop R src job fuel none 0
          let sourceCountAfter ← sourceReadWithRetry R src "final_source_count"
            (fun t => t.rows.length)
          let s ← Prog.get
          let targetCountAfter := s.target.rows.length
          -- a mismatch, or rows that came during the verification
          if contentMismatch ∨ verifiedCount ≠ sourceCountAfter
              ∨ sourceCountAfter ≠ targetCountAfter then do
            recordReconciliation reconciliationPass
              (if contentMismatch then "row_content_not_converged"
                else "source_changed_during_exact_verification")
            reconcile fuel passFuel (reconciliationPass + 1) none completedBatches
          else do
            finishReconciliation R job sourceCountAfter targetCountAfter
            return completedBatches

/-- `_migrate_resumable_append_only_table`. A table that is verified and untouched is left
    alone. Otherwise the walk resumes from the last key and runs further passes until a pass
    finds the contents equal. -/
def migrateResumableAppendOnlyTable (passFuel fuel : ℕ) : MigrationProg K V ℕ := do
  let s ← Prog.get
  let intact ← Prog.lift (verifiedTargetIsIntact R job.name s.target s.report)
  if intact then return job.completedBatches
  else do
    let checkpoint := s.report.lastPrimaryKey
    let reconciliationPass := max 1 (s.report.reconciliationPass.getD 1)
    publish (fun r => { r with
      verified := false
      migrationMode := some "resumable_append_only_reconciliation"
      verificationScope := some "append_only_exact_content_reconciliation"
      highWaterPrimaryKey := none })
    reconcile R src job fuel passFuel reconciliationPass checkpoint job.completedBatches

end Function

end InefficiencyEngine.Migration
