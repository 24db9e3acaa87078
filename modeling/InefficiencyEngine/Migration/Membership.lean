import InefficiencyEngine.Lib.StoreView
import InefficiencyEngine.Migration.AppendOnly

namespace InefficiencyEngine.Migration

open Durable

/-!
# The captured-membership migration

`_migrate_captured_append_only_table` of `stage_one_local_persistence_migration`.  The keys
that one read of the source shows are written to a manifest file, a JSON line each, and the
report then says how many they are and what the digest of the file is.  The rows of these
keys are copied in batches of the manifest, those that are missing only, and in a second
pass over the manifest compared with the source.

The manifest is a file beside the report: it is replaced as a whole before the report
mentions it, so that the two can be apart after a crash.  The temporary file it is written
to is never read, and the reports on the way through a capture update entries that nothing
reads; the model has neither.
-/

/-! ### The runtime and the world -/

/-- The library functions this migration calls besides. -/
structure ManifestRuntime (K V : Type) extends Runtime K V where
  /-- `json.dumps(key, sort_keys=True, default=str, separators=(",", ":"))`. -/
  jsonKey : K → String
  jsonKey_line : ∀ key, '\n' ∉ (jsonKey key).toList
  /-- `json.loads`; `none` is a `JSONDecodeError`. -/
  loadsKey : String → Option K
  loads_json : ∀ key, loadsKey (jsonKey key) = some key
  /-- `repr` of a list of keys. -/
  reprKeys : List K → String

variable {K V : Type} [LinearOrder K]

/-- The world of a migration with the manifest file, if there is one, and the entry of the
    report that describes it. -/
structure MembershipWorld (K V : Type) [LinearOrder K] where
  world : World K V
  snapshotManifestSha256 : Option String
  manifest : Option String

/-- What this migration does to the world. -/
inductive MembershipWrite (K V : Type)
  | table (write : Write K V)
  /-- A report with another entry on the manifest. -/
  | publishManifest (report : TableReport K) (snapshotManifestSha256 : Option String)
  /-- `os.replace(temporary, path)`. -/
  | replaceManifest (text : String)
  /-- `path.unlink()`. -/
  | unlinkManifest

/-- The world after a write. -/
def MembershipWorld.commit (s : MembershipWorld K V) : MembershipWrite K V → MembershipWorld K V
  | .table write => { s with world := Durable.commit s.world write }
  | .publishManifest report snapshotManifestSha256 =>
    { s with
      world := { s.world with report := report }
      snapshotManifestSha256 := snapshotManifestSha256 }
  | .replaceManifest text => { s with manifest := some text }
  | .unlinkManifest => { s with manifest := none }

instance : Durable (MembershipWorld K V) (MembershipWrite K V) := ⟨MembershipWorld.commit⟩

/-- A step of this migration. -/
abbrev MembershipProg (K V : Type) [LinearOrder K] :=
  Prog (MembershipWorld K V) (MembershipWrite K V) Raised

/-- The world without the manifest. -/
def tableView : StoreView (World K V) (Write K V) (MembershipWorld K V) (MembershipWrite K V) where
  part := MembershipWorld.world
  inject := .table
  part_commit _ _ := rfl

/-- `table_report.update(..)` and `_publish`, of the entry on the manifest too. -/
def publishManifest (update : TableReport K → TableReport K)
    (snapshotManifestSha256 : Option String) : MembershipProg K V Unit := do
  let s ← Prog.get
  Prog.write (.publishManifest (update s.world.report) snapshotManifestSha256)

/-! ### The manifest -/

/-- `SNAPSHOT_MIGRATION_MODE`. -/
def snapshotMigrationMode : String := "captured_primary_key_membership_manifest"

/-- `SNAPSHOT_VERIFICATION_SCOPE`. -/
def snapshotVerificationScope : String := "captured_primary_key_membership"

/-- `MAX_SNAPSHOT_BATCH_SIZE`. -/
def maxSnapshotBatchSize : ℕ := 256

/-- `_effective_batch_size`. -/
def effectiveBatchSize (requested : ℕ) : ℕ := max 1 (min requested maxSnapshotBatchSize)

/-- The name of `_manifest_path`. -/
def manifestName (table : String) : String := table ++ "-stage-one-primary-keys.jsonl"

/-- The keys of some rows. -/
def keysOf (rows : List (K × V)) : List K := rows.map Prod.fst

/-- `_rows_for_keys`. -/
def rowsForKeys (keys : List K) (table : KeyedTable K V) : List (K × V) :=
  table.rows.filter (fun row => row.1 ∈ keys)

section Manifest

variable (R : ManifestRuntime K V)

/-- What a capture writes to the manifest. -/
def manifestText (keys : List K) : String := unlines (keys.map R.jsonKey)

/-- `json.loads` of a line. -/
def loadsLine (error : Raised) (line : String) : Except Raised K :=
  match R.loadsKey line with
  | some key => .ok key
  | none => .error error

/-- `_manifest_inventory`. How many keys a manifest has, its hash, and the last key. -/
def manifestInventory (name : String) (text : String) : Except Raised (ℕ × String × Option K) := do
  let keys ← (linesOf text).1.mapM (loadsLine R
    (.runtimeError ("snapshot membership manifest is invalid: " ++ name)))
  if (linesOf text).2 ≠ "" then
    .error (.runtimeError ("snapshot membership manifest is truncated: " ++ name))
  else .ok (keys.length, R.sha256 text, keys.getLast?)

/-- The batches of a list, the one begun first. -/
def batchesFrom {α : Type} (batchSize : ℕ) : List α → List α → List (List α)
  | batch, [] => if batch = [] then [] else [batch]
  | batch, x :: rest =>
    if batchSize ≤ (batch ++ [x]).length then (batch ++ [x]) :: batchesFrom batchSize [] rest
    else batchesFrom batchSize (batch ++ [x]) rest

/-- `_manifest_batches`: the batches it yields, or what it raises instead of one. -/
def manifestBatches (text : String) (batchSize skipRows : ℕ) : List (Except Raised (List K)) :=
  let lines := (linesOf text).1 ++ if (linesOf text).2 = "" then [] else [(linesOf text).2]
  if lines.length < skipRows then
    [.error (.runtimeError ("snapshot membership checkpoint exceeds manifest: checkpoint="
      ++ toString skipRows ++ " actual=" ++ toString lines.length))]
  else
    (batchesFrom batchSize [] (lines.drop skipRows)).map
      (fun batch => batch.mapM (fun line => loadsLine R (.jsonDecodeError line) line))

end Manifest

/-! ### Capturing the membership -/

section Function

variable (R : ManifestRuntime K V) (src : Source K V) (job : Job)

/-- The end of a capture: the manifest, and then the report on it. -/
def finishCapture (keys : List K) : MembershipProg K V (String × ℕ × Option K) := do
  Prog.write (.replaceManifest (manifestText R keys))
  publishManifest (fun r => { r with
    snapshotRowCount := some keys.length
    snapshotRowsCopied := 0
    snapshotRowsVerified := 0
    snapshotPhase := some "membership_captured" }) (some (R.sha256 (manifestText R keys)))
  return (manifestText R keys, keys.length, keys.getLast?)

/-- One attempt at a capture: the keys of one repeatable-read snapshot, or the error. -/
def captureAttempt : MembershipProg K V (Except SourceError (List K)) := do
  (publish (fun r => { r with snapshotPhase := some "capturing_membership" })).within tableView
  (attemptRead src "snapshot_membership_capture"
    (fun table => keysOf table.rows)).within tableView

/-- The report of an attempt that is repeated. -/
def recordCaptureRetry (delay : ℚ) : MembershipProg K V Unit :=
  (publish (fun r => r.withTransport
    { r.transport with
      snapshotCaptureRetries := r.transport.snapshotCaptureRetries + 1
      lastSourceRetryPhase := some "snapshot_membership_capture"
      lastSourceRetryDelaySeconds := some delay
      lastSourceRetryRecovered := some false })).within tableView

/-- The loop of `_capture_membership_manifest`, with the delays that are left. -/
def captureLoop : List ℚ → MembershipProg K V (String × ℕ × Option K)
  | [] => do
    match ← captureAttempt src with
    | .ok keys => finishCapture R keys
    | .error error => Prog.lift (.error (.sourceError error))
  | delay :: delays => do
    match ← captureAttempt src with
    | .ok keys => finishCapture R keys
    | .error error =>
      if isTransientSourceReadError R.toRuntime error then do
        recordCaptureRetry delay
        captureLoop delays
      else Prog.lift (.error (.sourceError error))

/-- What is raised when the report says only half of what there is to say on a manifest. -/
def incompleteEvidence : Raised :=
  .runtimeError ("incomplete snapshot membership evidence for " ++ job.name)

/-- `_capture_membership_manifest`: the manifest's text, count and last key. A report without a
    count and a digest captures a new manifest; one with both must find the manifest it
    describes; anything in between is incomplete evidence. -/
def captureMembershipManifest : MembershipProg K V (String × ℕ × Option K) := do
  let s ← Prog.get
  match s.world.report.snapshotRowCount, s.snapshotManifestSha256 with
  | none, none => captureLoop R src sourceReadRetryDelaysSeconds
  | some expectedCount, some expectedDigest =>
    match s.manifest with
    | none => Prog.lift (.error (incompleteEvidence job))
    | some text =>
      if expectedDigest = "" then Prog.lift (.error (incompleteEvidence job))
      else do
        -- the manifest is read back and compared with the report
        let (count, digest, maximum) ← Prog.lift (manifestInventory R (manifestName job.name) text)
        if count ≠ expectedCount ∨ digest ≠ expectedDigest then
          Prog.lift (.error (.runtimeError ("snapshot membership manifest changed for "
            ++ job.name ++ ": expected=" ++ toString expectedCount ++ "/" ++ expectedDigest
            ++ " current=" ++ toString count ++ "/" ++ digest)))
        else return (text, count, maximum)
  | _, _ => Prog.lift (.error (incompleteEvidence job))

/-! ### Copy and verification -/

/-- `_insert_immutable_rows`. -/
def insertImmutableRows (rows : List (K × V)) : MembershipProg K V Unit :=
  if rows = [] then return () else Prog.write (.table (.insertIgnore rows))

/-- The copy loop over the batches that are left, with the rows copied and the batches
    completed so far. -/
def copySnapshot : List (Except Raised (List K)) → ℕ → ℕ → MembershipProg K V ℕ
  | [], _, completedBatches => return completedBatches
  | batch :: batches, copied, completedBatches => do
    let keys ← Prog.lift batch
    let rows ← (sourceReadWithRetry R.toRuntime src "snapshot_copy_batch"
      (rowsForKeys keys)).within tableView
    if keysOf rows ≠ keys then
      Prog.lift (.error (.runtimeError ("captured source membership changed for " ++ job.name
        ++ ": expected=" ++ R.reprKeys keys ++ " observed=" ++ R.reprKeys (keysOf rows))))
    else do
      insertImmutableRows rows
      (publish (fun r => { r with
        snapshotRowsCopied := copied + rows.length
        lastPrimaryKey := keys.getLast? })).within tableView
      Prog.lift (interruptIf job.interruptAfterBatches (completedBatches + 1))
      copySnapshot batches (copied + rows.length) (completedBatches + 1)

/-- The verification loop over the batches that are left, with the rows verified and the
    target rows digested so far. -/
def verifySnapshot : List (Except Raised (List K)) → ℕ → List (K × V) →
    MembershipProg K V (ℕ × List (K × V))
  | [], verified, digested => return (verified, digested)
  | batch :: batches, verified, digested => do
    let keys ← Prog.lift batch
    let sourceRows ← (sourceReadWithRetry R.toRuntime src "snapshot_verification_batch"
      (rowsForKeys keys)).within tableView
    let s ← Prog.get
    let targetRows := rowsForKeys keys s.world.target
    if keysOf sourceRows ≠ keys ∨ keysOf targetRows ≠ keys then
      Prog.lift (.error (.runtimeError ("captured membership missing during verification for "
        ++ job.name)))
    else if canonicalRows R.toRuntime sourceRows ≠ canonicalRows R.toRuntime targetRows then
      Prog.lift (.error (.runtimeError ("captured row-content mismatch for " ++ job.name)))
    else do
      (publish (fun r => { r with
        snapshotRowsVerified := verified + keys.length })).within tableView
      verifySnapshot batches (verified + keys.length) (digested ++ targetRows)

/-! ### The migration -/

/-- The rows of the target that `_verified_captured_target_is_intact` digests. -/
def capturedTargetRows (target : KeyedTable K V) :
    List (Except Raised (List K)) → Except Raised (List (K × V))
  | [] => .ok []
  | batch :: batches => do
    let keys ← batch
    if keysOf (rowsForKeys keys target) ≠ keys then
      .error (.runtimeError ("verified captured membership missing from local target: "
        ++ job.name))
    else do
      let rows ← capturedTargetRows target batches
      .ok (rowsForKeys keys target ++ rows)

/-- `_verified_captured_target_is_intact`. A verified snapshot whose target has changed raises
    instead of being copied again. -/
def verifiedCapturedTargetIsIntact (text : String) (target : KeyedTable K V)
    (report : TableReport K) : Except Raised Bool :=
  if report.verified = false then .ok false
  else
    match report.verifiedRows, report.rowDigest with
    | some expectedCount, some expectedDigest =>
      if expectedDigest = "" then .ok false
      else do
        let rows ← capturedTargetRows job target
          (manifestBatches R text (effectiveBatchSize job.batchSize) 0)
        if rows.length ≠ expectedCount ∨ R.digest rows ≠ expectedDigest then
          .error (.runtimeError ("verified captured snapshot changed for " ++ job.name
            ++ ": expected=" ++ toString expectedCount ++ "/" ++ expectedDigest
            ++ " current=" ++ toString rows.length ++ "/" ++ R.digest rows))
        else .ok true
    | _, _ => .ok false

/-- Whether the table is verified already, and intact. -/
def capturedTargetIsIntact : MembershipProg K V Bool := do
  let s ← Prog.get
  if s.world.report.verified = true
      ∧ s.world.report.migrationMode = some snapshotMigrationMode then do
    let (text, _, _) ← captureMembershipManifest R src job
    let s ← Prog.get
    Prog.lift (verifiedCapturedTargetIsIntact R job text s.world.target s.world.report)
  else return false

/-- The report of another migration gives way to one of this. -/
def prepareSnapshot : MembershipProg K V Unit := do
  let s ← Prog.get
  if s.world.report.migrationMode ≠ some snapshotMigrationMode then do
    Prog.write .unlinkManifest
    publishManifest (fun r => { TableReport.cleared { r.transport with
        snapshotCaptureRetries := 0 } with
      migrationMode := some snapshotMigrationMode
      verificationScope := some snapshotVerificationScope
      snapshotPhase := some "preparing_snapshot" }) none
  else return ()

/-- The end of a migration that verified the captured rows. The digest is taken over the rows
    that were verified, in their order. -/
def finishSnapshot (snapshotCount : ℕ) (maximum : Option K) (verified : ℕ)
    (digested : List (K × V)) : MembershipProg K V Unit :=
  if verified ≠ snapshotCount then
    Prog.lift (.error (.runtimeError ("captured verification count mismatch for " ++ job.name
      ++ ": snapshot=" ++ toString snapshotCount ++ " verified=" ++ toString verified)))
  else
    (publish (fun r => { r with
      sourceRows := some snapshotCount
      verifiedRows := some snapshotCount
      snapshotRowsCopied := snapshotCount
      snapshotRowsVerified := snapshotCount
      rowDigest := some (R.digest digested)
      highWaterPrimaryKey := some maximum
      lastPrimaryKey := maximum
      verificationScope := some snapshotVerificationScope
      snapshotPhase := some "verified"
      verified := true })).within tableView

/-- `_migrate_captured_append_only_table`. A target that is intact is left alone; otherwise the
    manifest is captured or taken up again, and copy and verification both walk through it. -/
def migrateCapturedAppendOnlyTable : MembershipProg K V ℕ := do
  let intact ← capturedTargetIsIntact R src job
  if intact then return job.completedBatches
  else do
    prepareSnapshot
    let (text, snapshotCount, maximum) ← captureMembershipManifest R src job
    let s ← Prog.get
    let copied := s.world.report.snapshotRowsCopied
    -- the report counts more copied rows than the manifest lists
    if snapshotCount < copied then
      Prog.lift (.error (.runtimeError ("invalid snapshot copy checkpoint for " ++ job.name
        ++ ": " ++ toString copied ++ "/" ++ toString snapshotCount)))
    else do
      (publish (fun r => { r with snapshotPhase := some "copying_snapshot" })).within tableView
      let completedBatches ← copySnapshot R src job
        (manifestBatches R text (effectiveBatchSize job.batchSize) copied) copied
        job.completedBatches
      (publish (fun r => { r with snapshotPhase := some "verifying_snapshot" })).within tableView
      -- the verification starts over from the first batch
      let (verified, digested) ← verifySnapshot R src job
        (manifestBatches R text (effectiveBatchSize job.batchSize) 0) 0 []
      finishSnapshot R job snapshotCount maximum verified digested
      return completedBatches

end Function

end InefficiencyEngine.Migration
