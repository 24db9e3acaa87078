import InefficiencyEngine.Lib.Durable
import InefficiencyEngine.Lib.KeysetWalk
import InefficiencyEngine.Lib.Lines
import Mathlib.Data.List.Infix
import Mathlib.Data.Rat.Defs

namespace InefficiencyEngine.Migration

/-!
# Source, target and progress of a table migration

A migration reads a source that others go on inserting into, writes a local target table,
and publishes a progress report.  The source is given by what each of the reads sees; its
rows are immutable and never removed.  An update of the report is published before
anything else happens, so that the report in memory and the one on disk are one.

The standard-library functions the model does not compute are the fields of `Runtime`,
with what the source relies on: distinct rows have distinct JSON, in one line, and SHA-256
does not collide.
-/

/-! ### The runtime -/

/-- The library functions the migration calls. -/
structure Runtime (K V : Type) where
  /-- `str.lower`. -/
  lower : String → String
  /-- `json.dumps([row[name] for name in shared], sort_keys=True, default=str)`. -/
  json : K × V → String
  json_injective : Function.Injective json
  json_line : ∀ row, '\n' ∉ (json row).toList
  /-- `hashlib.sha256(text.encode()).hexdigest()`. -/
  sha256 : String → String
  sha256_injective : Function.Injective sha256
  sha256_ne_empty : ∀ text, sha256 text ≠ ""

/-- How a read of the source fails. -/
inductive SourceError
  | operational (message : String)
  | other (message : String)

/-- How a migration ends other than normally; `outOfFuel` is no exception of the source but
    stands for a loop that is still running. -/
inductive Raised
  | runtimeError (message : String)
  | interruptedError (message : String)
  /-- `json.JSONDecodeError`, of a line. -/
  | jsonDecodeError (line : String)
  | sourceError (error : SourceError)
  | outOfFuel

/-! ### The report -/

/-- What a table report says about retried reads. -/
structure TransportReport where
  sourceTransportRetries : ℕ
  snapshotCaptureRetries : ℕ
  lastSourceRetryPhase : Option String
  lastSourceRetryDelaySeconds : Option ℚ
  lastSourceRetryRecovered : Option Bool

/-- The progress report of one table. -/
structure TableReport (K : Type) where
  verified : Bool
  migrationMode : Option String
  verificationScope : Option String
  lastPrimaryKey : Option K
  reconciliationPass : Option ℤ
  reconciliationReason : Option String
  copiedRowsAtLeast : Option ℕ
  sourceRowsObserved : Option ℕ
  targetRowsObserved : Option ℕ
  /-- The entry may be absent, and it may be `None`. -/
  highWaterPrimaryKey : Option (Option K)
  sourceRows : Option ℕ
  verifiedRows : Option ℕ
  rowDigest : Option String
  snapshotHighWaterCaptured : Bool
  snapshotHighWaterPrimaryKey : Option K
  snapshotRowsCopied : ℕ
  snapshotRowsVerified : ℕ
  snapshotRowCount : Option ℕ
  snapshotPhase : Option String
  transport : TransportReport

/-- A report without entries, apart from the retries counted so far. -/
def TableReport.cleared {K : Type} (transport : TransportReport) : TableReport K where
  verified := false
  migrationMode := none
  verificationScope := none
  lastPrimaryKey := none
  reconciliationPass := none
  reconciliationReason := none
  copiedRowsAtLeast := none
  sourceRowsObserved := none
  targetRowsObserved := none
  highWaterPrimaryKey := none
  sourceRows := none
  verifiedRows := none
  rowDigest := none
  snapshotHighWaterCaptured := false
  snapshotHighWaterPrimaryKey := none
  snapshotRowsCopied := 0
  snapshotRowsVerified := 0
  snapshotRowCount := none
  snapshotPhase := none
  transport :=
    { sourceTransportRetries := transport.sourceTransportRetries
      snapshotCaptureRetries := transport.snapshotCaptureRetries
      lastSourceRetryPhase := none
      lastSourceRetryDelaySeconds := none
      lastSourceRetryRecovered := none }

/-- The report with other transport entries. -/
def TableReport.withTransport {K : Type} (r : TableReport K) (transport : TransportReport) :
    TableReport K :=
  { r with transport := transport }

/-! ### The world -/

variable {K V : Type} [LinearOrder K]

/-- A source table at each of the reads made of it, and which of them fail. -/
structure Source (K V : Type) [LinearOrder K] where
  snapshot : ℕ → KeyedTable K V
  grows : ∀ i row, row ∈ (snapshot i).rows → row ∈ (snapshot (i + 1)).rows
  failure : ℕ → Option SourceError

/-- The target table, the report, and the reads made of the source so far, by phase. -/
structure World (K V : Type) [LinearOrder K] where
  target : KeyedTable K V
  report : TableReport K
  reads : List String

/-- What a migration does to the world.  A read counts as a write, since the source goes on
    with every one. -/
inductive Write (K V : Type)
  | upsert (rows : List (K × V))
  | insertIgnore (rows : List (K × V))
  | publish (report : TableReport K)
  | read (phase : String)

/-- The world after a write. -/
def World.commit (s : World K V) : Write K V → World K V
  | .upsert rows => { s with target := rows.foldl KeyedTable.upsert s.target }
  | .insertIgnore rows => { s with target := rows.foldl KeyedTable.insertIgnore s.target }
  | .publish report => { s with report := report }
  | .read phase => { s with reads := s.reads ++ [phase] }

instance : Durable (World K V) (Write K V) := ⟨World.commit⟩

/-- A step of a migration. -/
abbrev MigrationProg (K V : Type) [LinearOrder K] := Prog (World K V) (Write K V) Raised

/-- `table_report.update(..)` and `_publish`. -/
def publish (update : TableReport K → TableReport K) : MigrationProg K V Unit := do
  let s ← Prog.get
  Prog.write (.publish (update s.report))

theorem publish_run (update : TableReport K → TableReport K) (s : World K V) :
    publish update s = ([Write.publish (update s.report)], .ok ()) := rfl

/-- Publishing changes the report alone. -/
theorem spec_publish {G : World K V → List (Write K V) → Prop} {Q : Unit → World K V → Prop}
    (update : TableReport K → TableReport K) :
    Prog.Spec (fun s => G s [Write.publish (update s.report)]
        ∧ Q () { s with report := update s.report })
      (publish update : MigrationProg K V Unit) G Q :=
  Prog.spec_block (fun _ hs => hs.1) (fun _ _ hs _ => hs.2)

/-! ### Digests -/

/-- The rows of `_at_or_before_high_water`. -/
def atOrBeforeHighWater (table : KeyedTable K V) (highWater : Option K) : List (K × V) :=
  table.rows.filter (fun row => highWater.any (fun key => row.1 ≤ key))

/-- The digest of a list of rows, one JSON line for each. -/
def Runtime.digest (R : Runtime K V) (rows : List (K × V)) : String :=
  R.sha256 (unlines (rows.map R.json))

/-- `_row_digest`. -/
def rowDigest (R : Runtime K V) (table : KeyedTable K V) (highWater : Option K) : ℕ × String :=
  ((atOrBeforeHighWater table highWater).length, R.digest (atOrBeforeHighWater table highWater))

/-- `_capture_high_water`. -/
def captureHighWater (table : KeyedTable K V) : Option K := table.rows.getLast?.map Prod.fst

omit [LinearOrder K] in
/-- Rows are determined by their digest. -/
theorem Runtime.digest_injective (R : Runtime K V) : Function.Injective R.digest := by
  intro rows rows' h
  have hlines : ∀ (rows : List (K × V)), ∀ line ∈ rows.map R.json, '\n' ∉ line.toList := by
    intro rows line hline
    obtain ⟨row, -, rfl⟩ := List.mem_map.mp hline
    exact R.json_line row
  exact List.map_injective_iff.mpr R.json_injective
    (unlines_injective (hlines rows) (hlines rows') (R.sha256_injective h))

/-- `_verified_target_is_intact`. -/
def verifiedTargetIsIntact (R : Runtime K V) (name : String) (target : KeyedTable K V)
    (report : TableReport K) : Except Raised Bool :=
  if report.verified = false then .ok false
  else
    match report.highWaterPrimaryKey, report.verifiedRows, report.rowDigest with
    | some highWater, some expectedCount, some expectedDigest =>
      if expectedDigest = "" then .ok false
      else
        let current := rowDigest R target highWater
        if current ≠ (expectedCount, expectedDigest) then
          .error (.runtimeError ("verified local snapshot changed for " ++ name ++ ": expected="
            ++ toString expectedCount ++ "/" ++ expectedDigest ++ " current="
            ++ toString current.1 ++ "/" ++ current.2))
        else .ok true
    | _, _, _ => .ok false

end InefficiencyEngine.Migration
