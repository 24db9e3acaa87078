import InefficiencyEngine.Migration.HighWater

namespace InefficiencyEngine.Migration

open Durable Prog

/-!
# Restarting a failed high-water migration

A run resumes the copy after the checkpoint of the report, while its verification walks all
rows up to the high water.  On a source that no longer changes, a run therefore ends
verified exactly when the target already has every row at or before the checkpoint
(`repaired_iff_checkpointCovered`): a row that became visible behind the checkpoint is never
copied, and no later run repairs that (`not_repaired_lateRow`).
-/

variable {V : Type} {R : Runtime ℤ V} {src : Source ℤ V} {table : KeyedTable ℤ V}

/-- A source that neither changes nor fails from the `n`-th read on. -/
structure Quiet (src : Source ℤ V) (table : KeyedTable ℤ V) (n : ℕ) : Prop where
  snapshot : ∀ i, n ≤ i → src.snapshot i = table
  failure : ∀ i, n ≤ i → src.failure i = none

theorem Quiet.mono {n m : ℕ} (h : Quiet src table n) (hnm : n ≤ m) : Quiet src table m :=
  ⟨fun i hi => h.snapshot i (hnm.trans hi), fun i hi => h.failure i (hnm.trans hi)⟩

/-- A read of a quiet source returns what the source shows. -/
theorem Quiet.read {α : Type} {s : World ℤ V} (h : Quiet src table s.reads.length)
    (phase : String) (reader : KeyedTable ℤ V → α) :
    ∃ ws, sourceReadWithRetry R src phase reader s = (ws, .ok (reader table))
      ∧ AfterRead phase s.reads.length s (commitAll s ws)
      ∧ Quiet src table (commitAll s ws).reads.length := by
  obtain ⟨ws, -, hrun⟩ := sourceRead_run R src phase reader s
  rw [Source.nextRead_of_none (h.failure _ le_rfl)] at hrun
  obtain ⟨hresult, hafter⟩ := hrun
  rw [h.snapshot _ le_rfl] at hresult
  have hlength := hafter.length_reads
  exact ⟨ws, hresult, hafter, h.mono (by omega)⟩

/-! ### Copy and verification of a quiet source -/

section Loops

variable {job : Job} {highWater : Option ℤ}

variable (highWater) in
/-- **Copy.** The copy of a quiet source ends, and adds the rows after its checkpoint. Each
    batch that is not empty has a last key behind the checkpoint, so the rows that are left get
    fewer, and the induction is on their number. -/
theorem monotonicCopyLoop_settles (hjob : job.interruptAfterBatches = none)
    (checkpoint : Option ℤ) (copied completedBatches : ℕ) {s : World ℤ V}
    (hquiet : Quiet src table s.reads.length) (hsource : s.target.rows ⊆ table.rows) :
    ∃ ws n, Settles (fun fuel => monotonicCopyLoop R src job highWater fuel checkpoint copied
        completedBatches) s (ws, .ok n)
      ∧ Quiet src table (commitAll s ws).reads.length
      ∧ ∀ row, row ∈ (commitAll s ws).target.rows ↔ row ∈ s.target.rows
          ∨ row ∈ table.rowsAfter (withinHighWater highWater) checkpoint := by
  generalize hleft : (table.rowsAfter (withinHighWater highWater) checkpoint).length = left
  induction left using Nat.strong_induction_on generalizing checkpoint copied completedBatches s with
  | _ left ih =>
    obtain ⟨ws, hread, hafter, hquiet'⟩ := hquiet.read (R := R) "snapshot_copy_batch"
      (sourceBatch (boundedBatchSize job.batchSize) highWater checkpoint)
    rw [sourceBatch_eq_batch] at hread
    have htarget := hafter.target
    generalize hbatch : table.batch (withinHighWater highWater) (boundedBatchSize job.batchSize)
      checkpoint = rows at hread
    cases hlast : rows.getLast? with
    -- an empty batch ends the copy: nothing is left
    | none =>
      have hempty := KeyedTable.rowsAfter_of_batch_nil boundedBatchSize_pos
        (hbatch.trans (List.getLast?_eq_none_iff.mp hlast))
      refine ⟨ws ++ [], completedBatches, Settles.of_succ ?_, ?_, fun row => ?_⟩
      · simp only [monotonicCopyLoop]
        refine settles_bind_of_ok (r := ([], .ok completedBatches)) hread ?_
        rw [hlast]
        exact settles_const _ _
      · rwa [List.append_nil]
      · rw [List.append_nil, htarget, hempty]
        simp
    -- a batch is inserted and reported, and the loop goes on behind its last key
    | some last =>
      have hlast' := hbatch ▸ hlast
      have hsplit := KeyedTable.rowsAfter_eq_append hlast'
      rw [hbatch] at hsplit
      let insert : Write ℤ V := .insertIgnore rows
      let s₁ := commitAll (commitAll s ws) [insert]
      let report : Write ℤ V := .publish { s₁.report with
        lastPrimaryKey := some last.1
        snapshotRowsCopied := copied + rows.length }
      let s₂ := commitAll s₁ [report]
      have hrows : rows ⊆ table.rows := fun row hrow =>
        (KeyedTable.mem_of_mem_batch (hbatch ▸ hrow)).1
      have hinserted : ∀ row, row ∈ s₂.target.rows ↔ row ∈ s.target.rows ∨ row ∈ rows := by
        intro row
        show row ∈ (rows.foldl KeyedTable.insertIgnore (commitAll s ws).target).rows ↔ _
        rw [htarget]
        exact KeyedTable.mem_foldl_insertIgnore_iff hsource hrows
      -- the target stays a part of the source, which the next iteration assumes
      have hsource₂ : s₂.target.rows ⊆ table.rows := fun row hrow =>
        ((hinserted row).mp hrow).elim (fun h => hsource h) (fun h => hrows h)
      have hshorter : (table.rowsAfter (withinHighWater highWater) (some last.1)).length < left := by
        rw [← hleft]
        exact KeyedTable.length_rowsAfter_lt (List.mem_of_mem_take (List.mem_of_getLast? hlast'))
      obtain ⟨ws', n, hsettles, hquiet₂, hmem⟩ := ih _ hshorter (some last.1)
        (copied + rows.length) (completedBatches + 1) (s := s₂) hquiet' hsource₂ rfl
      refine ⟨ws ++ ([insert] ++ ([report] ++ ([] ++ ws'))), n, Settles.of_succ ?_, ?_,
        fun row => ?_⟩
      · simp only [monotonicCopyLoop]
        refine settles_bind_of_ok (r := ([insert] ++ ([report] ++ ([] ++ ws')), .ok n)) hread ?_
        rw [hlast]
        refine settles_bind_of_ok (m := Prog.write insert) (r := ([report] ++ ([] ++ ws'), .ok n))
          rfl ?_
        refine settles_bind_of_ok (r := ([] ++ ws', .ok n)) (publish_run _ _) ?_
        -- the job is not interrupted, so the check after the report passes
        have hgoesOn : interruptIf job.interruptAfterBatches (completedBatches + 1) = .ok () := by
          rw [interruptIf, hjob, if_neg (by simp)]
        rw [hgoesOn]
        refine settles_bind_of_ok (r := (ws', .ok n))
          (show Prog.lift (.ok ()) s₂ = (([] : List (Write ℤ V)), .ok ()) from rfl) ?_
        exact hsettles
      · rw [commitAll_append]
        exact hquiet₂
      · rw [commitAll_append]
        refine (hmem row).trans ?_
        rw [hinserted, hsplit, List.mem_append, or_assoc]

variable (job highWater) in
/-- **Verification.** The verification of a quiet source ends with all rows after its checkpoint
    if the target has them, and raises if it lacks one. The induction is on the number of rows
    after the checkpoint, which every batch that is not empty lowers, so enough fuel ends the
    loop whatever the reads returned. -/
theorem monotonicVerifyLoop_settles (checkpoint : Option ℤ) (verified : List (ℤ × V))
    {s : World ℤ V} (hquiet : Quiet src table s.reads.length) :
    ∃ ws result, Settles (fun fuel => monotonicVerifyLoop R src job highWater fuel checkpoint
        verified) s (ws, result)
      ∧ (commitAll s ws).target = s.target
      ∧ ((table.rowsAfter (withinHighWater highWater) checkpoint ⊆ s.target.rows
            ∧ result = .ok (verified ++ table.rowsAfter (withinHighWater highWater) checkpoint))
          ∨ (¬ table.rowsAfter (withinHighWater highWater) checkpoint ⊆ s.target.rows
            ∧ ∃ message, result = .error (.runtimeError message))) := by
  generalize hleft : (table.rowsAfter (withinHighWater highWater) checkpoint).length = left
  induction left using Nat.strong_induction_on generalizing checkpoint verified s with
  | _ left ih =>
    obtain ⟨ws, hread, hafter, hquiet'⟩ := hquiet.read (R := R) "snapshot_verification_batch"
      (sourceBatch (boundedBatchSize job.batchSize) highWater checkpoint)
    rw [sourceBatch_eq_batch] at hread
    have htarget := hafter.target
    generalize hbatch : table.batch (withinHighWater highWater) (boundedBatchSize job.batchSize)
      checkpoint = rows at hread
    cases hlast : rows.getLast? with
    -- an empty batch: nothing is left after the checkpoint
    | none =>
      have hempty := KeyedTable.rowsAfter_of_batch_nil boundedBatchSize_pos
        (hbatch.trans (List.getLast?_eq_none_iff.mp hlast))
      refine ⟨ws ++ [], .ok verified, Settles.of_succ ?_, ?_, Or.inl ?_⟩
      · simp only [monotonicVerifyLoop]
        refine settles_bind_of_ok (r := ([], .ok verified)) hread ?_
        rw [hlast]
        exact settles_const _ _
      · rwa [List.append_nil]
      · rw [hempty]
        simp
    -- a batch and the rows after its last key make up what was left
    | some last =>
      have hlast' := hbatch ▸ hlast
      have hsplit := KeyedTable.rowsAfter_eq_append hlast'
      rw [hbatch] at hsplit
      let s₁ := commitAll s ws
      have hsorted : rows.Pairwise (fun a b => a.1 < b.1) := hbatch ▸ table.sorted_batch _ _ _
      -- the target has the batch: its rows compare equal and the loop goes on behind them
      by_cases hrows : rows ⊆ s.target.rows
      · let report : Write ℤ V := .publish { s₁.report with
          snapshotRowsVerified := (verified ++ rows).length }
        let s₂ := commitAll s₁ [report]
        have hcanonical : ¬ canonicalRows R rows
            ≠ canonicalRows R (targetRowsForKeys s₁.target rows) := by
          rw [htarget, targetRowsForKeys_of_subset hsorted hrows]
          simp
        have hshorter : (table.rowsAfter (withinHighWater highWater) (some last.1)).length
            < left := by
          rw [← hleft]
          exact KeyedTable.length_rowsAfter_lt (List.mem_of_mem_take (List.mem_of_getLast? hlast'))
        obtain ⟨ws', result, hsettles, htarget', hresult⟩ := ih _ hshorter (some last.1)
          (verified ++ rows) (s := s₂) hquiet' rfl
        have htarget₂ : s₂.target = s.target := htarget
        refine ⟨ws ++ ([report] ++ ws'), result, Settles.of_succ ?_, ?_, ?_⟩
        · simp only [monotonicVerifyLoop]
          refine settles_bind_of_ok (r := ([report] ++ ws', result)) hread ?_
          rw [hlast]
          refine settles_bind_of_ok (r := ([report] ++ ws', result))
            (show Prog.get s₁ = (([] : List (Write ℤ V)), .ok s₁) from rfl) ?_
          simp only [if_neg hcanonical]
          exact settles_bind_of_ok (r := (ws', result)) (publish_run _ _) hsettles
        · rw [commitAll_append, commitAll_append]
          exact htarget'.trans htarget
        · rw [htarget₂] at hresult
          rw [hsplit, List.append_subset, ← List.append_assoc]
          refine hresult.imp (fun h => ⟨⟨hrows, h.1⟩, h.2⟩) (fun h => ⟨fun h' => h.1 h'.2, h.2⟩)
      -- a row of the batch is missing, so the contents differ and the loop raises
      · have hcanonical : canonicalRows R rows
            ≠ canonicalRows R (targetRowsForKeys s₁.target rows) := fun heq => by
          have hsubset := subset_of_canonicalRows heq
          rw [htarget] at hsubset
          exact hrows hsubset
        let raised : Raised := .runtimeError ("captured row-content mismatch for " ++ job.name)
        refine ⟨ws ++ [], .error raised, Settles.of_succ ?_, ?_, Or.inr ⟨fun h => hrows ?_, _, rfl⟩⟩
        · simp only [monotonicVerifyLoop]
          refine settles_bind_of_ok (r := ([], .error raised)) hread ?_
          rw [hlast]
          refine settles_bind_of_ok (r := ([], .error raised))
            (show Prog.get s₁ = (([] : List (Write ℤ V)), .ok s₁) from rfl) ?_
          simp only [if_pos hcanonical]
          exact settles_const _ _
        · rwa [List.append_nil]
        · rw [hsplit] at h
          exact (List.append_subset.mp h).1

end Loops

/-! ### Where a run resumes -/

/-- The checkpoint a run resumes from. -/
def resumeCheckpoint (s : World ℤ V) : Option ℤ :=
  if s.report.migrationMode = some monotonicMigrationMode then s.report.lastPrimaryKey else none

/-- The high water of a run: the captured one, or the newest key of the source. -/
def resumeHighWater (table : KeyedTable ℤ V) (s : World ℤ V) : Option ℤ :=
  if s.report.migrationMode = some monotonicMigrationMode
      ∧ s.report.snapshotHighWaterCaptured = true then s.report.snapshotHighWaterPrimaryKey
  else captureHighWater table

/-- Every row at or before both the high water and the checkpoint is in the target. -/
def CheckpointCovered (table : KeyedTable ℤ V) (s : World ℤ V) : Prop :=
  ∀ row ∈ table.rows, withinHighWater (resumeHighWater table s) row.1 = true →
    withinHighWater (resumeCheckpoint s) row.1 = true → row ∈ s.target.rows

instance [DecidableEq V] (table : KeyedTable ℤ V) (s : World ℤ V) :
    Decidable (CheckpointCovered table s) :=
  inferInstanceAs (Decidable (∀ row ∈ table.rows, _))

/-- The rows after a checkpoint are those that it does not cover. -/
theorem mem_rowsAfter_iff_not_within {bound : ℤ → Bool} {checkpoint : Option ℤ} {row : ℤ × V} :
    row ∈ table.rowsAfter bound checkpoint
      ↔ row ∈ table.rows ∧ bound row.1 = true ∧ ¬ withinHighWater checkpoint row.1 = true := by
  rw [KeyedTable.mem_rowsAfter]
  refine and_congr_right (fun _ => and_congr_right (fun _ => ?_))
  cases checkpoint <;> simp [withinHighWater]

/-- Adding the rows after the checkpoint completes the target if and only if the checkpoint is
    covered. -/
theorem checkpointCovered_iff {s : World ℤ V} :
    CheckpointCovered table s
      ↔ ∀ row ∈ table.rowsAfter (withinHighWater (resumeHighWater table s)) none,
        row ∈ s.target.rows ∨ row ∈ table.rowsAfter (withinHighWater (resumeHighWater table s))
          (resumeCheckpoint s) := by
  constructor
  · intro h row hrow
    obtain ⟨hmem, hbound, -⟩ := mem_rowsAfter_iff_not_within.mp hrow
    by_cases hbefore : withinHighWater (resumeCheckpoint s) row.1 = true
    · exact Or.inl (h row hmem hbound hbefore)
    · exact Or.inr (mem_rowsAfter_iff_not_within.mpr ⟨hmem, hbound, hbefore⟩)
  · intro h row hmem hbound hbefore
    have hrow : row ∈ table.rowsAfter (withinHighWater (resumeHighWater table s)) none :=
      mem_rowsAfter_iff_not_within.mpr ⟨hmem, hbound, by simp [withinHighWater]⟩
    refine (h row hrow).resolve_right (fun hafter => ?_)
    exact (mem_rowsAfter_iff_not_within.mp hafter).2.2 hbefore

variable (table) in
/-- The report of another migration is cleared. -/
theorem resetReport_run {s : World ℤ V} (hinv : MonotonicInv R src s)
    (hunverified : s.report.migrationMode = some monotonicMigrationMode →
      s.report.verified = false) :
    ∃ ws, resetReport s = (ws, .ok ()) ∧ (commitAll s ws).target = s.target
      ∧ (commitAll s ws).reads = s.reads ∧ InProgress (commitAll s ws).report
      ∧ (commitAll s ws).report.lastPrimaryKey = resumeCheckpoint s
      ∧ resumeHighWater table (commitAll s ws) = resumeHighWater table s
      ∧ ((commitAll s ws).report.snapshotHighWaterCaptured = false →
        (commitAll s ws).report.lastPrimaryKey = none) := by
  -- a report of this migration is resumed as it is
  by_cases hmode : s.report.migrationMode = some monotonicMigrationMode
  · refine ⟨[], ?_, rfl, rfl, ⟨hmode, hunverified hmode⟩, ?_, rfl, hinv.fresh hmode⟩
    · rw [resetReport, run_get_bind, if_neg (not_not.mpr hmode)]
      rfl
    · rw [resumeCheckpoint, if_pos hmode]
      rfl
  -- another one is cleared, with the transport kept
  · let report : Write ℤ V := .publish { TableReport.cleared s.report.transport with
      migrationMode := some monotonicMigrationMode
      verificationScope := some monotonicVerificationScope
      snapshotPhase := some "capturing_high_water" }
    refine ⟨[report], ?_, rfl, rfl, ⟨rfl, rfl⟩, ?_, ?_, fun _ => rfl⟩
    · rw [resetReport, run_get_bind, if_pos hmode, publish_run]
    · rw [resumeCheckpoint, if_neg hmode]
      rfl
    · have hcleared : ¬ ((commitAll s [report]).report.migrationMode = some monotonicMigrationMode
          ∧ (commitAll s [report]).report.snapshotHighWaterCaptured = true) :=
        fun h => Bool.false_ne_true h.2
      rw [resumeHighWater, resumeHighWater, if_neg hcleared, if_neg (fun h => hmode h.1)]

/-- The high water is the captured one, or the newest key. On a quiet source the newest key at
    the read is the newest of the table. -/
theorem monotonicHighWater_run {s : World ℤ V} (hquiet : Quiet src table s.reads.length)
    (hprogress : InProgress s.report) :
    ∃ ws, monotonicHighWater R src s = (ws, .ok (resumeHighWater table s))
      ∧ (commitAll s ws).target = s.target ∧ Quiet src table (commitAll s ws).reads.length
      ∧ Copying (resumeHighWater table s) (commitAll s ws)
      ∧ (commitAll s ws).report.lastPrimaryKey = s.report.lastPrimaryKey := by
  -- captured by an earlier run, or read and captured now
  by_cases hcaptured : s.report.snapshotHighWaterCaptured = true
  · have hhighWater : resumeHighWater table s = s.report.snapshotHighWaterPrimaryKey :=
      if_pos ⟨hprogress.mode, hcaptured⟩
    refine ⟨[], ?_, rfl, hquiet, ⟨hprogress, hprogress.mode, hcaptured, hhighWater.symm⟩, rfl⟩
    rw [monotonicHighWater, run_get_bind, if_pos hcaptured, hhighWater]
    rfl
  · have hhighWater : resumeHighWater table s = captureHighWater table :=
      if_neg (fun h => hcaptured h.2)
    obtain ⟨ws, hread, hafter, hquiet'⟩ := hquiet.read (R := R) "snapshot_high_water_capture"
      captureHighWater
    obtain ⟨transport, hreport⟩ := hafter.report
    have hmode : (commitAll s ws).report.migrationMode = some monotonicMigrationMode := by
      rw [hreport]
      exact hprogress.mode
    have hunverified : (commitAll s ws).report.verified = false := by
      rw [hreport]
      exact hprogress.unverified
    let report : Write ℤ V := .publish { (commitAll s ws).report with
      snapshotHighWaterPrimaryKey := captureHighWater table
      snapshotHighWaterCaptured := true
      snapshotPhase := some "high_water_captured" }
    refine ⟨ws ++ ([report] ++ []), ?_, ?_⟩
    · rw [monotonicHighWater, run_get_bind, if_neg hcaptured, run_bind_of_ok hread,
        run_bind_of_ok (publish_run _ _), hhighWater]
      rfl
    · rw [commitAll_append]
      refine ⟨hafter.target, hquiet', ⟨⟨hmode, hunverified⟩, hmode, rfl, hhighWater.symm⟩, ?_⟩
      show (commitAll s ws).report.lastPrimaryKey = s.report.lastPrimaryKey
      rw [hreport]
      rfl

/-- Count and digest agree when the target up to the high water is what was verified. -/
theorem finishMonotonic_run (job : Job) {highWater : Option ℤ} {verified : List (ℤ × V)}
    {s : World ℤ V} (h : atOrBeforeHighWater s.target highWater = verified) :
    ∃ report, finishMonotonic R job highWater verified s = ([Write.publish report], .ok ())
      ∧ report.verified = true
      ∧ report.snapshotHighWaterPrimaryKey = s.report.snapshotHighWaterPrimaryKey := by
  have hsame : ¬ ((rowDigest R s.target highWater).1 ≠ verified.length
      ∨ (rowDigest R s.target highWater).2 ≠ R.digest verified) := by
    simp [rowDigest, h]
  rw [finishMonotonic, run_get_bind, if_neg hsame, publish_run]
  exact ⟨_, rfl, rfl, rfl⟩

/-! ### The target of a run -/

/-- The rows of the target come from the source, and are within the captured high water. -/
def TargetFromSource (src : Source ℤ V) (s : World ℤ V) : Prop :=
  ∀ row ∈ s.target.rows, row ∈ (src.snapshot s.reads.length).rows
    ∧ ∃ highWater, Captured s.report highWater ∧ withinHighWater highWater row.1 = true

theorem TargetFromSource.step {s : World ℤ V} {w : Write ℤ V} (hs : TargetFromSource src s)
    (h : MonotonicStep R src s w) : TargetFromSource src (commit s w) := by
  have hkept : ∀ row ∈ s.target.rows, ∃ highWater, Captured (commit s w).report highWater
      ∧ withinHighWater highWater row.1 = true := by
    intro row hrow
    obtain ⟨-, highWater, hcaptured, hwithin⟩ := hs row hrow
    exact ⟨highWater, hcaptured.step h, hwithin⟩
  intro row hrow
  cases h with
  | read phase =>
    refine ⟨KeysetWalk.mem_mono src.grows ?_ (hs row hrow).1, hkept row hrow⟩
    show s.reads.length ≤ (s.reads ++ [phase]).length
    simp
  | insert rows highWater _ hcaptured hrows =>
    rcases KeyedTable.mem_foldl_insertIgnore hrow with hrow | hrow
    · exact ⟨(hs row hrow).1, hkept row hrow⟩
    · exact ⟨(hrows row hrow).2, highWater, hcaptured, (hrows row hrow).1⟩
  | transport | progress | finish => exact ⟨(hs row hrow).1, hkept row hrow⟩

/-- A target that is empty to begin with comes from the source after any restarts. -/
theorem Restarts.targetFromSource {s₀ s : World ℤ V}
    (hmode : s₀.report.migrationMode ≠ some monotonicMigrationMode) (hempty : s₀.target.rows = [])
    (h : Restarts R src s₀ s) : TargetFromSource src s :=
  (h.invariant (I := TargetFromSource src) (fun _ _ _ hI hw => hI.step hw)
    (monotonicInv_of_mode hmode) (fun row hrow => by rw [hempty] at hrow; cases hrow)).2

/-! ### The next run -/

/-- A world in which every row up to the high water is in the target, and verified. -/
def RepairedWorld (table : KeyedTable ℤ V) (s : World ℤ V) : Prop :=
  s.report.verified = true ∧ ∀ row ∈ table.rows,
    withinHighWater s.report.snapshotHighWaterPrimaryKey row.1 = true → row ∈ s.target.rows

/-- One further run, without an interruption, ends normally in such a world. -/
def Repaired (R : Runtime ℤ V) (src : Source ℤ V) (table : KeyedTable ℤ V) (job : Job)
    (s : World ℤ V) : Prop :=
  ∃ ws completedBatches, Settles (fun fuel =>
      migrateMonotonicIntegerAppendOnlyTable R src job (fun _ => .ok ()) fuel) s
        (ws, .ok completedBatches)
    ∧ RepairedWorld table (commitAll s ws)

/-- A run on a world that is verified already changes nothing. -/
theorem repaired_verified_iff {job : Job} {s : World ℤ V} (hinv : MonotonicInv R src s)
    (hmode : s.report.migrationMode = some monotonicMigrationMode)
    (hverified : s.report.verified = true) :
    Repaired R src table job s ↔ CheckpointCovered table s := by
  obtain ⟨highWater, rows, htarget⟩ := hinv.verified hmode hverified
  have hsettles : Settles (fun fuel =>
      migrateMonotonicIntegerAppendOnlyTable R src job (fun _ => .ok ()) fuel) s
        ([], .ok job.completedBatches) := by
    refine ⟨0, fun fuel _ => ?_⟩
    have hintact : Prog.lift (monotonicTargetIsIntact R job s) s
        = (([] : List (Write ℤ V)), .ok true) := by
      rw [htarget.intact hverified job]
      rfl
    show (Prog.get >>= fun s => Prog.lift (monotonicTargetIsIntact R job s) >>= _) s = _
    rw [run_get_bind, run_bind_of_silent hintact]
    rfl
  have hhighWater : resumeHighWater table s = s.report.snapshotHighWaterPrimaryKey :=
    if_pos ⟨hmode, htarget.report.captured.captured⟩
  have hcheckpoint : resumeCheckpoint s = s.report.snapshotHighWaterPrimaryKey := by
    rw [resumeCheckpoint, if_pos hmode, htarget.report.lastPrimaryKey,
      htarget.report.captured.highWater]
  rw [CheckpointCovered, hhighWater, hcheckpoint]
  constructor
  · rintro ⟨ws, n, h, hrepaired⟩ row hrow hwithin -
    obtain rfl : [] = ws := congrArg Prod.fst (hsettles.unique h)
    exact hrepaired.2 row hrow hwithin
  · intro h
    exact ⟨[], _, hsettles, hverified, fun row hrow hwithin => h row hrow hwithin hwithin⟩

/-- The target up to the high water is the source's when it comes from the source and has
    all its rows. -/
theorem atOrBeforeHighWater_eq_rowsAfter {target : KeyedTable ℤ V} {highWater : Option ℤ}
    (hsource : target.rows ⊆ table.rows)
    (hall : table.rowsAfter (withinHighWater highWater) none ⊆ target.rows) :
    atOrBeforeHighWater target highWater = table.rowsAfter (withinHighWater highWater) none := by
  refine KeyedTable.eq_of_mem_iff (target.sorted.filter _) (table.sorted_rowsAfter _ _)
    (fun row => ?_)
  show row ∈ atOrBeforeHighWater target highWater ↔ _
  rw [mem_atOrBeforeHighWater]
  have hrows : row ∈ table.rowsAfter (withinHighWater highWater) none
      ↔ row ∈ table.rows ∧ withinHighWater highWater row.1 = true := by
    simp [KeyedTable.mem_rowsAfter]
  refine ⟨fun ⟨hrow, hwithin⟩ => hrows.mpr ⟨hsource hrow, hwithin⟩, fun hrow => ?_⟩
  exact ⟨hall hrow, (hrows.mp hrow).2⟩

/-- **Copy and verification.** From a target that comes from the source, they end on a verified
    report if the rows after the checkpoint are all that is missing, and raise otherwise. The
    copy adds exactly the rows after the checkpoint, so the verification, which starts over from
    the first row, tells whether the rows before it were there. -/
theorem copyAndVerify_settles {job : Job} (hjob : job.interruptAfterBatches = none)
    {highWater : Option ℤ} (checkpoint : Option ℤ) (copied : ℕ) {s : World ℤ V}
    (hcopying : Copying highWater s)
    (hquiet : Quiet src table s.reads.length) (hsource : s.target.rows ⊆ table.rows) :
    ∃ ws result, Settles (fun fuel => do
        let completedBatches ← monotonicCopyLoop R src job highWater fuel checkpoint copied
          job.completedBatches
        publish (fun r => { r with
          snapshotPhase := some "verifying_snapshot"
          snapshotRowsVerified := 0 })
        let verified ← monotonicVerifyLoop R src job highWater fuel none []
        finishMonotonic R job highWater verified
        return completedBatches) s (ws, result)
      ∧ (((∀ row ∈ table.rowsAfter (withinHighWater highWater) none, row ∈ s.target.rows
              ∨ row ∈ table.rowsAfter (withinHighWater highWater) checkpoint)
            ∧ (∃ completedBatches, result = .ok completedBatches)
            ∧ RepairedWorld table (commitAll s ws))
          ∨ (¬ (∀ row ∈ table.rowsAfter (withinHighWater highWater) none, row ∈ s.target.rows
              ∨ row ∈ table.rowsAfter (withinHighWater highWater) checkpoint)
            ∧ ∃ message, result = .error (.runtimeError message))) := by
  obtain ⟨ws₁, completedBatches, hcopy, hquiet₁, hmem⟩ :=
    monotonicCopyLoop_settles (R := R) highWater hjob checkpoint copied
      job.completedBatches hquiet hsource
  let s₁ := commitAll s ws₁
  have hcopying₁ : Copying highWater s₁ :=
    hcopy.post (fun fuel => spec_monotonicCopyLoop fuel _ _ _) hcopying
  let verifying : Write ℤ V := .publish { s₁.report with
    snapshotPhase := some "verifying_snapshot"
    snapshotRowsVerified := 0 }
  let s₂ := commitAll s₁ [verifying]
  have hcopying₂ : Copying highWater s₂ :=
    ⟨⟨hcopying₁.inProgress.mode, hcopying₁.inProgress.unverified⟩,
      hcopying₁.captured.mode, hcopying₁.captured.captured, hcopying₁.captured.highWater⟩
  have hsource₂ : s₂.target.rows ⊆ table.rows := fun row hrow =>
    ((hmem row).mp hrow).elim (fun h => hsource h) (fun h => (KeyedTable.mem_rowsAfter.mp h).1)
  obtain ⟨ws₃, result, hverify, htarget₃, hresult⟩ :=
    monotonicVerifyLoop_settles (R := R) job highWater none [] (s := s₂) hquiet₁
  -- the condition on the target before the run is one on the target after the copy
  have hcovered : (∀ row ∈ table.rowsAfter (withinHighWater highWater) none, row ∈ s.target.rows
      ∨ row ∈ table.rowsAfter (withinHighWater highWater) checkpoint)
        ↔ table.rowsAfter (withinHighWater highWater) none ⊆ s₂.target.rows :=
    forall₂_congr (fun row _ => (hmem row).symm)
  rw [hcovered]
  rcases hresult with ⟨hall, rfl⟩ | ⟨hlacks, message, rfl⟩
  -- nothing is missing: the report is finished, and the rows up to its high water are stored
  · let s₃ := commitAll s₂ ws₃
    have htarget : atOrBeforeHighWater s₃.target highWater
        = [] ++ table.rowsAfter (withinHighWater highWater) none := by
      rw [List.nil_append, htarget₃]
      exact atOrBeforeHighWater_eq_rowsAfter hsource₂ hall
    obtain ⟨hcopying₃, -, -⟩ := hverify.post
      (fun fuel => spec_monotonicVerifyLoop s₂.target fuel none [] s₂.reads.length)
      ⟨hcopying₂, rfl, le_rfl⟩
    obtain ⟨report, hfinish, hverified, hhighWater⟩ := finishMonotonic_run (R := R) job htarget
    refine ⟨ws₁ ++ ([verifying] ++ (ws₃ ++ ([.publish report] ++ []))), .ok completedBatches, ?_,
      Or.inl ⟨hall, ⟨completedBatches, rfl⟩, ?_⟩⟩
    · refine hcopy.bind_ok (r := ([verifying] ++ (ws₃ ++ ([.publish report] ++ [])),
        .ok completedBatches)) ?_
      refine settles_bind_of_ok (r := (ws₃ ++ ([.publish report] ++ []), .ok completedBatches))
        (publish_run _ _) ?_
      refine hverify.bind_ok (r := ([.publish report] ++ [], .ok completedBatches)) ?_
      exact settles_bind_of_ok (r := ([], .ok completedBatches)) hfinish (settles_const _ _)
    · rw [commitAll_append, commitAll_append, commitAll_append]
      refine ⟨hverified, fun row hrow hwithin => ?_⟩
      have hwithin' : withinHighWater highWater row.1 = true := by
        rw [← hcopying₃.captured.highWater, ← hhighWater]
        exact hwithin
      show row ∈ s₃.target.rows
      rw [htarget₃]
      exact hall (KeyedTable.mem_rowsAfter.mpr ⟨hrow, hwithin', by simp⟩)
  -- a row before the checkpoint is missing: the verification raises, and nothing follows
  · refine ⟨ws₁ ++ ([verifying] ++ ws₃), .error (.runtimeError message), ?_,
      Or.inr ⟨hlacks, message, rfl⟩⟩
    refine hcopy.bind_ok (r := ([verifying] ++ ws₃, .error (.runtimeError message))) ?_
    refine settles_bind_of_ok (r := (ws₃, .error (.runtimeError message))) (publish_run _ _) ?_
    exact hverify.bind_error

/-- **Next run.** From a world that is not verified, a run on a quiet source ends in a repaired
    world if the checkpoint is covered, and raises if it is not. -/
theorem migrateMonotonic_settles {job : Job} (hjob : job.interruptAfterBatches = none)
    {s : World ℤ V} (hinv : MonotonicInv R src s) (hsource : TargetFromSource src s)
    (hunverified : s.report.migrationMode = some monotonicMigrationMode →
      s.report.verified = false) (hquiet : Quiet src table s.reads.length) :
    ∃ ws result, Settles (fun fuel =>
        migrateMonotonicIntegerAppendOnlyTable R src job (fun _ => .ok ()) fuel) s (ws, result)
      ∧ ((CheckpointCovered table s ∧ (∃ completedBatches, result = .ok completedBatches)
            ∧ RepairedWorld table (commitAll s ws))
          ∨ (¬ CheckpointCovered table s ∧ ∃ message, result = .error (.runtimeError message))) := by
  let highWater := resumeHighWater table s
  have hintact : monotonicTargetIsIntact R job s = .ok false := by
    rw [monotonicTargetIsIntact, if_neg (fun h => ?_)]
    exact Bool.false_ne_true ((hunverified h.2).symm.trans h.1)
  -- The parts before the copy leave the target as it is.
  obtain ⟨ws₁, hreset, htarget₁, hreads₁, hprogress₁, hcheckpoint₁, hhighWater₁, -⟩ :=
    resetReport_run table hinv hunverified
  have hquiet₁ : Quiet src table (commitAll s ws₁).reads.length := hreads₁ ▸ hquiet
  obtain ⟨ws₂, hcapture, htarget₂, hquiet₂, hcopying₂, hcheckpoint₂⟩ :=
    monotonicHighWater_run (R := R) hquiet₁ hprogress₁
  rw [hhighWater₁] at hcapture hcopying₂
  let s₂ := commitAll (commitAll s ws₁) ws₂
  have htarget₂' : s₂.target = s.target := htarget₂.trans htarget₁
  have hcheckpoint : s₂.report.lastPrimaryKey = resumeCheckpoint s :=
    hcheckpoint₂.trans hcheckpoint₁
  let copying : Write ℤ V := .publish { s₂.report with snapshotPhase := some "copying_snapshot" }
  let s₃ := commitAll s₂ [copying]
  have hcopying₃ : Copying highWater s₃ :=
    ⟨⟨hcopying₂.inProgress.mode, hcopying₂.inProgress.unverified⟩,
      hcopying₂.captured.mode, hcopying₂.captured.captured, hcopying₂.captured.highWater⟩
  have hsource₃ : s₃.target.rows ⊆ table.rows := fun row hrow => by
    have hrow' : row ∈ s.target.rows := htarget₂' ▸ hrow
    exact hquiet.snapshot _ le_rfl ▸ (hsource row hrow').1
  obtain ⟨ws₄, result, hsettles, hresult⟩ := copyAndVerify_settles (R := R) hjob
    s₃.report.lastPrimaryKey s₃.report.snapshotRowsCopied hcopying₃ hquiet₂ hsource₃
  refine ⟨ws₁ ++ (ws₂ ++ ([copying] ++ ws₄)), result, ?_, ?_⟩
  · simp only [migrateMonotonicIntegerAppendOnlyTable]
    refine settles_bind_of_ok (r := (ws₁ ++ (ws₂ ++ ([copying] ++ ws₄)), result))
      (show Prog.get s = (([] : List (Write ℤ V)), .ok s) from rfl) ?_
    simp only [hintact]
    refine settles_bind_of_ok (r := (ws₁ ++ (ws₂ ++ ([copying] ++ ws₄)), result))
      (show Prog.lift (.ok false) s = (([] : List (Write ℤ V)), .ok false) from rfl) ?_
    simp only [if_neg Bool.false_ne_true]
    refine settles_bind_of_ok (r := (ws₂ ++ ([copying] ++ ws₄), result)) hreset ?_
    refine settles_bind_of_ok (r := ([copying] ++ ws₄, result)) hcapture ?_
    refine settles_bind_of_ok (r := ([copying] ++ ws₄, result))
      (show Prog.lift (.ok ()) s₂ = (([] : List (Write ℤ V)), .ok ()) from rfl) ?_
    refine settles_bind_of_ok (r := ([copying] ++ ws₄, result))
      (show Prog.get s₂ = (([] : List (Write ℤ V)), .ok s₂) from rfl) ?_
    exact settles_bind_of_ok (r := (ws₄, result)) (publish_run _ _) hsettles
  · rw [checkpointCovered_iff, ← htarget₂', ← hcheckpoint]
    rw [commitAll_append, commitAll_append, commitAll_append]
    exact hresult

/-- Whatever a world says, the next run repairs it if and only if the checkpoint is covered. -/
theorem repaired_iff_of_inv {job : Job} (hjob : job.interruptAfterBatches = none) {s : World ℤ V}
    (hinv : MonotonicInv R src s) (hsource : TargetFromSource src s)
    (hquiet : Quiet src table s.reads.length) :
    Repaired R src table job s ↔ CheckpointCovered table s := by
  by_cases hverified : s.report.migrationMode = some monotonicMigrationMode
      ∧ s.report.verified = true
  · exact repaired_verified_iff hinv hverified.1 hverified.2
  have hunverified : s.report.migrationMode = some monotonicMigrationMode →
      s.report.verified = false := fun hmode => by
    rw [← Bool.not_eq_true]
    exact fun h => hverified ⟨hmode, h⟩
  obtain ⟨ws, result, hsettles, hresult⟩ := migrateMonotonic_settles (R := R) hjob hinv hsource
    hunverified hquiet
  rcases hresult with ⟨hcovered, ⟨completedBatches, rfl⟩, hrepaired⟩ | ⟨huncovered, message, rfl⟩
  · exact ⟨fun _ => hcovered, fun _ => ⟨ws, completedBatches, hsettles, hrepaired⟩⟩
  · refine ⟨?_, fun h => absurd h huncovered⟩
    rintro ⟨ws', n, hsettles', -⟩
    cases congrArg Prod.snd (hsettles.unique hsettles')

/-- **Repair.** After any runs over an initially empty target that were interrupted or failed,
    one further run on a source that no longer changes ends verified, with every row up to
    the high water in the target, exactly if the target already has the rows at or before
    the checkpoint. -/
theorem repaired_iff_checkpointCovered (R : Runtime ℤ V) (src : Source ℤ V)
    (table : KeyedTable ℤ V) {job : Job} (hjob : job.interruptAfterBatches = none)
    {s₀ s : World ℤ V} (hmode : s₀.report.migrationMode ≠ some monotonicMigrationMode)
    (hempty : s₀.target.rows = []) (h : Restarts R src s₀ s)
    (hquiet : Quiet src table s.reads.length) :
    Repaired R src table job s ↔ CheckpointCovered table s :=
  repaired_iff_of_inv hjob (h.inv hmode) (h.targetFromSource hmode hempty) hquiet

/-- A run that is not interrupted. -/
theorem Restarts.final {s₀ s : World ℤ V} (h : Restarts R src s₀ s) (job : Job)
    (before : Option ℤ → Except Raised Unit) (fuel : ℕ) :
    Restarts R src s₀ ((migrateMonotonicIntegerAppendOnlyTable R src job before fuel).final s) := by
  have hrun := h.run job before fuel
    (migrateMonotonicIntegerAppendOnlyTable R src job before fuel s).1.length
  rwa [List.take_length] at hrun

/-- A run over an empty target that is interrupted after its first batch. -/
def afterFirstBatch : World ℤ ℕ :=
  (migrateMonotonicIntegerAppendOnlyTable .sample (Source.constant oddRows)
    ⟨"quotes", 2, 0, some 1⟩ (fun _ => .ok ()) 3).final (World.start .empty)

/-- A run cut off after its first batch leaves a checkpoint that covers what it copied, and the
    next run ends verified. -/
theorem repaired_afterFirstBatch :
    Repaired .sample (Source.constant oddRows) oddRows ⟨"quotes", 2, 0, none⟩ afterFirstBatch := by
  have hmode : (World.start (.empty : KeyedTable ℤ ℕ)).report.migrationMode
      ≠ some monotonicMigrationMode := by
    simp [World.start, TableReport.cleared]
  have hrestarts := (@Restarts.start _ .sample (Source.constant oddRows)
    (World.start .empty)).final ⟨"quotes", 2, 0, some 1⟩ (fun _ => .ok ()) 3
  refine (repaired_iff_checkpointCovered .sample (Source.constant oddRows) oddRows rfl hmode rfl
    hrestarts ⟨fun _ _ => rfl, fun _ _ => rfl⟩).mpr ?_
  show CheckpointCovered oddRows afterFirstBatch
  decide +kernel

/-- Three rows, the second of which the source does not show to the first three reads. -/
def lateRow : Source ℤ ℕ where
  snapshot i := if i < 3 then ⟨[(1, 0), (3, 0)], by decide⟩ else ⟨[(1, 0), (2, 0), (3, 0)], by decide⟩
  grows i row h := by
    by_cases hi : i + 1 < 3
    · rw [if_pos (by omega)] at h
      rw [if_pos hi]
      exact h
    · rw [if_neg hi]
      split at h
      · simp at h ⊢
        tauto
      · exact h
  failure _ := none

/-- A run that copies the rows around the late one, and then fails to verify. -/
def afterLateRow : World ℤ ℕ :=
  (migrateMonotonicIntegerAppendOnlyTable .sample lateRow
    ⟨"quotes", 2, 0, none⟩ (fun _ => .ok ()) 3).final (World.start .empty)

/-- The late row is behind the checkpoint of the first run, which every further run resumes from,
    and so no further run ends verified. -/
theorem not_repaired_lateRow :
    Restarts .sample lateRow (World.start .empty) afterLateRow
      ∧ Quiet lateRow (lateRow.snapshot 3) afterLateRow.reads.length
      ∧ ¬ Repaired .sample lateRow (lateRow.snapshot 3) ⟨"quotes", 2, 0, none⟩ afterLateRow := by
  have hmode : (World.start (.empty : KeyedTable ℤ ℕ)).report.migrationMode
      ≠ some monotonicMigrationMode := by
    simp [World.start, TableReport.cleared]
  have hrestarts : Restarts .sample lateRow (World.start .empty) afterLateRow :=
    Restarts.start.final _ _ _
  have hreads : afterLateRow.reads.length = 4 := by decide +kernel
  have hquiet : Quiet lateRow (lateRow.snapshot 3) afterLateRow.reads.length := by
    refine ⟨fun i hi => ?_, fun _ _ => rfl⟩
    have hi' : ¬ i < 3 := by omega
    simp [lateRow, hi']
  refine ⟨hrestarts, hquiet, fun h => ?_⟩
  have hcovered := (repaired_iff_of_inv rfl (hrestarts.inv hmode)
    (hrestarts.targetFromSource hmode rfl) hquiet).mp h
  revert hcovered
  decide +kernel

end InefficiencyEngine.Migration
