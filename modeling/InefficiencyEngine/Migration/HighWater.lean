import InefficiencyEngine.Migration.Monotonic
import InefficiencyEngine.Migration.Reconciliation

namespace InefficiencyEngine.Migration

open Durable Prog

/-!
# Soundness of the high-water migration

Every write of the migration is one of five kinds (`MonotonicStep`), and from that: over any
runs that are interrupted at any write and restarted on the report they left, the high water
stays the one captured, no row above it is touched, and a report that says verified belongs
to a target whose rows up to the high water are those a verification walk read
(`migrateMonotonic_exact`).
-/

variable {V : Type} {R : Runtime ℤ V} {src : Source ℤ V}

/-! ### What a migration writes -/

/-- The keys a high water admits. -/
def withinHighWater (highWater : Option ℤ) (key : ℤ) : Bool := highWater.any (fun h => key ≤ h)

theorem mem_atOrBeforeHighWater {table : KeyedTable ℤ V} {highWater : Option ℤ} {row : ℤ × V} :
    row ∈ atOrBeforeHighWater table highWater
      ↔ row ∈ table.rows ∧ withinHighWater highWater row.1 = true := List.mem_filter

theorem sourceBatch_eq_batch (limit : ℕ) (highWater checkpoint : Option ℤ)
    (table : KeyedTable ℤ V) :
    sourceBatch limit highWater checkpoint table
      = table.batch (withinHighWater highWater) limit checkpoint := by
  cases highWater with
  | none =>
    rw [sourceBatch, KeyedTable.batch, KeyedTable.rowsAfter, List.filter_eq_nil_iff.mpr]
    · exact (List.take_nil).symm
    · intro row _
      simp [withinHighWater]
  | some highWater => rfl

/-- A report of this migration that is not verified. -/
structure InProgress (r : TableReport ℤ) : Prop where
  mode : r.migrationMode = some monotonicMigrationMode
  unverified : r.verified = false

/-- A report of this migration under a captured high water. -/
structure Captured (r : TableReport ℤ) (highWater : Option ℤ) : Prop where
  mode : r.migrationMode = some monotonicMigrationMode
  captured : r.snapshotHighWaterCaptured = true
  highWater : r.snapshotHighWaterPrimaryKey = highWater

/-- The rows of a source up to a high water, as a verification walk of so many reads has
    read them. -/
def VerificationWalk (src : Source ℤ V) (highWater : Option ℤ) (reads : ℕ)
    (rows : List (ℤ × V)) : Prop :=
  ∃ limit n m, 0 < limit ∧ m ≤ reads
    ∧ KeysetWalk src.snapshot (withinHighWater highWater) limit n none m rows

/-- What a verified report says about the target. -/
structure VerifiedReport (R : Runtime ℤ V) (r : TableReport ℤ) (highWater : Option ℤ)
    (rows : List (ℤ × V)) : Prop where
  captured : Captured r highWater
  highWaterPrimaryKey : r.highWaterPrimaryKey = some highWater
  lastPrimaryKey : r.lastPrimaryKey = highWater
  verifiedRows : r.verifiedRows = some rows.length
  rowDigest : r.rowDigest = some (R.digest rows)

/-- **Writes.** The kinds of writes a migration makes. -/
inductive MonotonicStep (R : Runtime ℤ V) (src : Source ℤ V) (s : World ℤ V) :
    Write ℤ V → Prop
  | read (phase : String) : MonotonicStep R src s (.read phase)
  | transport (transport : TransportReport) :
      MonotonicStep R src s (.publish (s.report.withTransport transport))
  /-- A report of the migration in progress: it keeps a high water that is captured, and has
      no checkpoint before. -/
  | progress (r : TableReport ℤ)
      (hs : s.report.migrationMode = some monotonicMigrationMode → s.report.verified = false)
      (hr : InProgress r) (hkeeps : ∀ h, Captured s.report h → Captured r h)
      (hfresh : r.snapshotHighWaterCaptured = false → r.lastPrimaryKey = none) :
      MonotonicStep R src s (.publish r)
  | insert (rows : List (ℤ × V)) (highWater : Option ℤ) (hs : InProgress s.report)
      (hcaptured : Captured s.report highWater)
      (hrows : ∀ row ∈ rows, withinHighWater highWater row.1 = true
        ∧ row ∈ (src.snapshot s.reads.length).rows) :
      MonotonicStep R src s (.insertIgnore rows)
  | finish (r : TableReport ℤ) (highWater : Option ℤ) (rows : List (ℤ × V))
      (hs : InProgress s.report) (hcaptured : Captured s.report highWater)
      (hr : VerifiedReport R r highWater rows)
      (hwalk : VerificationWalk src highWater s.reads.length rows)
      (htarget : atOrBeforeHighWater s.target highWater = rows) :
      MonotonicStep R src s (.publish r)

/-- Blocks of one such write. -/
inductive MonotonicBlock (R : Runtime ℤ V) (src : Source ℤ V) (s : World ℤ V) :
    List (Write ℤ V) → Prop
  | single {w : Write ℤ V} (h : MonotonicStep R src s w) : MonotonicBlock R src s [w]

theorem ReadStep.monotonicBlock {phase : String} {s : World ℤ V} {block : List (Write ℤ V)}
    (h : ReadStep phase s block) : MonotonicBlock R src s block := by
  cases h with
  | read => exact .single (.read phase)
  | publish transport => exact .single (.transport transport)

/-! ### The invariant -/

/-- The target of a verified report. -/
structure VerifiedTarget (R : Runtime ℤ V) (src : Source ℤ V) (s : World ℤ V)
    (highWater : Option ℤ) (rows : List (ℤ × V)) : Prop where
  report : VerifiedReport R s.report highWater rows
  walk : VerificationWalk src highWater s.reads.length rows
  target : atOrBeforeHighWater s.target highWater = rows

/-- What holds of the world between any two writes, once a report of this migration is
    published. -/
structure MonotonicInv (R : Runtime ℤ V) (src : Source ℤ V) (s : World ℤ V) : Prop where
  fresh : s.report.migrationMode = some monotonicMigrationMode →
    s.report.snapshotHighWaterCaptured = false → s.report.lastPrimaryKey = none
  verified : s.report.migrationMode = some monotonicMigrationMode → s.report.verified = true →
    ∃ highWater rows, VerifiedTarget R src s highWater rows

theorem VerificationWalk.mono {highWater : Option ℤ} {n m : ℕ} {rows : List (ℤ × V)}
    (h : VerificationWalk src highWater n rows) (hnm : n ≤ m) :
    VerificationWalk src highWater m rows := by
  obtain ⟨limit, start, stop, hlimit, hstop, hwalk⟩ := h
  exact ⟨limit, start, stop, hlimit, hstop.trans hnm, hwalk⟩

/-- **Step.** Every write keeps the invariant. -/
theorem MonotonicInv.step {s : World ℤ V} {w : Write ℤ V} (hs : MonotonicInv R src s)
    (h : MonotonicStep R src s w) : MonotonicInv R src (commit s w) := by
  cases h with
  | read phase =>
    refine ⟨hs.fresh, fun hmode hverified => ?_⟩
    obtain ⟨highWater, rows, hreport, hwalk, htarget⟩ := hs.verified hmode hverified
    refine ⟨highWater, rows, hreport, hwalk.mono ?_, htarget⟩
    show s.reads.length ≤ (s.reads ++ [phase]).length
    rw [List.length_append]
    exact Nat.le_add_right _ _
  | transport transport =>
    refine ⟨hs.fresh, fun hmode hverified => ?_⟩
    obtain ⟨highWater, rows, ⟨⟨h₁, h₂, h₃⟩, h₄, h₅, h₆, h₇⟩, hwalk, htarget⟩ :=
      hs.verified hmode hverified
    exact ⟨highWater, rows, ⟨⟨h₁, h₂, h₃⟩, h₄, h₅, h₆, h₇⟩, hwalk, htarget⟩
  | progress r _ hr _ hfresh =>
    refine ⟨fun _ => hfresh, fun _ hverified => ?_⟩
    exact absurd (hr.unverified.symm.trans hverified) Bool.false_ne_true
  | insert rows highWater hprogress _ _ =>
    refine ⟨hs.fresh, fun _ hverified => ?_⟩
    exact absurd (hprogress.unverified.symm.trans hverified) Bool.false_ne_true
  | finish r highWater rows _ _ hr hwalk htarget =>
    refine ⟨fun _ hcaptured => ?_, fun _ _ => ⟨highWater, rows, hr, hwalk, htarget⟩⟩
    exact absurd (hr.captured.captured.symm.trans hcaptured) (by decide)

/-- A captured high water is kept by every write. -/
theorem Captured.step {s : World ℤ V} {w : Write ℤ V} {highWater : Option ℤ}
    (hs : Captured s.report highWater) (h : MonotonicStep R src s w) :
    Captured (commit s w).report highWater := by
  cases h with
  | read phase => exact hs
  | transport transport => exact ⟨hs.mode, hs.captured, hs.highWater⟩
  | progress r _ _ hkeeps _ => exact hkeeps highWater hs
  | insert rows _ _ _ _ => exact hs
  | finish r highWater' rows _ hcaptured hr _ _ =>
    obtain rfl : highWater' = highWater := hcaptured.highWater.symm.trans hs.highWater
    exact hr.captured

/-- Rows above the high water are neither inserted nor removed. -/
def KeepsAbove (s₀ s : World ℤ V) : Prop :=
  s.target = s₀.target ∨ ∃ highWater, Captured s.report highWater
    ∧ ∀ row, withinHighWater highWater row.1 = false →
      (row ∈ s.target.rows ↔ row ∈ s₀.target.rows)

theorem KeepsAbove.step {s₀ s : World ℤ V} {w : Write ℤ V} (hs : KeepsAbove s₀ s)
    (h : MonotonicStep R src s w) : KeepsAbove s₀ (commit s w) := by
  rcases hs with hsame | ⟨highWater, hcaptured, habove⟩
  -- nothing has been inserted since the start
  · cases h with
    | insert rows highWater _ hcaptured hrows =>
      refine Or.inr ⟨highWater, hcaptured, fun row hrow => ⟨fun hmem => ?_, fun hmem => ?_⟩⟩
      · rcases KeyedTable.mem_foldl_insertIgnore hmem with hmem | hmem
        · rwa [← hsame]
        · rw [(hrows row hmem).1] at hrow
          cases hrow
      · exact KeyedTable.subset_foldl_insertIgnore rows (hsame ▸ hmem)
    | read phase => exact Or.inl hsame
    | transport transport => exact Or.inl hsame
    | progress r _ _ _ _ => exact Or.inl hsame
    | finish r _ _ _ _ _ _ _ => exact Or.inl hsame
  -- the high water is captured, and what is inserted from now on is at or below it
  · refine Or.inr ⟨highWater, hcaptured.step h, fun row hrow => ?_⟩
    rw [← habove row hrow]
    cases h with
    | insert rows highWater' _ hcaptured' hrows =>
      obtain rfl : highWater' = highWater := hcaptured'.highWater.symm.trans hcaptured.highWater
      refine ⟨fun hmem => ?_, fun hmem => KeyedTable.subset_foldl_insertIgnore rows hmem⟩
      rcases KeyedTable.mem_foldl_insertIgnore hmem with hmem | hmem
      · exact hmem
      · rw [(hrows row hmem).1] at hrow
        cases hrow
    | read phase => rfl
    | transport transport => rfl
    | progress r _ _ _ _ => rfl
    | finish r _ _ _ _ _ _ _ => rfl

/-! ### The parts of the migration -/

section Parts

variable {job : Job} {highWater : Option ℤ}

/-- The migration in progress under a high water. -/
structure Copying (highWater : Option ℤ) (s : World ℤ V) : Prop where
  inProgress : InProgress s.report
  captured : Captured s.report highWater

/-- A read keeps what is said about the report. -/
theorem Copying.afterRead {phase : String} {i : ℕ} {s s' : World ℤ V} (h : Copying highWater s)
    (hread : AfterRead phase i s s') : Copying highWater s' := by
  obtain ⟨transport, hreport⟩ := hread.report
  refine ⟨?_, ?_⟩
  · rw [hreport]
    exact ⟨h.inProgress.mode, h.inProgress.unverified⟩
  · rw [hreport]
    exact ⟨h.captured.mode, h.captured.captured, h.captured.highWater⟩

/-- A read by a migration, from any world. -/
theorem spec_monotonicRead {α : Type} {P : World ℤ V → Prop} {phase : String}
    {reader : KeyedTable ℤ V → α} :
    Spec P (sourceReadWithRetry R src phase reader) (MonotonicBlock R src) (fun value s' =>
      ∃ s i, P s ∧ AfterRead phase i s s' ∧ value = reader (src.snapshot i)) :=
  spec_sourceRead fun _ _ => ReadStep.monotonicBlock

/-- A report that keeps the mode, the high water and the checkpoint. -/
theorem spec_progress {Q : World ℤ V → Prop} {update : TableReport ℤ → TableReport ℤ}
    (hmode : ∀ r, (update r).migrationMode = r.migrationMode)
    (hverified : ∀ r, (update r).verified = r.verified)
    (hcaptured : ∀ r, (update r).snapshotHighWaterCaptured = r.snapshotHighWaterCaptured)
    (hhighWater : ∀ r, (update r).snapshotHighWaterPrimaryKey = r.snapshotHighWaterPrimaryKey) :
    Spec (fun s => Copying highWater s ∧ ∀ r, Q { s with report := r }) (publish update)
      (MonotonicBlock R src) (fun _ s => Copying highWater s ∧ Q s) := by
  refine (spec_publish update).pre ?_
  rintro s ⟨⟨⟨hm, hv⟩, hm', hc, hh⟩, hQ⟩
  have hcopying : Copying highWater { s with report := update s.report } :=
    ⟨⟨(hmode _).trans hm, (hverified _).trans hv⟩,
      ⟨(hmode _).trans hm, (hcaptured _).trans hc, (hhighWater _).trans hh⟩⟩
  refine ⟨.single (.progress _ (fun _ => hv) hcopying.inProgress ?_ ?_), hcopying, hQ _⟩
  · rintro h ⟨_, _, heq⟩
    exact ⟨(hmode _).trans hm, (hcaptured _).trans hc, (hhighWater _).trans heq⟩
  · intro hnone
    rw [hcaptured, hc] at hnone
    cases hnone

/-- Such a report, where nothing else is said about the world. -/
theorem spec_publish_copying {update : TableReport ℤ → TableReport ℤ}
    (hmode : ∀ r, (update r).migrationMode = r.migrationMode)
    (hverified : ∀ r, (update r).verified = r.verified)
    (hcaptured : ∀ r, (update r).snapshotHighWaterCaptured = r.snapshotHighWaterCaptured)
    (hhighWater : ∀ r, (update r).snapshotHighWaterPrimaryKey = r.snapshotHighWaterPrimaryKey) :
    Spec (Copying highWater) (publish update) (MonotonicBlock R src)
      (fun _ => Copying highWater) :=
  ((spec_progress (Q := fun _ => True) hmode hverified hcaptured hhighWater).pre
    (fun _ h => ⟨h, fun _ => trivial⟩)).conseq (fun _ _ h => h.1)

/-- A report of another migration gives way to one of this. -/
theorem spec_resetReport :
    Spec (fun s => MonotonicInv R src s
        ∧ (s.report.migrationMode = some monotonicMigrationMode → s.report.verified = false))
      resetReport (MonotonicBlock R src)
      (fun _ s => InProgress s.report
        ∧ (s.report.snapshotHighWaterCaptured = false → s.report.lastPrimaryKey = none)) := by
  refine spec_bind spec_get (fun s => ?_)
  split
  · rename_i hmode
    refine (spec_publish _).pre ?_
    rintro _ ⟨⟨_, hunverified⟩, rfl⟩
    refine ⟨.single (.progress _ hunverified ⟨rfl, rfl⟩ ?_ (fun _ => rfl)), ⟨rfl, rfl⟩, fun _ => rfl⟩
    exact fun h hcaptured => absurd hcaptured.mode hmode
  · rename_i hmode
    refine (spec_pure ()).pre ?_
    rintro _ ⟨⟨hinv, hunverified⟩, rfl⟩
    have hmode' := not_not.mp hmode
    exact ⟨⟨hmode', hunverified hmode'⟩, hinv.fresh hmode'⟩

/-- The high water is the captured one, or a new one that is captured. -/
theorem spec_monotonicHighWater :
    Spec (fun s => InProgress s.report
        ∧ (s.report.snapshotHighWaterCaptured = false → s.report.lastPrimaryKey = none))
      (monotonicHighWater R src) (MonotonicBlock R src)
      (fun highWater s => Copying highWater s) := by
  refine spec_bind spec_get (fun s => ?_)
  split
  -- a restart: the persisted high water is taken as it is
  · rename_i hcaptured
    refine (spec_pure _).pre ?_
    rintro _ ⟨⟨hprogress, _⟩, rfl⟩
    exact ⟨hprogress, hprogress.mode, hcaptured, rfl⟩
  -- a first start: it is read from the source and published before any row is copied
  · rename_i hcaptured
    refine spec_bind spec_monotonicRead (fun highWater => ?_)
    refine spec_bind (Q := fun _ s => Copying highWater s) ((spec_publish _).pre ?_)
      (fun _ => (spec_pure _).pre (fun _ h => h))
    rintro s' ⟨s₁, i, ⟨⟨hprogress, hfresh⟩, rfl⟩, hread, -⟩
    obtain ⟨transport, hreport⟩ := hread.report
    have hmode : s'.report.migrationMode = some monotonicMigrationMode := by
      rw [hreport]
      exact hprogress.mode
    have hunverified : s'.report.verified = false := by
      rw [hreport]
      exact hprogress.unverified
    refine ⟨.single (.progress _ (fun _ => hunverified) ⟨hmode, hunverified⟩ ?_ ?_),
      ⟨hmode, hunverified⟩, hmode, rfl, rfl⟩
    -- a persisted report without the mark cannot have captured one before
    · intro h hc
      have heq := hc.captured
      rw [hreport] at heq
      exact absurd heq hcaptured
    · intro h
      cases h

theorem boundedBatchSize_pos : 0 < boundedBatchSize job.batchSize :=
  Nat.lt_of_lt_of_le one_pos (Nat.le_max_left _ _)

/-- The copy inserts rows of the source up to the high water. -/
theorem spec_monotonicCopyLoop (fuel : ℕ) (checkpoint : Option ℤ) (copied completedBatches : ℕ) :
    Spec (Copying highWater)
      (monotonicCopyLoop R src job highWater fuel checkpoint copied completedBatches)
      (MonotonicBlock R src) (fun _ s => Copying highWater s) := by
  induction fuel generalizing checkpoint copied completedBatches with
  | zero => exact spec_raise _
  | succ fuel ih =>
    rw [monotonicCopyLoop]
    refine spec_bind spec_monotonicRead (fun rows => ?_)
    cases rows.getLast? with
    | none =>
      refine (spec_pure _).pre ?_
      rintro s' ⟨s, i, hs, hread, -⟩
      exact hs.afterRead hread
    | some last =>
      refine spec_bind (Q := fun _ => Copying highWater) ((spec_write _).pre ?_) (fun _ => ?_)
      · rintro s' ⟨s, i, hs, hread, hrows⟩
        have hs' := hs.afterRead hread
        refine ⟨.single (.insert rows highWater hs'.inProgress hs'.captured (fun row hrow => ?_)),
          hs'.inProgress, hs'.captured⟩
        rw [hrows, sourceBatch_eq_batch] at hrow
        obtain ⟨hmem, hbound, -⟩ := KeyedTable.mem_of_mem_batch hrow
        rw [hread.length_reads]
        exact ⟨hbound, src.grows i row hmem⟩
      refine spec_bind (spec_publish_copying (fun _ => rfl) (fun _ => rfl) (fun _ => rfl)
        (fun _ => rfl)) (fun _ => ?_)
      refine spec_bind (Q := fun _ => Copying highWater) ((spec_lift _).conseq ?_) (fun _ => ih _ _ _)
      exact fun _ _ h => h.1

/-- **Verification walk.** The rows it returns are those it has been given and those of a walk
    after its checkpoint. The rows verified are those of a walk up to the high water, which is
    what the final report is later compared with. -/
theorem spec_monotonicVerifyLoop (target : KeyedTable ℤ V) (fuel : ℕ) (checkpoint : Option ℤ)
    (verified : List (ℤ × V)) (n : ℕ) :
    Spec (fun s => Copying highWater s ∧ s.target = target ∧ n ≤ s.reads.length)
      (monotonicVerifyLoop R src job highWater fuel checkpoint verified) (MonotonicBlock R src)
      (fun result s => Copying highWater s ∧ s.target = target ∧ ∃ rows,
        result = verified ++ rows ∧ KeysetWalk src.snapshot (withinHighWater highWater)
          (boundedBatchSize job.batchSize) n checkpoint s.reads.length rows) := by
  induction fuel generalizing checkpoint verified n with
  | zero => exact spec_raise _
  | succ fuel ih =>
    rw [monotonicVerifyLoop]
    refine spec_bind spec_monotonicRead (fun sourceRows => ?_)
    cases hlast : sourceRows.getLast? with
    -- an empty batch ends the walk
    | none =>
      refine (spec_pure _).pre ?_
      rintro s' ⟨s, i, ⟨hs, htarget, hn⟩, hread, hrows⟩
      refine ⟨hs.afterRead hread, hread.target.trans htarget, [], (List.append_nil _).symm, ?_⟩
      rw [hread.length_reads]
      refine .done (hn.trans hread.start_le) ?_
      rw [← sourceBatch_eq_batch, ← hrows]
      exact List.getLast?_eq_none_iff.mp hlast
    | some last =>
      refine spec_bind spec_get (fun s₁ => spec_of_forall (fun s₂ hs₂ => ?_))
      obtain ⟨⟨s, i, ⟨hs, htarget, hn⟩, hread, hrows⟩, rfl⟩ := hs₂
      split
      · exact spec_raise _
      -- the report of the progress changes neither the target nor the capture
      refine spec_bind (Q := fun _ s => Copying highWater s
        ∧ (s.target = target ∧ i + 1 ≤ s.reads.length)) ?_ (fun _ => ?_)
      · refine Spec.pre (spec_progress (fun _ => rfl) (fun _ => rfl) (fun _ => rfl)
          (fun _ => rfl)) ?_
        rintro _ rfl
        exact ⟨hs.afterRead hread, fun _ => ⟨hread.target.trans htarget, hread.length_reads.ge⟩⟩
      refine (ih (some last.1) (verified ++ sourceRows) (i + 1)).conseq ?_
      rintro result s₃ ⟨hs₃, htarget₃, rest, hresult, hrest⟩
      refine ⟨hs₃, htarget₃, sourceRows ++ rest, by rw [hresult, List.append_assoc], ?_⟩
      rw [hrows, sourceBatch_eq_batch] at hlast ⊢
      exact .batch (hn.trans hread.start_le) hlast hrest

/-- The end of the migration: count and digest make the target the rows verified. -/
theorem spec_finishMonotonic (verified : List (ℤ × V)) :
    Spec (fun s => Copying highWater s ∧ VerificationWalk src highWater s.reads.length verified)
      (finishMonotonic R job highWater verified) (MonotonicBlock R src)
      (fun _ s => s.report.verified = true ∧ VerifiedTarget R src s highWater verified) := by
  refine spec_bind spec_get (fun s => ?_)
  dsimp only
  split
  · exact spec_raise _
  · rename_i hsame
    rw [not_or, not_not, not_not] at hsame
    have htarget : atOrBeforeHighWater s.target highWater = verified :=
      R.digest_injective hsame.2
    refine (spec_publish _).pre ?_
    rintro _ ⟨⟨hs, hwalk⟩, rfl⟩
    refine ⟨.single (.finish _ highWater verified hs.inProgress hs.captured ?_ hwalk htarget),
      rfl, ?_, hwalk, htarget⟩
    all_goals
      exact ⟨⟨hs.captured.mode, hs.captured.captured, hs.captured.highWater⟩, rfl, rfl, rfl,
        congrArg some hsame.2⟩

end Parts

/-! ### Runs and restarts -/

/-- A verified target is intact. -/
theorem VerifiedTarget.intact {s : World ℤ V} {highWater : Option ℤ} {rows : List (ℤ × V)}
    (h : VerifiedTarget R src s highWater rows) (hverified : s.report.verified = true) (job : Job) :
    monotonicTargetIsIntact R job s = .ok true := by
  rw [monotonicTargetIsIntact, if_pos ⟨hverified, h.report.captured.mode⟩, verifiedTargetIsIntact,
    if_neg (by rw [hverified]; decide), h.report.highWaterPrimaryKey, h.report.verifiedRows,
    h.report.rowDigest]
  dsimp only
  rw [if_neg (show R.digest rows ≠ "" from R.sha256_ne_empty _), if_neg]
  rw [not_not, rowDigest, h.target]

/-- The migration makes the writes of `MonotonicStep`, and ends normally on a verified target.
    As for the captured migration, a target that the report calls verified must be intact, and
    any other target is copied up to a high water captured before. -/
theorem spec_migrateMonotonic (job : Job) (before : Option ℤ → Except Raised Unit) (fuel : ℕ) :
    Spec (MonotonicInv R src) (migrateMonotonicIntegerAppendOnlyTable R src job before fuel)
      (MonotonicBlock R src) (fun _ s => s.report.verified = true
        ∧ ∃ highWater rows, VerifiedTarget R src s highWater rows) := by
  refine spec_bind spec_get (fun s => ?_)
  refine spec_bind (spec_lift _) (fun intact => spec_of_forall (fun s₁ hs₁ => ?_))
  obtain ⟨⟨hinv, rfl⟩, hintact⟩ := hs₁
  by_cases hverified : s.report.verified = true
      ∧ s.report.migrationMode = some monotonicMigrationMode
  -- the report says verified, and the invariant gives the walk it stands on
  · obtain ⟨highWater, rows, htarget⟩ := hinv.verified hverified.2 hverified.1
    rw [htarget.intact hverified.1 job, Except.ok.injEq] at hintact
    subst hintact
    refine (spec_pure _).pre ?_
    rintro _ rfl
    exact ⟨hverified.1, highWater, rows, htarget⟩
  -- not verified: reset, capture, copy, verification and the final report
  · rw [monotonicTargetIsIntact, if_neg hverified, Except.ok.injEq] at hintact
    subst hintact
    refine spec_bind (spec_resetReport.pre ?_) (fun _ => ?_)
    · rintro _ rfl
      refine ⟨hinv, fun hmode => ?_⟩
      rw [← Bool.not_eq_true]
      exact fun h => hverified ⟨h, hmode⟩
    refine spec_bind spec_monotonicHighWater (fun highWater => ?_)
    refine spec_bind (spec_lift _) (fun _ => ?_)
    refine spec_bind spec_get (fun s₂ => ?_)
    refine spec_bind (Q := fun _ => Copying highWater) ?_ (fun _ => ?_)
    · exact Spec.pre (spec_publish_copying (fun _ => rfl) (fun _ => rfl) (fun _ => rfl)
        (fun _ => rfl)) (fun _ h => h.1.1)
    refine spec_bind (spec_monotonicCopyLoop _ _ _ _) (fun completedBatches => ?_)
    refine spec_bind (spec_publish_copying (fun _ => rfl) (fun _ => rfl) (fun _ => rfl)
      (fun _ => rfl)) (fun _ => ?_)
    refine spec_of_forall (fun s₃ hs₃ => ?_)
    refine spec_bind ((spec_monotonicVerifyLoop s₃.target fuel none [] s₃.reads.length).pre ?_)
      (fun verified => ?_)
    · rintro _ rfl
      exact ⟨hs₃, rfl, le_rfl⟩
    refine spec_bind ((spec_finishMonotonic verified).pre ?_)
      (fun _ => (spec_pure _).pre (fun _ h => ⟨h.1, highWater, verified, h.2⟩))
    rintro s₄ ⟨hs₄, -, rows, rfl, hwalk⟩
    exact ⟨hs₄, _, _, _, boundedBatchSize_pos, le_rfl, hwalk⟩

/-- The worlds reached by runs of the migration, each restarted on the report the one before
    it left when it ended, or was interrupted after any of its writes. -/
inductive Restarts (R : Runtime ℤ V) (src : Source ℤ V) (s₀ : World ℤ V) : World ℤ V → Prop
  | start : Restarts R src s₀ s₀
  | run {s : World ℤ V} (h : Restarts R src s₀ s) (job : Job)
      (before : Option ℤ → Except Raised Unit) (fuel k : ℕ) :
      Restarts R src s₀ (commitAll s
        ((migrateMonotonicIntegerAppendOnlyTable R src job before fuel s).1.take k))

/-- What every write keeps holds after any part of a run. -/
theorem MonotonicInv.journal {I : World ℤ V → Prop}
    (hstep : ∀ s w, MonotonicInv R src s → I s → MonotonicStep R src s w → I (commit s w))
    {s : World ℤ V} (hs : MonotonicInv R src s) (hI : I s) (job : Job)
    (before : Option ℤ → Except Raised Unit) (fuel k : ℕ) :
    MonotonicInv R src (commitAll s
        ((migrateMonotonicIntegerAppendOnlyTable R src job before fuel s).1.take k))
      ∧ I (commitAll s
        ((migrateMonotonicIntegerAppendOnlyTable R src job before fuel s).1.take k)) := by
  refine Along.invariant (I := fun t => MonotonicInv R src t ∧ I t) ?_ ⟨hs, hI⟩
    ((spec_migrateMonotonic job before fuel).guarantee s hs) k
  rintro t _ ⟨ht, hIt⟩ ⟨hw⟩ n
  rcases Nat.eq_zero_or_pos n with rfl | hpos
  · exact ⟨ht, hIt⟩
  · rw [List.take_of_length_le hpos]
    exact ⟨ht.step hw, hstep t _ ht hIt hw⟩

/-- What every write keeps holds after any restarts. -/
theorem Restarts.invariant {I : World ℤ V → Prop}
    (hstep : ∀ s w, MonotonicInv R src s → I s → MonotonicStep R src s w → I (commit s w))
    {s₀ s : World ℤ V} (hs₀ : MonotonicInv R src s₀) (hI : I s₀) (h : Restarts R src s₀ s) :
    MonotonicInv R src s ∧ I s := by
  induction h with
  | start => exact ⟨hs₀, hI⟩
  | run _ job before fuel k ih => exact ih.1.journal hstep ih.2 job before fuel k

/-- Before the first run nothing is said about this migration. -/
theorem monotonicInv_of_mode {s : World ℤ V}
    (h : s.report.migrationMode ≠ some monotonicMigrationMode) : MonotonicInv R src s :=
  ⟨fun hmode => absurd hmode h, fun hmode => absurd hmode h⟩

theorem Restarts.inv {s₀ s : World ℤ V}
    (hmode : s₀.report.migrationMode ≠ some monotonicMigrationMode) (h : Restarts R src s₀ s) :
    MonotonicInv R src s :=
  (h.invariant (I := fun _ => True) (fun _ _ _ _ _ => trivial) (monotonicInv_of_mode hmode)
    trivial).1

/-- The target up to the persisted high water is what a verification walk read. -/
def VerifiedExact (src : Source ℤ V) (s : World ℤ V) : Prop :=
  s.report.verified = true ∧ VerificationWalk src s.report.snapshotHighWaterPrimaryKey
    s.reads.length (atOrBeforeHighWater s.target s.report.snapshotHighWaterPrimaryKey)

/-- **High-water migration.** Over any interruptions and restarts: a run that ends normally
    leaves a verified report, and a target whose rows up to the high water are those of a
    verification walk; no part of a run touches rows above the high water it has left; and
    a captured high water is never changed. -/
theorem migrateMonotonic_exact (R : Runtime ℤ V) (src : Source ℤ V) {s₀ s : World ℤ V}
    (hmode : s₀.report.migrationMode ≠ some monotonicMigrationMode) (h : Restarts R src s₀ s) :
    (∀ job before fuel completedBatches,
        (migrateMonotonicIntegerAppendOnlyTable R src job before fuel s).2 = .ok completedBatches →
          VerifiedExact src
            ((migrateMonotonicIntegerAppendOnlyTable R src job before fuel).final s))
      ∧ (∀ job before fuel k row, ∀ s', s' = commitAll s
            ((migrateMonotonicIntegerAppendOnlyTable R src job before fuel s).1.take k) →
          withinHighWater s'.report.snapshotHighWaterPrimaryKey row.1 = false →
            (row ∈ s'.target.rows ↔ row ∈ s.target.rows))
      ∧ (∀ s' highWater, Restarts R src s s' → Captured s.report highWater →
          Captured s'.report highWater) := by
  have hinv := h.inv hmode
  refine ⟨fun job before fuel completedBatches hok => ?_, fun job before fuel k row s' hs' hrow => ?_,
    fun s' highWater h' hcaptured => ?_⟩
  · obtain ⟨hverified, highWater, rows, htarget⟩ :=
      (spec_migrateMonotonic job before fuel).post s completedBatches hinv hok
    refine ⟨hverified, ?_⟩
    rw [htarget.report.captured.highWater, htarget.target]
    exact htarget.walk
  · subst hs'
    rcases (hinv.journal (I := KeepsAbove s) (fun _ _ _ hI hw => hI.step hw) (Or.inl rfl) job before
      fuel k).2 with hsame | ⟨highWater, hcaptured, habove⟩
    · rw [hsame]
    · rw [hcaptured.highWater] at hrow
      exact habove row hrow
  · exact (h'.invariant (I := fun t => Captured t.report highWater) (fun _ _ _ hI hw => hI.step hw)
      hinv hcaptured).2

/-- Rows of a source with gaps. -/
def oddRows : KeyedTable ℤ ℕ := ⟨[(1, 0), (3, 1), (5, 0)], by decide⟩

/-- A first run interrupted after one batch, over a target with a row of its own. -/
def afterInterruption : World ℤ ℕ :=
  (migrateMonotonicIntegerAppendOnlyTable .sample (Source.constant oddRows)
    ⟨"events", 2, 0, some 1⟩ (fun _ => .ok ()) 3).final (World.start ⟨[(9, 1)], by decide⟩)

/-- The second run ends on a verified target, beside the row above the high water. -/
theorem migrateMonotonic_afterInterruption :
    VerifiedExact (Source.constant oddRows)
      ((migrateMonotonicIntegerAppendOnlyTable .sample (Source.constant oddRows)
        ⟨"events", 2, 0, none⟩ (fun _ => .ok ()) 3).final afterInterruption) := by
  have hrestarts : Restarts .sample (Source.constant oddRows) (World.start ⟨[(9, 1)], by decide⟩)
      afterInterruption := by
    have hrun := Restarts.run (@Restarts.start _ .sample (Source.constant oddRows)
      (World.start ⟨[(9, 1)], by decide⟩)) ⟨"events", 2, 0, some 1⟩ (fun _ => .ok ()) 3
      (migrateMonotonicIntegerAppendOnlyTable .sample (Source.constant oddRows)
        ⟨"events", 2, 0, some 1⟩ (fun _ => .ok ()) 3 (World.start ⟨[(9, 1)], by decide⟩)).1.length
    rwa [List.take_length] at hrun
  have hok : (migrateMonotonicIntegerAppendOnlyTable .sample (Source.constant oddRows)
      ⟨"events", 2, 0, none⟩ (fun _ => .ok ()) 3 afterInterruption).2.toOption = some 1 := by
    decide +kernel
  exact (migrateMonotonic_exact .sample _ (by decide) hrestarts).1 _ _ _ 1 (ok_of_toOption hok)

end InefficiencyEngine.Migration
