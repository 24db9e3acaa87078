import InefficiencyEngine.Lib.Fuel
import InefficiencyEngine.Migration.AppendOnly
import InefficiencyEngine.Migration.Sample

namespace InefficiencyEngine.Migration

open Durable Prog

/-!
# Soundness of the append-only reconciliation

Whenever the migration ends normally, the target is the source as it was at the final count
(`migrateResumableAppendOnlyTable_reconciled`), whatever was inserted between the reads and
whatever the target held before.  The verified rows are rows of both tables, and there are as
many of them as of either.  Eight passes always suffice (`reconcile_ends`): if no walk of the
source goes on forever, the migration returns or raises.
-/

variable {K V : Type} [LinearOrder K] {R : Runtime K V} {src : Source K V}

/-- No guarantee about the journal. -/
abbrev Anything (_ : World K V) (_ : List (Write K V)) : Prop := True

/-- What a read leaves, and what it returns. -/
theorem spec_sourceRead {α : Type} {P : World K V → Prop} {G : World K V → List (Write K V) → Prop}
    {phase : String} {reader : KeyedTable K V → α}
    (hG : ∀ s block, ReadStep phase s block → G s block) :
    Spec P (sourceReadWithRetry R src phase reader) G (fun value s' =>
      ∃ s i, P s ∧ AfterRead phase i s s' ∧ value = reader (src.snapshot i)) where
  guarantee s _ := by
    obtain ⟨ws, halong, hrun⟩ := sourceRead_run R src phase reader s
    split at hrun
    · rw [hrun.1]
      exact halong.mono hG
    · obtain ⟨error, hraise⟩ := hrun
      rw [hraise]
      exact halong.mono hG
  post s value hs hvalue := by
    obtain ⟨ws, -, hrun⟩ := sourceRead_run R src phase reader s
    split at hrun
    · rename_i i _
      rw [hrun.1] at hvalue
      injection hvalue with hvalue
      refine ⟨s, i, hs, ?_, hvalue.symm⟩
      rw [final, hrun.1]
      exact hrun.2
    · obtain ⟨error, hraise⟩ := hrun
      rw [hraise] at hvalue
      cases hvalue

/-! ### The verification walk -/

theorem sourceRowsAfterCheckpoint_eq_batch (limit : ℕ) (checkpoint : Option K)
    (table : KeyedTable K V) :
    sourceRowsAfterCheckpoint limit checkpoint table
      = table.batch (fun _ => true) limit checkpoint := by
  rw [sourceRowsAfterCheckpoint, KeyedTable.batch, KeyedTable.rowsAfter]
  simp only [Bool.true_and]

/-- Source rows whose JSON is that of the target rows of their keys are target rows. -/
theorem subset_of_canonicalRows {rows : List (K × V)} {target : KeyedTable K V}
    (h : canonicalRows R rows = canonicalRows R (targetRowsForKeys target rows)) :
    rows ⊆ target.rows := by
  have heq : rows = targetRowsForKeys target rows :=
    List.map_injective_iff.mpr R.json_injective h
  intro row hrow
  rw [heq] at hrow
  exact List.mem_of_mem_filter hrow

/-- The target rows for the keys of rows that the target has are these rows. -/
theorem targetRowsForKeys_of_subset {rows : List (K × V)} {target : KeyedTable K V}
    (hsorted : rows.Pairwise (fun a b => a.1 < b.1)) (hsubset : rows ⊆ target.rows) :
    targetRowsForKeys target rows = rows := by
  refine KeyedTable.eq_of_mem_iff (target.sorted.filter _) hsorted (fun row => ?_)
  rw [targetRowsForKeys, List.mem_filter, decide_eq_true_iff]
  refine ⟨fun ⟨hrow, hkey⟩ => ?_, fun hrow => ⟨hsubset hrow, List.mem_map_of_mem hrow⟩⟩
  obtain ⟨row', hrow', heq⟩ := List.mem_map.mp hkey
  rwa [KeyedTable.row_unique hrow (hsubset hrow') heq.symm]

/-- **Verification.** A walk without a mismatch reads rows that the target has, and counts them.
    The walk is that of the reads, not of one snapshot: each batch is of what the source showed
    at its own read. -/
theorem spec_verifyLoop (job : Job) (target : KeyedTable K V) (fuel : ℕ) (checkpoint : Option K)
    (verified n : ℕ) :
    Spec (fun s => s.target = target ∧ n ≤ s.reads.length)
      (verifyLoop R src job fuel checkpoint verified) Anything
      (fun result s => s.target = target ∧ (result.1 = false → ∃ rows,
        KeysetWalk src.snapshot (fun _ => true) job.batchSize n checkpoint s.reads.length rows
          ∧ rows ⊆ target.rows ∧ result.2 = verified + rows.length)) := by
  induction fuel generalizing checkpoint verified n with
  | zero => exact spec_raise _
  | succ fuel ih =>
    rw [verifyLoop]
    refine spec_bind (spec_sourceRead fun _ _ _ => trivial) (fun sourceRows => ?_)
    have hbatch : ∀ i, sourceRows = sourceRowsAfterCheckpoint job.batchSize checkpoint
        (src.snapshot i) → (src.snapshot i).batch (fun _ => true) job.batchSize checkpoint
          = sourceRows :=
      fun i h => by rw [h, sourceRowsAfterCheckpoint_eq_batch]
    cases hlast : sourceRows.getLast? with
    -- an empty batch ends the walk
    | none =>
      refine (spec_pure _).pre ?_
      rintro s' ⟨s, i, ⟨htarget, hn⟩, hread, hrows⟩
      refine ⟨hread.target.trans htarget, fun _ => ⟨[], ?_, List.nil_subset _, rfl⟩⟩
      rw [hread.length_reads]
      refine .done (hn.trans hread.start_le) ?_
      rw [hbatch i hrows]
      exact List.getLast?_eq_none_iff.mp hlast
    | some last =>
      refine spec_bind spec_get (fun s₁ => spec_of_forall (fun s₂ hs₂ => ?_))
      obtain ⟨⟨s, i, ⟨htarget, hn⟩, hread, hrows⟩, rfl⟩ := hs₂
      have htarget₁ : s₁.target = target := hread.target.trans htarget
      -- a mismatch ends it with the flag set, which promises nothing
      split
      · refine (spec_pure _).pre ?_
        rintro _ rfl
        exact ⟨htarget₁, fun h => by cases h⟩
      -- the batch is in the target, and the walk goes on behind its last key
      · rename_i hcanonical
        refine ((ih (some last.1) (verified + sourceRows.length) (i + 1)).pre ?_).conseq ?_
        · rintro _ rfl
          exact ⟨htarget₁, hread.length_reads.ge⟩
        · rintro result s₃ ⟨htarget₃, hwalk⟩
          refine ⟨htarget₃, fun hmatch => ?_⟩
          obtain ⟨rest, hrest, hsubset, hcount⟩ := hwalk hmatch
          have hrows' := hbatch i hrows
          refine ⟨sourceRows ++ rest, ?_, ?_, ?_⟩
          · rw [← hrows']
            refine .batch (hn.trans hread.start_le) ?_ hrest
            rw [hrows', hlast]
          · rw [htarget₁] at hcanonical
            exact List.append_subset.mpr
              ⟨subset_of_canonicalRows (not_not.mp hcanonical), hsubset⟩
          · rw [hcount, List.length_append, Nat.add_assoc]

/-! ### The passes -/

/-- The target is the source as the final count found it, right after that read. -/
def Reconciled (src : Source K V) (s : World K V) : Prop :=
  s.report.verified = true ∧ ∃ earlier, s.reads = earlier ++ ["final_source_count"]
    ∧ s.target.rows = (src.snapshot earlier.length).rows

/-- **Counting argument.** Verified rows, as many as the source had at a later count and as
    the target has, are all rows of both. -/
theorem rows_eq_of_counts {target : KeyedTable K V} {limit n m i : ℕ} {rows : List (K × V)}
    (hwalk : KeysetWalk src.snapshot (fun _ => true) limit n none m rows)
    (hsubset : rows ⊆ target.rows) (hi : m ≤ i + 1)
    (hsource : rows.length = (src.snapshot i).rows.length)
    (htarget : (src.snapshot i).rows.length = target.rows.length) :
    target.rows = (src.snapshot i).rows := by
  have hsnapshot : rows ⊆ (src.snapshot i).rows :=
    fun row hrow => hwalk.mem_snapshot src.grows hrow hi
  rw [← KeyedTable.eq_rows_of_subset hwalk.sorted hsnapshot hsource,
    KeyedTable.eq_rows_of_subset hwalk.sorted hsubset (hsource.trans htarget)]

/-- The last report of a reconciled target. -/
theorem spec_finishReconciliation (job : Job) (sourceCount targetCount : ℕ) :
    Spec (fun s => ∃ earlier, s.reads = earlier ++ ["final_source_count"]
        ∧ s.target.rows = (src.snapshot earlier.length).rows)
      (finishReconciliation R job sourceCount targetCount) Anything
      (fun _ s => Reconciled src s) := by
  refine spec_bind spec_get (fun s => ?_)
  dsimp only
  split
  · exact spec_raise _
  · refine (spec_publish _).pre ?_
    rintro _ ⟨h, rfl⟩
    exact ⟨trivial, rfl, h⟩

/-- A pass that ends the migration normally has reconciled the target. Only a pass whose
    verification found no mismatch and whose two counts agree ends the migration, and equal
    counts of a subset make the tables equal. -/
theorem spec_reconcile (job : Job) (fuel passFuel : ℕ) (reconciliationPass : ℤ)
    (checkpoint : Option K) (completedBatches : ℕ) :
    Spec (fun _ => True) (reconcile R src job fuel passFuel reconciliationPass checkpoint
      completedBatches) Anything (fun _ s => Reconciled src s) := by
  induction passFuel generalizing reconciliationPass checkpoint completedBatches with
  | zero =>
    -- no pass is left: the run raises
    rw [reconcile]
    split <;> exact spec_raise _
  | succ passFuel ih =>
    rw [reconcile]
    split
    · exact spec_raise _
    refine spec_bind (spec_any _) (fun _ => ?_)
    refine spec_bind (spec_any _) (fun completedBatches => ?_)
    refine spec_bind (spec_any _) (fun sourceCount => ?_)
    refine spec_bind spec_get (fun s => ?_)
    refine spec_bind (spec_any _) (fun _ => ?_)
    -- the catch-up copied rows: another pass
    split
    · exact spec_bind (spec_any _) (fun _ => (ih _ _ _).pre (fun _ _ => trivial))
    · refine spec_of_forall (fun s₁ _ => ?_)
      refine spec_bind ((spec_verifyLoop job s₁.target fuel none 0 s₁.reads.length).pre ?_)
        (fun verification => ?_)
      · rintro _ rfl
        exact ⟨rfl, le_rfl⟩
      -- the count of the source is read once more behind the verification
      refine spec_bind (spec_sourceRead fun _ _ _ => trivial) (fun sourceCountAfter => ?_)
      refine spec_bind spec_get (fun s₂ => spec_of_forall (fun s₃ hs₃ => ?_))
      obtain ⟨⟨s, i, ⟨htarget, hwalk⟩, hread, hcount⟩, rfl⟩ := hs₃
      dsimp only
      split
      -- a mismatch or unequal counts: another pass
      · exact spec_bind (spec_any _) (fun _ => (ih _ _ _).pre (fun _ _ => trivial))
      · rename_i hconverged
        obtain ⟨hmatch, hverified, hcounts⟩ : verification.1 = false
            ∧ verification.2 = sourceCountAfter ∧ sourceCountAfter = s₂.target.rows.length := by
          rw [not_or, not_or, Bool.not_eq_true, not_not, not_not] at hconverged
          exact hconverged
        obtain ⟨rows, hrows, hsubset, hlength⟩ := hwalk hmatch
        refine spec_bind ((spec_finishReconciliation job _ _).pre ?_)
          (fun _ => (spec_pure _).pre (fun _ h => h))
        rintro _ rfl
        obtain ⟨k, hreads, hk⟩ := hread.reads
        refine ⟨s.reads ++ List.replicate k "final_source_count", hreads, ?_⟩
        rw [List.length_append, List.length_replicate, hk]
        rw [hread.target, htarget] at hcounts ⊢
        -- the target has the rows read, and as many as it has itself
        refine rows_eq_of_counts hrows hsubset (Nat.le_succ_of_le hread.start_le) ?_ ?_
        · rw [← hcount, ← hverified, hlength, Nat.zero_add]
        · rw [← hcount, hcounts]

/-! ### Termination -/

/-- A walk of the source that begins at the `n`-th read, after a checkpoint, is finite: a
    read raises, or a batch is empty, after finitely many batches. -/
inductive ScanFinite (R : Runtime K V) (src : Source K V) (limit : ℕ) : ℕ → Option K → Prop
  | raises {n : ℕ} {checkpoint : Option K} (hread : src.nextRead R n = none) :
      ScanFinite R src limit n checkpoint
  | ends {n i : ℕ} {checkpoint : Option K} (hread : src.nextRead R n = some i)
      (hempty : sourceRowsAfterCheckpoint limit checkpoint (src.snapshot i) = []) :
      ScanFinite R src limit n checkpoint
  | reads {n i : ℕ} {checkpoint : Option K} {last : K × V} (hread : src.nextRead R n = some i)
      (hlast : (sourceRowsAfterCheckpoint limit checkpoint (src.snapshot i)).getLast? = some last)
      (hrest : ScanFinite R src limit (i + 1) (some last.1)) :
      ScanFinite R src limit n checkpoint

section Termination

variable {α : Type} {phase : String} {reader : KeyedTable K V → α} {s : World K V} {job : Job}

/-- A read returns or raises. -/
theorem sourceRead_ends :
    Ends .outOfFuel (fun _ => sourceReadWithRetry R src phase reader) s := by
  refine ends_const ?_
  obtain ⟨ws, -, hrun⟩ := sourceRead_run R src phase reader s
  split at hrun
  · rw [hrun.1]
    exact fun h => by cases h
  · obtain ⟨error, hraise⟩ := hrun
    rw [hraise]
    exact fun h => by cases h

/-- What a read that returned has read. -/
theorem sourceRead_settles {ws : List (Write K V)} {value : α}
    (h : Settles (fun _ => sourceReadWithRetry R src phase reader) s (ws, .ok value)) :
    ∃ i, src.nextRead R s.reads.length = some i ∧ value = reader (src.snapshot i)
      ∧ AfterRead phase i s (commitAll s ws) := by
  obtain ⟨fuel, hfuel⟩ := h
  have hresult := hfuel fuel le_rfl
  obtain ⟨ws', -, hrun⟩ := sourceRead_run R src phase reader s
  dsimp only at hresult
  split at hrun
  · rename_i i hi
    obtain ⟨heq, hafter⟩ := hrun
    rw [hresult, Prod.mk.injEq, Except.ok.injEq] at heq
    obtain ⟨rfl, rfl⟩ := heq
    exact ⟨i, hi, rfl, hafter⟩
  · obtain ⟨error, hraise⟩ := hrun
    rw [hresult] at hraise
    cases (Prod.mk.inj hraise).2

/-- **Walks.** A loop that reads the next batch, ends on an empty one and goes on after the last
    key of any other ends if the walk is finite. The walk through the snapshots is given as a
    derivation, so the induction is on it: a batch that raises, an empty one, or one with a last
    key and the walk behind it. -/
theorem walk_ends {σ : Type} {limit : ℕ} {loop : ℕ → Option K → σ → MigrationProg K V α}
    {body : ℕ → σ → List (K × V) → MigrationProg K V α}
    (hloop : ∀ fuel checkpoint t, loop (fuel + 1) checkpoint t
      = sourceReadWithRetry R src phase (sourceRowsAfterCheckpoint limit checkpoint)
        >>= body fuel t)
    (hempty : ∀ t s, Ends .outOfFuel (fun fuel => body fuel t []) s)
    (hbatch : ∀ t rows last s, rows.getLast? = some last →
      (∀ t' s', s'.reads = s.reads →
        Ends .outOfFuel (fun fuel => loop fuel (some last.1) t') s') →
      Ends .outOfFuel (fun fuel => body fuel t rows) s)
    {n : ℕ} {checkpoint : Option K} (h : ScanFinite R src limit n checkpoint) (t : σ)
    (s : World K V) (hn : s.reads.length = n) :
    Ends .outOfFuel (fun fuel => loop fuel checkpoint t) s := by
  induction h generalizing t s with
  -- the read of this batch raises
  | raises hread =>
    refine Ends.of_succ ?_
    simp only [hloop]
    refine sourceRead_ends.bind (fun ws rows hrows => ?_)
    obtain ⟨i, hi, -⟩ := sourceRead_settles hrows
    rw [hn, hread] at hi
    cases hi
  -- it is empty, and the loop ends
  | ends hread hnone =>
    refine Ends.of_succ ?_
    simp only [hloop]
    refine sourceRead_ends.bind (fun ws rows hrows => ?_)
    obtain ⟨i, hi, rfl, -⟩ := sourceRead_settles hrows
    rw [hn, hread, Option.some.injEq] at hi
    rw [← hi, hnone]
    exact hempty t _
  -- it has a last key, from which the rest of the walk goes on
  | reads hread hlast _ ih =>
    refine Ends.of_succ ?_
    simp only [hloop]
    refine sourceRead_ends.bind (fun ws rows hrows => ?_)
    obtain ⟨i, hi, rfl, hafter⟩ := sourceRead_settles hrows
    rw [hn, hread, Option.some.injEq] at hi
    rw [← hi] at hafter ⊢
    refine hbatch t _ _ _ hlast (fun t' s' hreads => ih t' s' ?_)
    rw [hreads, hafter.length_reads]

/-- The copy of a finite walk ends. -/
theorem copyLoop_ends {n : ℕ} {checkpoint : Option K}
    (h : ScanFinite R src job.batchSize n checkpoint) (completedBatches : ℕ) (s : World K V)
    (hn : s.reads.length = n) :
    Ends .outOfFuel (fun fuel => copyLoop R src job fuel checkpoint completedBatches) s := by
  refine walk_ends (fun _ _ _ => copyLoop.eq_2 ..) (fun _ s => ends_const (by nofun)) ?_ h
    completedBatches s hn
  intro completedBatches rows last s hlast hrest
  simp only [hlast]
  refine ends_bind_of_ok (m := Prog.write _) rfl ?_
  refine ends_bind_of_ok (m := Prog.get) rfl ?_
  refine ends_bind_of_ok (publish_run _ _) ?_
  refine ends_bind_lift ?_ (fun _ _ => hrest _ _ rfl)
  unfold interruptIf
  split <;> nofun

/-- The verification of a finite walk ends. -/
theorem verifyLoop_ends {n : ℕ} {checkpoint : Option K}
    (h : ScanFinite R src job.batchSize n checkpoint) (verifiedCount : ℕ) (s : World K V)
    (hn : s.reads.length = n) :
    Ends .outOfFuel (fun fuel => verifyLoop R src job fuel checkpoint verifiedCount) s := by
  refine walk_ends (fun _ _ _ => verifyLoop.eq_2 ..) (fun _ s => ends_const (by nofun)) ?_ h
    verifiedCount s hn
  intro verifiedCount rows last s hlast hrest
  simp only [hlast]
  refine ends_bind_of_ok (m := Prog.get) rfl ?_
  split
  · exact ends_const (by nofun)
  · exact hrest _ _ rfl

theorem finishReconciliation_ends {sourceCount targetCount : ℕ} :
    Ends .outOfFuel (fun _ => finishReconciliation R job sourceCount targetCount) s := by
  refine ends_bind_of_ok (m := Prog.get) rfl ?_
  dsimp only
  split <;> exact ends_const (by nofun)

/-- As many passes as the limit leaves end the reconciliation, if every walk is finite. -/
theorem reconcile_ends (h : ∀ n checkpoint, ScanFinite R src job.batchSize n checkpoint)
    (passFuel : ℕ) (reconciliationPass : ℤ) (checkpoint : Option K) (completedBatches : ℕ)
    (s : World K V)
    (hpass : (maxAppendOnlyReconciliationPasses : ℤ) < reconciliationPass + passFuel) :
    Ends .outOfFuel (fun fuel => reconcile R src job fuel passFuel reconciliationPass checkpoint
      completedBatches) s := by
  -- the induction is on the passes that are left, each of which runs two finite walks
  induction passFuel generalizing reconciliationPass checkpoint completedBatches s with
  | zero =>
    -- with no pass left the limit is exceeded, and the loop raises
    simp only [reconcile]
    rw [if_pos (by simpa using hpass)]
    exact ends_const (by nofun)
  | succ passFuel ih =>
    have hnext : (maxAppendOnlyReconciliationPasses : ℤ) < reconciliationPass + 1 + passFuel := by
      push_cast at hpass
      omega
    simp only [reconcile]
    split
    · exact ends_const (by nofun)
    refine ends_bind_of_ok (publish_run _ _) ?_
    refine (copyLoop_ends (h _ _) _ _ rfl).bind (fun ws completedBatches _ => ?_)
    refine sourceRead_ends.bind (fun ws sourceCount _ => ?_)
    refine ends_bind_of_ok (m := Prog.get) rfl ?_
    refine ends_bind_of_ok (publish_run _ _) ?_
    split
    -- the counts differ after the copy, so a further pass starts from the last key
    · exact ends_bind_of_ok (publish_run _ _) (ih _ _ _ _ hnext)
    refine (verifyLoop_ends (h _ _) _ _ rfl).bind (fun ws verification _ => ?_)
    refine sourceRead_ends.bind (fun ws sourceCountAfter _ => ?_)
    refine ends_bind_of_ok (m := Prog.get) rfl ?_
    split
    -- the counts differ after the verification
    · exact ends_bind_of_ok (publish_run _ _) (ih _ _ _ _ hnext)
    exact finishReconciliation_ends.bind (fun _ _ _ => ends_const (by nofun))

end Termination

/-- Every walk of a source that no longer changes is finite. -/
theorem scanFinite_of_constant {table : KeyedTable K V} {limit n : ℕ}
    (hsnapshot : ∀ i, n ≤ i → src.snapshot i = table) (checkpoint : Option K) :
    ScanFinite R src limit n checkpoint := by
  generalize hleft : (table.rowsAfter (fun _ => true) checkpoint).length = left
  induction left using Nat.strong_induction_on generalizing n checkpoint with
  | _ left ih =>
    cases hread : src.nextRead R n with
    | none => exact .raises hread
    | some i =>
      have hi := Source.le_of_nextReadWithin hread
      have hbatch : sourceRowsAfterCheckpoint limit checkpoint (src.snapshot i)
          = table.batch (fun _ => true) limit checkpoint := by
        rw [sourceRowsAfterCheckpoint_eq_batch, hsnapshot i hi]
      cases hlast : (table.batch (fun _ => true) limit checkpoint).getLast? with
      | none => exact .ends hread (hbatch.trans (List.getLast?_eq_none_iff.mp hlast))
      | some last =>
        refine .reads hread (hbatch ▸ hlast) (ih _ ?_ (fun j hj => ?_) _ rfl)
        · rw [← hleft]
          exact KeyedTable.length_rowsAfter_lt
            (List.mem_of_mem_take (List.mem_of_getLast? hlast))
        · exact hsnapshot j (by omega)

/-- **Append-only reconciliation.** Started on a report that is not marked verified, the
    migration that ends normally has marked it verified, and the target is the source at
    the final count.  If every walk of the source is finite, the migration ends, with as
    many passes as the limit allows. -/
theorem migrateResumableAppendOnlyTable_reconciled (R : Runtime K V) (src : Source K V) (job : Job)
    (s : World K V) (hunverified : s.report.verified = false) :
    (∀ passFuel fuel completedBatches,
        (migrateResumableAppendOnlyTable R src job passFuel fuel s).2 = .ok completedBatches →
          Reconciled src ((migrateResumableAppendOnlyTable R src job passFuel fuel).final s))
      ∧ ((∀ n checkpoint, ScanFinite R src job.batchSize n checkpoint) →
          Ends .outOfFuel (migrateResumableAppendOnlyTable R src job
            maxAppendOnlyReconciliationPasses) s) := by
  -- the report is not marked verified, so the target is not taken as it is
  have hintact : verifiedTargetIsIntact R job.name s.target s.report = .ok false := by
    rw [verifiedTargetIsIntact, if_pos hunverified]
  constructor
  -- safety: whatever pass ended normally, it reconciled
  · intro passFuel fuel completedBatches hok
    have hspec : Spec (fun t => t = s) (migrateResumableAppendOnlyTable R src job passFuel fuel)
        Anything (fun _ t => Reconciled src t) := by
      refine spec_bind spec_get (fun t => ?_)
      refine spec_bind (spec_lift _) (fun intact => ?_)
      refine spec_of_forall (fun t' ht => ?_)
      obtain ⟨⟨rfl, rfl⟩, hresult⟩ := ht
      rw [hintact, Except.ok.injEq] at hresult
      subst hresult
      rw [if_neg Bool.false_ne_true]
      exact spec_bind (spec_any _)
        (fun _ => (spec_reconcile job fuel passFuel _ _ _).pre (fun _ _ => trivial))
    exact hspec.post s completedBatches rfl hok
  -- termination: the passes are bounded, and each walk is finite
  · intro hfinite
    refine ends_bind_of_ok (m := Prog.get) rfl ?_
    rw [hintact]
    refine ends_bind_of_ok (a := false) rfl ?_
    simp only [if_neg Bool.false_ne_true]
    refine ends_bind_of_ok (publish_run _ _) ?_
    refine reconcile_ends hfinite _ _ _ _ _ ?_
    have hone := Int.le_max_left 1 (s.report.reconciliationPass.getD 1)
    omega

/-- Three rows of a source. -/
def threeRows : KeyedTable ℕ ℕ := ⟨[(1, 0), (2, 1), (4, 0)], by decide⟩

/-- Three rows are copied one by one over a stale one, and the run ends with what the source
    shows. -/
theorem migrateResumableAppendOnlyTable_threeRows :
    Reconciled (Source.constant threeRows)
        ((migrateResumableAppendOnlyTable .sample (Source.constant threeRows)
          ⟨"quotes", 1, 0, none⟩ 8 4).final (World.start ⟨[(2, 0)], by decide⟩))
      ∧ Ends .outOfFuel (migrateResumableAppendOnlyTable .sample (Source.constant threeRows)
          ⟨"quotes", 1, 0, none⟩ 8) (World.start ⟨[(2, 0)], by decide⟩) := by
  obtain ⟨hreconciled, hends⟩ := migrateResumableAppendOnlyTable_reconciled .sample
    (Source.constant threeRows) ⟨"quotes", 1, 0, none⟩ (World.start ⟨[(2, 0)], by decide⟩) rfl
  have hok : (migrateResumableAppendOnlyTable .sample (Source.constant threeRows)
      ⟨"quotes", 1, 0, none⟩ 8 4 (World.start ⟨[(2, 0)], by decide⟩)).2.toOption = some 3 := by
    decide +kernel
  exact ⟨hreconciled 8 4 3 (ok_of_toOption hok),
    hends (fun n => scanFinite_of_constant (fun _ _ => rfl))⟩

end InefficiencyEngine.Migration
