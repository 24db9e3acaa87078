import InefficiencyEngine.Migration.Membership
import InefficiencyEngine.Migration.Reconciliation

namespace InefficiencyEngine.Migration

open Durable Prog

/-!
# Soundness of the captured-membership migration

The manifest is read back as the keys that were written to it (`manifestInventory_text`,
`manifestBatches_text`).  Every write of the migration is one of ten kinds
(`MembershipStep`), and from that, over any interruptions and restarts and whatever others
do to the target in between: a manifest once reported stays, it lists the keys of one
snapshot of the source, only rows it lists are inserted, and a report that says verified
belongs to captured rows that the target had.
-/

variable {K V : Type} [LinearOrder K] {R : ManifestRuntime K V} {src : Source K V}

/-! ### Rows and their keys -/

omit [LinearOrder K] in
theorem keysOf_append (rows rows' : List (K × V)) :
    keysOf (rows ++ rows') = keysOf rows ++ keysOf rows' := List.map_append

theorem mem_rowsForKeys {keys : List K} {table : KeyedTable K V} {row : K × V} :
    row ∈ rowsForKeys keys table ↔ row ∈ table.rows ∧ row.1 ∈ keys := by
  simp [rowsForKeys]

/-- The rows of a table for the keys of some of its rows are these rows. -/
theorem rowsForKeys_of_subset {rows : List (K × V)} {table : KeyedTable K V}
    (hsorted : rows.Pairwise (fun a b => a.1 < b.1)) (hsubset : rows ⊆ table.rows) :
    rowsForKeys (keysOf rows) table = rows :=
  targetRowsForKeys_of_subset hsorted hsubset

/-- A source has one row for a key, whenever it is read. -/
theorem Source.row_unique {i j : ℕ} {row row' : K × V} (h : row ∈ (src.snapshot i).rows)
    (h' : row' ∈ (src.snapshot j).rows) (hkey : row.1 = row'.1) : row = row' := by
  have hrow := KeysetWalk.mem_mono src.grows (Nat.le_max_left i j) h
  have hrow' := KeysetWalk.mem_mono src.grows (Nat.le_max_right i j) h'
  exact KeyedTable.row_unique hrow hrow' hkey

/-- Rows of a source are determined by their keys. -/
theorem Source.rows_unique {rows rows' : List (K × V)} {i : ℕ}
    (h : ∀ row ∈ rows, ∃ j, row ∈ (src.snapshot j).rows) (h' : rows' ⊆ (src.snapshot i).rows)
    (hkeys : keysOf rows = keysOf rows') : rows = rows' := by
  induction rows generalizing rows' with
  | nil => exact (List.map_eq_nil_iff.mp hkeys.symm).symm
  | cons row rest ih =>
    obtain ⟨row', rest', rfl, hkey, hrest⟩ := List.map_eq_cons_iff.mp hkeys.symm
    obtain ⟨j, hj⟩ := h row List.mem_cons_self
    rw [Source.row_unique hj (h' List.mem_cons_self) hkey.symm,
      ih (fun r hr => h r (List.mem_cons_of_mem _ hr)) (fun r hr => h' (List.mem_cons_of_mem _ hr))
        hrest.symm]

/-! ### The manifest -/

theorem batchesFrom_flatten {α : Type} (batchSize : ℕ) (batch xs : List α) :
    (batchesFrom batchSize batch xs).flatten = batch ++ xs := by
  induction xs generalizing batch with
  | nil =>
    rw [batchesFrom]
    by_cases h : batch = [] <;> simp [h]
  | cons x rest ih =>
    rw [batchesFrom]
    split <;> simp [ih]

theorem batchesFrom_map {α β : Type} (f : α → β) (batchSize : ℕ) (batch xs : List α) :
    batchesFrom batchSize (batch.map f) (xs.map f)
      = (batchesFrom batchSize batch xs).map (List.map f) := by
  induction xs generalizing batch with
  | nil =>
    rw [List.map_nil, batchesFrom, batchesFrom]
    by_cases h : batch = [] <;> simp [h]
  | cons x rest ih =>
    have hbatch : batch.map f ++ [f x] = (batch ++ [x]).map f := by simp
    have hrest := ih []
    rw [List.map_nil] at hrest
    rw [List.map_cons, batchesFrom, batchesFrom, hbatch, List.length_map, ih, hrest]
    split <;> rfl

omit [LinearOrder K] in
/-- The manifest has the keys' lines. -/
theorem linesOf_manifestText (keys : List K) :
    linesOf (manifestText R keys) = (keys.map R.jsonKey, "") := by
  refine linesOf_unlines (fun line hline => ?_)
  obtain ⟨key, -, rfl⟩ := List.mem_map.mp hline
  exact R.jsonKey_line key

omit [LinearOrder K] in
/-- Lines of keys are read back, whatever a line that is not JSON raises. -/
theorem mapM_loadsLine (error : String → Raised) (keys : List K) :
    (keys.map R.jsonKey).mapM (fun line => loadsLine R (error line) line) = .ok keys := by
  induction keys with
  | nil => rfl
  | cons key rest ih =>
    rw [List.map_cons, List.mapM_cons, ih, loadsLine, R.loads_json]
    rfl

omit [LinearOrder K] in
/-- A manifest has as many lines as keys, and its own digest. -/
theorem manifestInventory_text (name : String) (keys : List K) :
    manifestInventory R name (manifestText R keys)
      = .ok (keys.length, R.sha256 (manifestText R keys), keys.getLast?) := by
  rw [manifestInventory, linesOf_manifestText, mapM_loadsLine (fun _ => _)]
  rfl

omit [LinearOrder K] in
/-- The batches of a manifest after a checkpoint are batches of the keys after it. -/
theorem manifestBatches_text (keys : List K) (batchSize : ℕ) {skipRows : ℕ}
    (hskip : skipRows ≤ keys.length) :
    manifestBatches R (manifestText R keys) batchSize skipRows
      = (batchesFrom batchSize [] (keys.drop skipRows)).map .ok := by
  have hlines : ¬ (keys.map R.jsonKey ++ []).length < skipRows := by simpa using hskip
  have hmap := batchesFrom_map R.jsonKey batchSize [] (keys.drop skipRows)
  rw [List.map_nil, List.map_drop] at hmap
  rw [manifestBatches, linesOf_manifestText]
  dsimp only
  rw [if_pos rfl, if_neg hlines, List.append_nil, hmap, List.map_map]
  exact List.map_congr_left (fun batch _ => mapM_loadsLine _ batch)

omit [LinearOrder K] in
/-- The keys of a manifest are determined by its text. -/
theorem manifestText_injective : Function.Injective (manifestText R) := by
  intro keys keys' h
  have hlines : keys.map R.jsonKey = keys'.map R.jsonKey := by
    have hread := congrArg linesOf h
    rw [linesOf_manifestText, linesOf_manifestText] at hread
    exact congrArg Prod.fst hread
  refine List.map_injective_iff.mpr (fun key key' heq => ?_) hlines
  have hloads := congrArg R.loadsKey heq
  rwa [R.loads_json, R.loads_json, Option.some.injEq] at hloads

/-! ### What the migration writes -/

/-- Rows that a read of the source has shown. -/
def Shown (src : Source K V) (reads : ℕ) (rows : List (K × V)) : Prop :=
  ∃ i < reads, (src.snapshot i).rows = rows

/-- A report of this migration before a manifest is reported. -/
structure Capturing (s : MembershipWorld K V) : Prop where
  mode : s.world.report.migrationMode = some snapshotMigrationMode
  unverified : s.world.report.verified = false
  count : s.world.report.snapshotRowCount = none
  sha256 : s.snapshotManifestSha256 = none
  copied : s.world.report.snapshotRowsCopied = 0

/-- The report describes the manifest file, and the file lists the keys. -/
structure ReportsMembership (R : ManifestRuntime K V) (keys : List K)
    (s : MembershipWorld K V) : Prop where
  mode : s.world.report.migrationMode = some snapshotMigrationMode
  count : s.world.report.snapshotRowCount = some keys.length
  sha256 : s.snapshotManifestSha256 = some (R.sha256 (manifestText R keys))
  manifest : s.manifest = some (manifestText R keys)

/-- A manifest of rows of one snapshot is reported, and the rows are not verified yet. -/
structure CopyingMembership (R : ManifestRuntime K V) (src : Source K V) (rows : List (K × V))
    (s : MembershipWorld K V) : Prop where
  reports : ReportsMembership R (keysOf rows) s
  shown : Shown src s.world.reads.length rows
  unverified : s.world.report.verified = false
  copied : s.world.report.snapshotRowsCopied ≤ rows.length

/-- A manifest of rows of one snapshot is reported, and the rows are verified. -/
structure VerifiedMembership (R : ManifestRuntime K V) (src : Source K V) (rows : List (K × V))
    (s : MembershipWorld K V) : Prop where
  reports : ReportsMembership R (keysOf rows) s
  shown : Shown src s.world.reads.length rows
  verified : s.world.report.verified = true
  verifiedRows : s.world.report.verifiedRows = some rows.length
  rowDigest : s.world.report.rowDigest = some (R.digest rows)

/-- **Writes.** The kinds of writes a migration makes. -/
inductive MembershipStep (R : ManifestRuntime K V) (src : Source K V) (s : MembershipWorld K V) :
    MembershipWrite K V → Prop
  | read (phase : String) : MembershipStep R src s (.table (.read phase))
  | transport (transport : TransportReport) :
      MembershipStep R src s (.table (.publish (s.world.report.withTransport transport)))
  | unlink (hmode : s.world.report.migrationMode ≠ some snapshotMigrationMode) :
      MembershipStep R src s .unlinkManifest
  | prepare (hmode : s.world.report.migrationMode ≠ some snapshotMigrationMode)
      (r : TableReport K)
      (hr : Capturing (commit s (.publishManifest r none : MembershipWrite K V))) :
      MembershipStep R src s (.publishManifest r none)
  | capturing (hs : Capturing s) (r : TableReport K)
      (hr : Capturing (commit s (.table (.publish r) : MembershipWrite K V))) :
      MembershipStep R src s (.table (.publish r))
  | replace (hs : Capturing s) (keys : List K) :
      MembershipStep R src s (.replaceManifest (manifestText R keys))
  | captured (hs : Capturing s) (r : TableReport K) (sha256 : String) (rows : List (K × V))
      (hr : CopyingMembership R src rows
        (commit s (.publishManifest r (some sha256) : MembershipWrite K V))) :
      MembershipStep R src s (.publishManifest r (some sha256))
  | progress (rows : List (K × V)) (hs : CopyingMembership R src rows s) (r : TableReport K)
      (hr : CopyingMembership R src rows (commit s (.table (.publish r) : MembershipWrite K V))) :
      MembershipStep R src s (.table (.publish r))
  | insert (rows : List (K × V)) (hs : CopyingMembership R src rows s) (inserted : List (K × V))
      (hinserted : ∀ row ∈ inserted, row.1 ∈ keysOf rows) :
      MembershipStep R src s (.table (.insertIgnore inserted))
  | finish (rows : List (K × V)) (hs : CopyingMembership R src rows s) (r : TableReport K)
      (hr : VerifiedMembership R src rows (commit s (.table (.publish r) : MembershipWrite K V)))
      (htarget : rows ⊆ s.world.target.rows) :
      MembershipStep R src s (.table (.publish r))

/-- Blocks of one such write. -/
inductive MembershipBlock (R : ManifestRuntime K V) (src : Source K V) (s : MembershipWorld K V) :
    List (MembershipWrite K V) → Prop
  | single {w : MembershipWrite K V} (h : MembershipStep R src s w) : MembershipBlock R src s [w]

/-! ### The invariant -/

/-- The world between two writes, once a report of this migration is published. -/
inductive MembershipInv (R : ManifestRuntime K V) (src : Source K V) (s : MembershipWorld K V) :
    Prop
  | other (h : s.world.report.migrationMode ≠ some snapshotMigrationMode)
  | capturing (h : Capturing s)
  | copying (rows : List (K × V)) (h : CopyingMembership R src rows s)
  | verified (rows : List (K × V)) (h : VerifiedMembership R src rows s)

/-- Reads, and what they report, come between two worlds, or changes of the target. -/
structure Follows (s s' : MembershipWorld K V) : Prop where
  report : ∃ transport, s'.world.report = s.world.report.withTransport transport
  sha256 : s'.snapshotManifestSha256 = s.snapshotManifestSha256
  manifest : s'.manifest = s.manifest
  reads : s.world.reads.length ≤ s'.world.reads.length

section Follows

variable {s s' : MembershipWorld K V} {keys : List K} {rows : List (K × V)}

theorem Shown.mono {n m : ℕ} (h : Shown src n rows) (hnm : n ≤ m) : Shown src m rows := by
  obtain ⟨i, hi, hrows⟩ := h
  exact ⟨i, by omega, hrows⟩

theorem Capturing.follows (h : Capturing s) (hs : Follows s s') : Capturing s' := by
  obtain ⟨⟨transport, hreport⟩, hsha256, -, -⟩ := hs
  refine ⟨?_, ?_, ?_, hsha256.trans h.sha256, ?_⟩
  all_goals rw [hreport]
  exacts [h.mode, h.unverified, h.count, h.copied]

theorem ReportsMembership.follows (h : ReportsMembership R keys s) (hs : Follows s s') :
    ReportsMembership R keys s' := by
  obtain ⟨⟨transport, hreport⟩, hsha256, hmanifest, -⟩ := hs
  refine ⟨?_, ?_, hsha256.trans h.sha256, hmanifest.trans h.manifest⟩
  all_goals rw [hreport]
  exacts [h.mode, h.count]

theorem CopyingMembership.follows (h : CopyingMembership R src rows s) (hs : Follows s s') :
    CopyingMembership R src rows s' := by
  obtain ⟨transport, hreport⟩ := hs.report
  refine ⟨h.reports.follows hs, h.shown.mono hs.reads, ?_, ?_⟩
  all_goals rw [hreport]
  exacts [h.unverified, h.copied]

theorem VerifiedMembership.follows (h : VerifiedMembership R src rows s) (hs : Follows s s') :
    VerifiedMembership R src rows s' := by
  obtain ⟨transport, hreport⟩ := hs.report
  refine ⟨h.reports.follows hs, h.shown.mono hs.reads, ?_, ?_, ?_⟩
  all_goals rw [hreport]
  exacts [h.verified, h.verifiedRows, h.rowDigest]

theorem MembershipInv.follows (h : MembershipInv R src s) (hs : Follows s s') :
    MembershipInv R src s' := by
  cases h with
  | other hmode =>
    obtain ⟨transport, hreport⟩ := hs.report
    refine .other ?_
    rw [hreport]
    exact hmode
  | capturing h => exact .capturing (h.follows hs)
  | copying rows h => exact .copying rows (h.follows hs)
  | verified rows h => exact .verified rows (h.follows hs)

end Follows

theorem follows_read (s : MembershipWorld K V) (phase : String) :
    Follows s (commit s (.table (.read phase) : MembershipWrite K V)) := by
  refine ⟨⟨s.world.report.transport, rfl⟩, rfl, rfl, ?_⟩
  show s.world.reads.length ≤ (s.world.reads ++ [phase]).length
  simp

/-- **Step.** Every write keeps the invariant. -/
theorem MembershipInv.step {s : MembershipWorld K V} {w : MembershipWrite K V}
    (hs : MembershipInv R src s) (h : MembershipStep R src s w) :
    MembershipInv R src (commit s w) := by
  cases h with
  | read phase => exact hs.follows (follows_read s phase)
  | transport transport => exact hs.follows ⟨⟨transport, rfl⟩, rfl, rfl, le_rfl⟩
  | unlink hmode => exact .other hmode
  | prepare _ r hr => exact .capturing hr
  | capturing _ r hr => exact .capturing hr
  | replace hs keys => exact .capturing ⟨hs.mode, hs.unverified, hs.count, hs.sha256, hs.copied⟩
  | captured _ r sha256 rows hr => exact .copying rows hr
  | progress rows _ r hr => exact .copying rows hr
  | insert rows hs inserted _ =>
    exact .copying rows (hs.follows ⟨⟨s.world.report.transport, rfl⟩, rfl, rfl, le_rfl⟩)
  | finish rows _ r hr _ => exact .verified rows hr

/-- A report of this migration that says verified belongs to captured rows. -/
theorem MembershipInv.of_verified {s : MembershipWorld K V} (h : MembershipInv R src s)
    (hverified : s.world.report.verified = true)
    (hmode : s.world.report.migrationMode = some snapshotMigrationMode) :
    ∃ rows, VerifiedMembership R src rows s := by
  cases h with
  | other h => exact absurd hmode h
  | capturing h => exact absurd (h.unverified.symm.trans hverified) Bool.false_ne_true
  | copying rows h => exact absurd (h.unverified.symm.trans hverified) Bool.false_ne_true
  | verified rows h => exact ⟨rows, h⟩

/-- No manifest is reported while one is being captured. -/
theorem ReportsMembership.not_capturing {s : MembershipWorld K V} {keys : List K}
    (h : ReportsMembership R keys s) : ¬ Capturing s := fun hs => by
  have hcount := hs.count.symm.trans h.count
  cases hcount

/-- Two reports on one manifest speak of the same keys. -/
theorem ReportsMembership.keys_unique {s : MembershipWorld K V} {keys keys' : List K}
    (h : ReportsMembership R keys s) (h' : ReportsMembership R keys' s) : keys = keys' :=
  manifestText_injective (Option.some.inj (h.manifest.symm.trans h'.manifest))

/-- **Membership.** A manifest once reported stays, and so does the report on it. -/
theorem ReportsMembership.step {s : MembershipWorld K V} {w : MembershipWrite K V} {keys : List K}
    (hs : ReportsMembership R keys s) (h : MembershipStep R src s w) :
    ReportsMembership R keys (commit s w) := by
  cases h with
  | read phase => exact hs.follows (follows_read s phase)
  | transport transport => exact hs.follows ⟨⟨transport, rfl⟩, rfl, rfl, le_rfl⟩
  | unlink hmode => exact absurd hs.mode hmode
  | prepare hmode _ _ => exact absurd hs.mode hmode
  | capturing hs' _ _ => exact absurd hs' hs.not_capturing
  | replace hs' _ => exact absurd hs' hs.not_capturing
  | captured hs' _ _ _ _ => exact absurd hs' hs.not_capturing
  | progress rows hs' r hr =>
    rw [hs.keys_unique hs'.reports]
    exact hr.reports
  | insert rows hs' inserted _ =>
    exact hs.follows ⟨⟨s.world.report.transport, rfl⟩, rfl, rfl, le_rfl⟩
  | finish rows hs' r hr _ =>
    rw [hs.keys_unique hs'.reports]
    exact hr.reports

/-- Nothing but rows that the manifest lists has been inserted into the target. -/
structure InsertsListed (R : ManifestRuntime K V) (s₀ s : MembershipWorld K V) : Prop where
  kept : s₀.world.target.rows ⊆ s.world.target.rows
  listed : ∀ row ∈ s.world.target.rows, row ∈ s₀.world.target.rows
    ∨ ∃ keys, ReportsMembership R keys s ∧ row.1 ∈ keys

theorem InsertsListed.step {s₀ s : MembershipWorld K V} {w : MembershipWrite K V}
    (hs : InsertsListed R s₀ s) (h : MembershipStep R src s w) :
    InsertsListed R s₀ (commit s w) := by
  have hbefore : ∀ row ∈ s.world.target.rows, row ∈ s₀.world.target.rows
      ∨ ∃ keys, ReportsMembership R keys (commit s w) ∧ row.1 ∈ keys := by
    intro row hrow
    refine (hs.listed row hrow).imp_right ?_
    rintro ⟨keys, hreports, hkey⟩
    exact ⟨keys, hreports.step h, hkey⟩
  by_cases htarget : (commit s w).world.target = s.world.target
  · exact ⟨htarget ▸ hs.kept, htarget ▸ hbefore⟩
  cases h with
  | insert rows hs' inserted hinserted =>
    refine ⟨List.Subset.trans hs.kept (KeyedTable.subset_foldl_insertIgnore inserted),
      fun row hrow => ?_⟩
    rcases KeyedTable.mem_foldl_insertIgnore hrow with hrow | hrow
    · exact hbefore row hrow
    · refine Or.inr ⟨keysOf rows, ?_, hinserted row hrow⟩
      exact hs'.reports.follows ⟨⟨s.world.report.transport, rfl⟩, rfl, rfl, le_rfl⟩
  | read | transport | unlink | prepare | capturing | replace | captured | progress | finish =>
    exact absurd rfl htarget

/-! ### The parts of the migration -/

section Parts

variable {job : Job} {rows : List (K × V)}

/-- The world after a report. -/
def MembershipWorld.reporting (s : MembershipWorld K V) (report : TableReport K) :
    MembershipWorld K V :=
  { s with world := { s.world with report := report } }

/-- A report is one write. -/
theorem spec_publishTable {Q : Unit → MembershipWorld K V → Prop}
    (update : TableReport K → TableReport K) :
    Spec (fun s => MembershipStep R src s (.table (.publish (update s.world.report)))
        ∧ Q () (s.reporting (update s.world.report)))
      ((publish update).within tableView) (MembershipBlock R src) Q :=
  spec_block (fun _ hs => .single hs.1) (fun _ _ hs _ => hs.2)

/-- What is between the beginning and the end of a read. -/
structure AfterMembershipRead (i : ℕ) (s s' : MembershipWorld K V) : Prop where
  follows : Follows s s'
  target : s'.world.target = s.world.target
  shown : i < s'.world.reads.length

/-- A read by this migration, from any world. -/
theorem spec_membershipRead {α : Type} {P : MembershipWorld K V → Prop} {phase : String}
    {reader : KeyedTable K V → α} :
    Spec P ((sourceReadWithRetry R.toRuntime src phase reader).within tableView)
      (MembershipBlock R src) (fun value s' =>
        ∃ s i, P s ∧ AfterMembershipRead i s s' ∧ value = reader (src.snapshot i)) := by
  refine spec_of_forall (fun s hs => ?_)
  -- the read of the table itself, which neither copies nor reports a membership
  have hread : Spec (fun t => t = s.world) (sourceReadWithRetry R.toRuntime src phase reader)
      (ReadStep phase) (fun value t => ∃ t₀ i, t₀ = s.world ∧ AfterRead phase i t₀ t
        ∧ value = reader (src.snapshot i)) := spec_sourceRead (fun _ _ h => h)
  have hblocks : ∀ (t : MembershipWorld K V) (block : List (Write K V)),
      ReadStep phase t.world block →
        MembershipBlock R src t (block.map (MembershipWrite.table : Write K V → _)) := by
    intro t block hblock
    cases hblock with
    | read => exact .single (.read phase)
    | publish transport => exact .single (.transport transport)
  -- seen in the larger world it leaves the manifest alone
  have hwithin := spec_within (v := tableView) hread
    (F := fun t => t.snapshotManifestSha256 = s.snapshotManifestSha256 ∧ t.manifest = s.manifest)
    (fun _ _ h => h) (fun t block _ hblock => hblocks t block hblock)
  refine hwithin.weaken ?_ (fun _ _ h => h) ?_
  · rintro _ rfl
    exact ⟨rfl, rfl, rfl⟩
  · rintro value s' ⟨⟨_, i, rfl, hafter, hvalue⟩, hsha256, hmanifest⟩
    have hlength : s'.world.reads.length = i + 1 := hafter.length_reads
    have hstart := hafter.start_le
    refine ⟨s, i, hs, ⟨⟨hafter.report, hsha256, hmanifest, ?_⟩, hafter.target, ?_⟩, hvalue⟩
    all_goals omega

/-- An attempt at a capture returns the keys that the source shows, or the error. -/
theorem spec_captureAttempt :
    Spec (Capturing (K := K) (V := V)) (captureAttempt src) (MembershipBlock R src)
      (fun attempt s => Capturing s ∧ ∀ keys, attempt = .ok keys →
        ∃ rows, keys = keysOf rows ∧ Shown src s.world.reads.length rows) := by
  refine spec_bind (Q := fun _ => Capturing) ((spec_publishTable _).pre (fun s hs => ?_))
    (fun _ => spec_block (fun s hs => .single (.read _)) ?_)
  · have hs' : Capturing (s.reporting { s.world.report with
        snapshotPhase := some "capturing_membership" }) :=
      ⟨hs.mode, hs.unverified, hs.count, hs.sha256, hs.copied⟩
    exact ⟨.capturing hs _ hs', hs'⟩
  · intro s attempt hs hattempt
    refine ⟨hs.follows (follows_read s _), fun keys hkeys => ?_⟩
    subst hkeys
    refine ⟨(src.snapshot s.world.reads.length).rows, ?_, s.world.reads.length, ?_, rfl⟩
    · cases hfailure : src.failure s.world.reads.length with
      | none =>
        have hresult : (attemptRead src "snapshot_membership_capture"
          (fun table => keysOf table.rows) s.world).2 = .ok (.ok keys) := hattempt
        rw [attemptRead_of_none hfailure] at hresult
        injection hresult with hresult
        injection hresult with hresult
        exact hresult.symm
      | some error =>
        have hresult : (attemptRead src "snapshot_membership_capture"
          (fun table => keysOf table.rows) s.world).2 = .ok (.ok keys) := hattempt
        rw [attemptRead_of_some hfailure] at hresult
        injection hresult with hresult
        cases hresult
    · show s.world.reads.length < (s.world.reads ++ [_]).length
      simp

/-- What a capture returns: the manifest's text, count and last key. -/
def captureOf (R : ManifestRuntime K V) (keys : List K) : String × ℕ × Option K :=
  (manifestText R keys, keys.length, keys.getLast?)

/-- The manifest is in place before the report speaks of it. -/
theorem spec_finishCapture :
    Spec (fun s => Capturing s ∧ Shown src s.world.reads.length rows)
      (finishCapture R (keysOf rows)) (MembershipBlock R src)
      (fun result s => CopyingMembership R src rows s ∧ result = captureOf R (keysOf rows)) := by
  refine spec_bind (Q := fun _ s => (Capturing s ∧ Shown src s.world.reads.length rows)
    ∧ s.manifest = some (manifestText R (keysOf rows))) ((spec_write _).pre ?_) (fun _ => ?_)
  · rintro s ⟨hs, hshown⟩
    exact ⟨.single (.replace hs _), ⟨⟨hs.mode, hs.unverified, hs.count, hs.sha256, hs.copied⟩,
      hshown⟩, rfl⟩
  refine spec_bind (Q := fun _ => CopyingMembership R src rows) (spec_block ?_ ?_)
    (fun _ => (spec_pure _).pre (fun _ h => ⟨h, rfl⟩))
  all_goals
    rintro s
  · rintro ⟨⟨hs, hshown⟩, hmanifest⟩
    exact .single (.captured hs _ _ rows
      ⟨⟨hs.mode, rfl, rfl, hmanifest⟩, hshown, hs.unverified, Nat.zero_le _⟩)
  · rintro _ ⟨⟨hs, hshown⟩, hmanifest⟩ _
    exact ⟨⟨hs.mode, rfl, rfl, hmanifest⟩, hshown, hs.unverified, Nat.zero_le _⟩

/-- The retries of a capture end on a reported manifest of one snapshot, or raise. Each attempt
    either captures the keys of one snapshot, raises, or is retried after a report on the
    transport. -/
theorem spec_captureLoop (delays : List ℚ) :
    Spec (Capturing (K := K) (V := V)) (captureLoop R src delays) (MembershipBlock R src)
      (fun result s => ∃ rows, CopyingMembership R src rows s
        ∧ result = captureOf R (keysOf rows)) := by
  -- a capture that succeeds is finished with the rows that were shown
  have hfinish : ∀ keys, Spec (fun s => Capturing s ∧ ∃ rows, keys = keysOf rows
      ∧ Shown src s.world.reads.length rows) (finishCapture R keys) (MembershipBlock R src)
      (fun result s => ∃ rows, CopyingMembership R src rows s
        ∧ result = captureOf R (keysOf rows)) := by
    intro keys
    refine spec_of_forall ?_
    rintro s ⟨hs, rows, rfl, hshown⟩
    refine spec_finishCapture.weaken ?_ (fun _ _ h => h) (fun _ _ h => ⟨rows, h⟩)
    rintro _ rfl
    exact ⟨hs, hshown⟩
  induction delays with
  | nil =>
    rw [captureLoop]
    refine spec_bind spec_captureAttempt (fun attempt => ?_)
    cases attempt with
    | ok keys => exact (hfinish keys).pre (fun s hs => ⟨hs.1, hs.2 keys rfl⟩)
    | error error => exact spec_raise _
  | cons delay delays ih =>
    rw [captureLoop]
    refine spec_bind spec_captureAttempt (fun attempt => ?_)
    cases attempt with
    | ok keys => exact (hfinish keys).pre (fun s hs => ⟨hs.1, hs.2 keys rfl⟩)
    | error error =>
      dsimp only
      -- a transient error: the report notes the retry
      split
      · refine spec_bind (Q := fun _ => Capturing) ((spec_publishTable _).pre ?_) (fun _ => ih)
        rintro s ⟨hs, -⟩
        exact ⟨.transport _, hs.follows ⟨⟨_, rfl⟩, rfl, rfl, le_rfl⟩⟩
      · exact spec_raise _

/-- A reported manifest is found as it was captured. -/
theorem captureMembershipManifest_reported {s : MembershipWorld K V} {keys : List K}
    (h : ReportsMembership R keys s) :
    captureMembershipManifest R src job s = ([], .ok (captureOf R keys)) := by
  rw [captureMembershipManifest, run_get_bind, h.count, h.sha256]
  dsimp only
  rw [h.manifest]
  dsimp only
  rw [if_neg (R.sha256_ne_empty _), manifestInventory_text, run_lift_ok_bind]
  simp [captureOf]

/-- The manifest of a migration in progress is the one reported, or a new one. -/
theorem spec_captureMembershipManifest :
    Spec (fun s => Capturing s ∨ ∃ rows, CopyingMembership R src rows s)
      (captureMembershipManifest R src job) (MembershipBlock R src)
      (fun result s => ∃ rows, CopyingMembership R src rows s
        ∧ result = captureOf R (keysOf rows)) := by
  refine spec_of_forall (fun s hs => ?_)
  rcases hs with hs | ⟨rows, hs⟩
  · refine spec_bind (spec_get (P := fun t => t = s)) (fun s' => spec_of_forall (fun t ht => ?_))
    obtain ⟨rfl, rfl⟩ := ht
    rw [hs.count, hs.sha256]
    refine (spec_captureLoop _).pre ?_
    rintro _ rfl
    exact hs
  · refine spec_silent ?_ ?_
    · rintro _ rfl
      rw [captureMembershipManifest_reported hs.reports]
    · rintro _ result rfl hresult
      rw [captureMembershipManifest_reported hs.reports] at hresult
      injection hresult with hresult
      exact ⟨rows, hs, hresult.symm⟩

/-- A report that leaves what is said about the manifest as it is, and does not claim to have
    copied more than it lists. -/
theorem spec_progressMembership {Q : MembershipWorld K V → Prop}
    {update : TableReport K → TableReport K}
    (hmode : ∀ r, (update r).migrationMode = r.migrationMode)
    (hcount : ∀ r, (update r).snapshotRowCount = r.snapshotRowCount)
    (hverified : ∀ r, (update r).verified = r.verified)
    (hcopied : ∀ r, (update r).snapshotRowsCopied ≤ max r.snapshotRowsCopied rows.length) :
    Spec (fun s => CopyingMembership R src rows s ∧ ∀ r, Q (s.reporting r))
      ((publish update).within tableView) (MembershipBlock R src)
      (fun _ s => CopyingMembership R src rows s ∧ Q s) := by
  refine (spec_publishTable update).pre ?_
  rintro s ⟨⟨⟨hm, hc, hsha256, hmanifest⟩, hshown, hv, hle⟩, hQ⟩
  have hbound := hcopied s.world.report
  have hnext : CopyingMembership R src rows (s.reporting (update s.world.report)) :=
    ⟨⟨(hmode _).trans hm, (hcount _).trans hc, hsha256, hmanifest⟩, hshown,
      (hverified _).trans hv, hbound.trans (max_le hle le_rfl)⟩
  exact ⟨.progress rows ⟨⟨hm, hc, hsha256, hmanifest⟩, hshown, hv, hle⟩ _ hnext, hnext, hQ _⟩

/-- Rows of the manifest are inserted where they are missing. -/
theorem spec_insertImmutableRows {inserted : List (K × V)}
    (h : ∀ row ∈ inserted, row.1 ∈ keysOf rows) :
    Spec (CopyingMembership R src rows) (insertImmutableRows inserted) (MembershipBlock R src)
      (fun _ => CopyingMembership R src rows) := by
  unfold insertImmutableRows
  split
  · exact spec_pure (Q := fun _ => CopyingMembership R src rows) ()
  · refine (spec_write (Q := fun _ => CopyingMembership R src rows) _).pre
      (fun s hs => ⟨.single (.insert rows hs inserted h), ?_⟩)
    exact hs.follows ⟨⟨s.world.report.transport, rfl⟩, rfl, rfl, le_rfl⟩

/-- The copy inserts rows of the manifest, and counts no more than it lists. Each batch is read
    for its keys, so the rows inserted have keys of the manifest, and the count of what was
    copied stays within its length. -/
theorem spec_copySnapshot (batches : List (List K)) (copied completedBatches : ℕ)
    (hkeys : ∀ batch ∈ batches, ∀ key ∈ batch, key ∈ keysOf rows)
    (hcount : copied + batches.flatten.length ≤ rows.length) :
    Spec (CopyingMembership R src rows)
      (copySnapshot R src job (batches.map .ok) copied completedBatches) (MembershipBlock R src)
      (fun _ => CopyingMembership R src rows) := by
  induction batches generalizing copied completedBatches with
  | nil => exact spec_pure (Q := fun _ => CopyingMembership R src rows) _
  | cons keys batches ih =>
    rw [List.flatten_cons, List.length_append] at hcount
    rw [List.map_cons, copySnapshot]
    refine spec_bind (spec_lift _) (fun keys' => ?_)
    refine spec_bind spec_membershipRead (fun read => spec_of_forall ?_)
    rintro s' ⟨s, i, ⟨hs, hkeys'⟩, hread, hrows⟩
    obtain rfl : keys = keys' := Except.ok.inj hkeys'
    split
    · exact spec_raise _
    -- the source still shows all keys of the batch
    · rename_i hobserved
      have hlength : read.length = keys.length := by
        have hobserved' := congrArg List.length (not_not.mp hobserved)
        simpa [keysOf] using hobserved'
      have hinserted : ∀ row ∈ read, row.1 ∈ keysOf rows := fun row hrow => by
        rw [hrows, mem_rowsForKeys] at hrow
        exact hkeys keys List.mem_cons_self row.1 hrow.2
      have hcopied : copied + read.length ≤ rows.length := by omega
      refine spec_bind ((spec_insertImmutableRows hinserted).pre ?_) (fun _ => ?_)
      · rintro _ rfl
        exact hs.follows hread.follows
      refine spec_bind (Q := fun _ => CopyingMembership R src rows) ?_ (fun _ => ?_)
      · refine Spec.conseq (Spec.pre (spec_progressMembership (Q := fun _ => True)
          (fun _ => rfl) (fun _ => rfl) (fun _ => rfl)
          (fun _ => hcopied.trans (le_max_right _ _))) ?_) (fun _ _ h => h.1)
        exact fun _ h => ⟨h, fun _ => trivial⟩
      refine spec_bind ((spec_lift _).conseq (fun _ _ h => h.1)) (fun _ => ih _ _ ?_ ?_)
      · exact fun batch hbatch => hkeys batch (List.mem_cons_of_mem _ hbatch)
      · omega

variable (rows) in
/-- **Verification.** The rows digested have the keys of the batches; they are rows of the
    target, and rows the source has shown. A batch goes on only if the keys of its rows in the
    target are those asked for and its rows equal those the source shows, so the digest has
    exactly the rows of the target. -/
theorem spec_verifySnapshot (target : KeyedTable K V) (batches : List (List K)) (verified : ℕ)
    (digested : List (K × V)) :
    Spec (fun s => CopyingMembership R src rows s ∧ s.world.target = target)
      (verifySnapshot R src job (batches.map .ok) verified digested) (MembershipBlock R src)
      (fun result s => (CopyingMembership R src rows s ∧ s.world.target = target)
        ∧ ∃ new, result = (verified + new.length, digested ++ new) ∧ keysOf new = batches.flatten
          ∧ new ⊆ target.rows ∧ ∀ row ∈ new, ∃ j, row ∈ (src.snapshot j).rows) := by
  induction batches generalizing verified digested with
  | nil =>
    refine (spec_pure _).pre (fun s hs => ⟨hs, [], ?_, rfl, List.nil_subset _, ?_⟩)
    · simp
    · simp
  -- one batch: read the source, compare the keys, then the contents
  | cons keys batches ih =>
    rw [List.map_cons, verifySnapshot]
    refine spec_bind (spec_lift _) (fun keys' => ?_)
    refine spec_bind spec_membershipRead (fun sourceRows => ?_)
    refine spec_bind spec_get (fun s₁ => spec_of_forall ?_)
    rintro _ ⟨⟨s, i, ⟨⟨hs, htarget⟩, hkeys'⟩, hread, hrows⟩, rfl⟩
    obtain rfl : keys = keys' := Except.ok.inj hkeys'
    have htarget₁ : s₁.world.target = target := hread.target.trans htarget
    dsimp only
    split
    · exact spec_raise _
    rename_i hkeysOf
    split
    · exact spec_raise _
    rename_i hcanonical
    rw [not_or, not_not, not_not] at hkeysOf
    -- equal canonical texts are equal rows
    have hsame : sourceRows = rowsForKeys keys target := by
      rw [← htarget₁]
      exact List.map_injective_iff.mpr R.json_injective (not_not.mp hcanonical)
    have hlength : keys.length = (rowsForKeys keys target).length := by
      have hcount := congrArg List.length hkeysOf.2
      rw [htarget₁] at hcount
      simpa [keysOf] using hcount.symm
    refine spec_bind (Q := fun _ s => CopyingMembership R src rows s ∧ s.world.target = target)
      ?_ (fun _ => ?_)
    · refine Spec.pre (spec_progressMembership (fun _ => rfl) (fun _ => rfl) (fun _ => rfl)
        (fun _ => le_max_left _ _)) ?_
      rintro _ rfl
      exact ⟨hs.follows hread.follows, fun _ => htarget₁⟩
    refine (ih _ _).conseq ?_
    rintro result s₂ ⟨hs₂, new, hresult, hnew, hsubset, hshown⟩
    refine ⟨hs₂, rowsForKeys keys target ++ new, ?_, ?_, ?_, ?_⟩
    · rw [hresult, htarget₁, List.append_assoc, List.length_append, hlength, Nat.add_assoc]
    · rw [keysOf_append, hnew, List.flatten_cons, ← htarget₁, hkeysOf.2]
    · refine List.append_subset.mpr ⟨fun row hrow => ?_, hsubset⟩
      exact (mem_rowsForKeys.mp hrow).1
    · intro row hrow
      rcases List.mem_append.mp hrow with hrow | hrow
      · rw [← hsame, hrows] at hrow
        exact ⟨i, (mem_rowsForKeys.mp hrow).1⟩
      · exact hshown row hrow

/-- Rows with the keys of a reported manifest, all shown by the source, are the rows that
    were captured. -/
theorem Shown.rows_unique {new : List (K × V)} {n : ℕ} (h : Shown src n rows)
    (hnew : ∀ row ∈ new, ∃ j, row ∈ (src.snapshot j).rows) (hkeys : keysOf new = keysOf rows) :
    new = rows := by
  obtain ⟨i, -, rfl⟩ := h
  exact Source.rows_unique hnew (List.Subset.refl _) hkeys

omit [LinearOrder K] in
/-- The batches of a manifest after a checkpoint hold the keys after it. -/
theorem manifestBatches_flatten (rows : List (K × V)) (batchSize : ℕ) {skipRows : ℕ}
    (hskip : skipRows ≤ rows.length) :
    ∃ batches : List (List K), batches.flatten = (keysOf rows).drop skipRows
      ∧ manifestBatches R (manifestText R (keysOf rows)) batchSize skipRows
        = batches.map .ok := by
  refine ⟨batchesFrom batchSize [] ((keysOf rows).drop skipRows), ?_, ?_⟩
  · rw [batchesFrom_flatten, List.nil_append]
  · exact manifestBatches_text (keysOf rows) batchSize (by simpa [keysOf] using hskip)

/-- The copy over a reported manifest, from any checkpoint. -/
theorem spec_copyManifest (batchSize : ℕ) {copied : ℕ} (completedBatches : ℕ)
    (hcopied : copied ≤ rows.length) :
    Spec (CopyingMembership R src rows)
      (copySnapshot R src job (manifestBatches R (manifestText R (keysOf rows)) batchSize copied)
        copied completedBatches)
      (MembershipBlock R src) (fun _ => CopyingMembership R src rows) := by
  obtain ⟨batches, hflatten, hbatches⟩ := manifestBatches_flatten (R := R) rows batchSize hcopied
  rw [hbatches]
  refine spec_copySnapshot batches copied completedBatches (fun batch hbatch key hkey => ?_) ?_
  · have hmem : key ∈ batches.flatten := List.mem_flatten.mpr ⟨batch, hbatch, hkey⟩
    rw [hflatten] at hmem
    exact List.mem_of_mem_drop hmem
  · have hlength : (keysOf rows).length = rows.length := List.length_map _
    rw [hflatten, List.length_drop]
    omega

/-- The verification over a reported manifest digests the captured rows, which the target
    has. -/
theorem spec_verifyManifest (batchSize : ℕ) :
    Spec (CopyingMembership R src rows)
      (verifySnapshot R src job (manifestBatches R (manifestText R (keysOf rows)) batchSize 0) 0 [])
      (MembershipBlock R src) (fun result s =>
        (CopyingMembership R src rows s ∧ rows ⊆ s.world.target.rows) ∧ result.2 = rows) := by
  obtain ⟨batches, hflatten, hbatches⟩ := manifestBatches_flatten (R := R) rows batchSize
    (Nat.zero_le _)
  rw [hbatches]
  refine spec_of_forall (fun s₀ hs₀ => ?_)
  refine (spec_verifySnapshot rows s₀.world.target batches 0 []).weaken ?_ (fun _ _ h => h) ?_
  · rintro _ rfl
    exact ⟨hs₀, rfl⟩
  · rintro result s ⟨⟨hs, htarget⟩, new, hresult, hkeys, hsubset, hshown⟩
    rw [hflatten, List.drop_zero] at hkeys
    obtain rfl : new = rows := hs.shown.rows_unique hshown hkeys
    refine ⟨⟨hs, htarget ▸ hsubset⟩, ?_⟩
    rw [hresult, List.nil_append]

/-- The end of a migration whose verification digested the captured rows. -/
theorem spec_finishSnapshot (maximum : Option K) (verified : ℕ) :
    Spec (fun s => CopyingMembership R src rows s ∧ rows ⊆ s.world.target.rows)
      (finishSnapshot R job rows.length maximum verified rows) (MembershipBlock R src)
      (fun _ s => VerifiedMembership R src rows s ∧ rows ⊆ s.world.target.rows) := by
  unfold finishSnapshot
  split
  · exact spec_raise _
  · refine (spec_publishTable _).pre ?_
    rintro s ⟨hs, htarget⟩
    obtain ⟨hmode, hcount, hsha256, hmanifest⟩ := hs.reports
    have hverified : VerifiedMembership R src rows (s.reporting { s.world.report with
        sourceRows := some rows.length
        verifiedRows := some rows.length
        snapshotRowsCopied := rows.length
        snapshotRowsVerified := rows.length
        rowDigest := some (R.digest rows)
        highWaterPrimaryKey := some maximum
        lastPrimaryKey := maximum
        verificationScope := some snapshotVerificationScope
        snapshotPhase := some "verified"
        verified := true }) :=
      ⟨⟨hmode, hcount, hsha256, hmanifest⟩, hs.shown, rfl, rfl, rfl⟩
    exact ⟨.finish rows hs _ hverified htarget, hverified, htarget⟩

/-! ### The verified target -/

theorem capturedTargetRows_cons (target : KeyedTable K V) (keys : List K)
    (batches : List (List K)) :
    capturedTargetRows job target ((keys :: batches).map .ok)
      = if keysOf (rowsForKeys keys target) ≠ keys then
          .error (.runtimeError ("verified captured membership missing from local target: "
            ++ job.name))
        else (capturedTargetRows job target (batches.map .ok)).map (rowsForKeys keys target ++ ·) := by
  rw [List.map_cons, capturedTargetRows]
  cases capturedTargetRows job target (batches.map .ok) <;> rfl

variable (job) in
/-- The digested rows of a target have the keys of the batches, or it lacks one of them. -/
theorem capturedTargetRows_cases (target : KeyedTable K V) (batches : List (List K)) :
    (∃ new, capturedTargetRows job target (batches.map .ok) = .ok new
        ∧ keysOf new = batches.flatten ∧ new ⊆ target.rows)
      ∨ ∃ message, capturedTargetRows job target (batches.map .ok)
          = .error (.runtimeError message) := by
  induction batches with
  | nil => exact Or.inl ⟨[], rfl, rfl, List.nil_subset _⟩
  | cons keys batches ih =>
    rw [capturedTargetRows_cons]
    by_cases hkeys : keysOf (rowsForKeys keys target) = keys
    · rw [if_neg (not_not.mpr hkeys)]
      rcases ih with ⟨new, hnew, hflatten, hsubset⟩ | ⟨message, hmessage⟩
      · refine Or.inl ⟨rowsForKeys keys target ++ new, by rw [hnew]; rfl, ?_, ?_⟩
        · rw [keysOf_append, hkeys, hflatten, List.flatten_cons]
        · exact List.append_subset.mpr ⟨fun row hrow => (mem_rowsForKeys.mp hrow).1, hsubset⟩
      · exact Or.inr ⟨message, by rw [hmessage]; rfl⟩
    · rw [if_pos hkeys]
      exact Or.inr ⟨_, rfl⟩

/-- Rows that the target has are digested, in the batches of their keys. -/
theorem capturedTargetRows_of_subset (target : KeyedTable K V) (batches : List (List K))
    {rows : List (K × V)} (hsorted : rows.Pairwise (fun a b => a.1 < b.1))
    (hsubset : rows ⊆ target.rows) (hflatten : batches.flatten = keysOf rows) :
    capturedTargetRows job target (batches.map .ok) = .ok rows := by
  induction batches generalizing rows with
  | nil =>
    obtain rfl : rows = [] := List.map_eq_nil_iff.mp hflatten.symm
    rfl
  | cons keys batches ih =>
    rw [List.flatten_cons] at hflatten
    obtain ⟨first, rest, rfl, hfirst, hrest⟩ := List.map_eq_append_iff.mp hflatten.symm
    have hkeys : keysOf first = keys := hfirst
    obtain ⟨hfirstSubset, hrestSubset⟩ := List.append_subset.mp hsubset
    obtain ⟨hfirstSorted, hrestSorted, -⟩ := List.pairwise_append.mp hsorted
    have hrows : rowsForKeys keys target = first := by
      rw [← hkeys]
      exact rowsForKeys_of_subset hfirstSorted hfirstSubset
    rw [capturedTargetRows_cons, hrows, if_neg (not_not.mpr hkeys),
      ih hrestSorted hrestSubset hrest.symm]
    rfl

/-- The rows of a snapshot are in key order. -/
theorem Shown.sorted {n : ℕ} (h : Shown src n rows) :
    rows.Pairwise (fun a b => a.1 < b.1) := by
  obtain ⟨i, -, rfl⟩ := h
  exact (src.snapshot i).sorted

/-- The check of a verified world makes no write. -/
theorem capturedTargetIsIntact_run {s : MembershipWorld K V} (hs : VerifiedMembership R src rows s) :
    capturedTargetIsIntact R src job s
      = ([], verifiedCapturedTargetIsIntact R job (manifestText R (keysOf rows)) s.world.target
          s.world.report) := by
  rw [capturedTargetIsIntact, run_get_bind, if_pos ⟨hs.verified, hs.reports.mode⟩,
    run_bind_of_silent (captureMembershipManifest_reported hs.reports)]
  rfl

variable (job) in
/-- **Intactness.** The check succeeds when the target has the captured rows, and raises when
    it lacks one of them. -/
theorem capturedTargetIsIntact_cases {s : MembershipWorld K V}
    (hs : VerifiedMembership R src rows s) :
    (rows ⊆ s.world.target.rows ∧ capturedTargetIsIntact R src job s = ([], .ok true))
      ∨ (¬ rows ⊆ s.world.target.rows ∧ ∃ message,
          capturedTargetIsIntact R src job s = ([], .error (.runtimeError message))) := by
  obtain ⟨batches, hflatten, hbatches⟩ := manifestBatches_flatten (R := R) rows
    (effectiveBatchSize job.batchSize) (Nat.zero_le _)
  rw [List.drop_zero] at hflatten
  rw [capturedTargetIsIntact_run hs, verifiedCapturedTargetIsIntact,
    if_neg (by rw [hs.verified]; decide), hs.verifiedRows, hs.rowDigest]
  dsimp only
  rw [if_neg (show R.digest rows ≠ "" from R.sha256_ne_empty _), hbatches]
  by_cases hsubset : rows ⊆ s.world.target.rows
  · refine Or.inl ⟨hsubset, ?_⟩
    rw [capturedTargetRows_of_subset _ _ hs.shown.sorted hsubset hflatten]
    show ([], if rows.length ≠ rows.length ∨ R.digest rows ≠ R.digest rows then _ else _) = _
    rw [if_neg (by simp)]
  · refine Or.inr ⟨hsubset, ?_⟩
    rcases capturedTargetRows_cases job s.world.target batches with
      ⟨new, hnew, -, hnewSubset⟩ | ⟨message, hmessage⟩
    · have hdigest : R.digest new ≠ R.digest rows := fun h =>
        hsubset (R.digest_injective h ▸ hnewSubset)
      rw [hnew]
      show ∃ message, ([], if new.length ≠ rows.length ∨ R.digest new ≠ R.digest rows then _
        else _) = _
      rw [if_pos (Or.inr hdigest)]
      exact ⟨_, rfl⟩
    · rw [hmessage]
      exact ⟨message, rfl⟩

/-- A report of another migration gives way to one of this. -/
theorem spec_prepareSnapshot {s₀ : MembershipWorld K V} (hinv : MembershipInv R src s₀)
    (hunverified : ¬ (s₀.world.report.verified = true
      ∧ s₀.world.report.migrationMode = some snapshotMigrationMode)) :
    Spec (fun s => s = s₀) prepareSnapshot (MembershipBlock R src)
      (fun _ s => Capturing s ∨ ∃ rows, CopyingMembership R src rows s) := by
  refine spec_bind spec_get (fun s => ?_)
  split
  · rename_i hmode
    refine spec_bind (Q := fun _ s => s.world.report.migrationMode ≠ some snapshotMigrationMode)
      ((spec_write _).pre ?_) (fun _ => spec_block ?_ ?_)
    · rintro _ ⟨-, rfl⟩
      exact ⟨.single (.unlink hmode), hmode⟩
    · intro s hs
      exact .single (.prepare hs _ ⟨rfl, rfl, rfl, rfl, rfl⟩)
    · intro s _ _ _
      exact Or.inl ⟨rfl, rfl, rfl, rfl, rfl⟩
  · rename_i hmode
    refine (spec_pure ()).pre ?_
    rintro _ ⟨rfl, rfl⟩
    cases hinv with
    | other h => exact absurd h hmode
    | capturing h => exact Or.inl h
    | copying rows h => exact Or.inr ⟨rows, h⟩
    | verified rows h => exact absurd ⟨h.verified, h.reports.mode⟩ hunverified

end Parts

/-- A run on a verified world ends normally if the target has the captured rows, and raises
    if it lacks one of them; it makes no write. -/
theorem migrateCaptured_verified {s : MembershipWorld K V} {rows : List (K × V)}
    (hs : VerifiedMembership R src rows s) (job : Job) :
    (rows ⊆ s.world.target.rows
        ∧ migrateCapturedAppendOnlyTable R src job s = ([], .ok job.completedBatches))
      ∨ (¬ rows ⊆ s.world.target.rows ∧ ∃ message,
          migrateCapturedAppendOnlyTable R src job s = ([], .error (.runtimeError message))) := by
  rcases capturedTargetIsIntact_cases job hs with ⟨hsubset, hok⟩ | ⟨hlacks, message, herror⟩
  · refine Or.inl ⟨hsubset, ?_⟩
    rw [migrateCapturedAppendOnlyTable, run_bind_of_silent hok, if_pos rfl, run_pure]
  · refine Or.inr ⟨hlacks, message, ?_⟩
    rw [migrateCapturedAppendOnlyTable]
    show Prog.bind _ _ s = _
    rw [Prog.bind, herror]

/-- The migration makes the writes of `MembershipStep`, and ends normally on verified rows. A
    store that reports verified rows is either intact, and nothing is written, or raises; any
    other store captures a manifest first, so the copy and the verification range over keys that
    do not change. -/
theorem spec_migrateCaptured (job : Job) :
    Spec (MembershipInv R src) (migrateCapturedAppendOnlyTable R src job) (MembershipBlock R src)
      (fun _ s => ∃ rows, VerifiedMembership R src rows s ∧ rows ⊆ s.world.target.rows) := by
  refine spec_of_forall (fun s₀ hinv => ?_)
  -- the report says verified: the check of the target decides
  by_cases hverified : s₀.world.report.verified = true
      ∧ s₀.world.report.migrationMode = some snapshotMigrationMode
  · obtain ⟨rows, hrows⟩ := hinv.of_verified hverified.1 hverified.2
    refine spec_silent ?_ ?_
    · rintro _ rfl
      rcases migrateCaptured_verified hrows job with ⟨-, hrun⟩ | ⟨-, message, hrun⟩ <;> rw [hrun]
    · rintro _ completedBatches rfl hok
      rcases migrateCaptured_verified hrows job with ⟨hsubset, -⟩ | ⟨-, message, hrun⟩
      · exact ⟨rows, hrows, hsubset⟩
      · rw [hrun] at hok
        cases hok
  have hrun : capturedTargetIsIntact R src job s₀ = ([], .ok false) := by
    rw [capturedTargetIsIntact, run_get_bind, if_neg hverified]
    rfl
  refine spec_bind (Q := fun intact s => s = s₀ ∧ intact = false) (spec_silent ?_ ?_)
    (fun intact => spec_of_fact (fun hintact => ?_))
  · rintro _ rfl
    rw [hrun]
  · rintro _ intact rfl hok
    rw [hrun] at hok
    exact ⟨rfl, (Except.ok.inj hok).symm⟩
  subst hintact
  rw [if_neg Bool.false_ne_true]
  refine spec_bind (spec_prepareSnapshot hinv hverified) (fun _ => ?_)
  refine spec_bind spec_captureMembershipManifest (fun capture => ?_)
  refine spec_bind spec_get (fun s₁ => spec_of_forall ?_)
  rintro _ ⟨⟨rows, hs₁, rfl⟩, rfl⟩
  have hlength : (keysOf rows).length = rows.length := List.length_map _
  have hcopied := hs₁.copied
  -- the manifest has at least as many keys as were copied
  show Spec _ (if (keysOf rows).length < s₁.world.report.snapshotRowsCopied then _ else _) _ _
  rw [if_neg (by omega)]
  have hpublish : ∀ phase : Option String, Spec (CopyingMembership R src rows)
      ((publish (fun r => { r with snapshotPhase := phase })).within tableView)
      -- the phases change the report alone
      (MembershipBlock R src) (fun _ => CopyingMembership R src rows) := fun phase => by
    refine Spec.conseq (Spec.pre (spec_progressMembership (Q := fun _ => True) (fun _ => rfl)
      (fun _ => rfl) (fun _ => rfl) (fun _ => le_max_left _ _)) ?_) (fun _ _ h => h.1)
    exact fun _ h => ⟨h, fun _ => trivial⟩
  refine spec_bind ((hpublish _).pre (fun _ h => h ▸ hs₁)) (fun _ => ?_)
  refine spec_bind (spec_copyManifest _ _ hcopied) (fun completedBatches => ?_)
  refine spec_bind (hpublish _) (fun _ => ?_)
  refine spec_bind (spec_verifyManifest _) (fun result => spec_of_fact (fun hdigested => ?_))
  obtain ⟨verified, digested⟩ := result
  obtain rfl : digested = rows := hdigested
  refine spec_bind (Q := fun _ s => VerifiedMembership R src digested s
    ∧ digested ⊆ s.world.target.rows) ?_ (fun _ => (spec_pure _).pre (fun _ h => ⟨digested, h⟩))
  show Spec _ (finishSnapshot R job (keysOf digested).length _ verified digested) _ _
  rw [hlength]
  exact spec_finishSnapshot _ _

/-! ### Runs and restarts -/

/-- The worlds reached by runs of the migration, each restarted on the report the one before
    it left when it ended, or was interrupted after any of its writes. -/
inductive CapturedRestarts (R : ManifestRuntime K V) (src : Source K V) (s₀ : MembershipWorld K V) :
    MembershipWorld K V → Prop
  | start : CapturedRestarts R src s₀ s₀
  | run {s : MembershipWorld K V} (h : CapturedRestarts R src s₀ s) (job : Job) (k : ℕ) :
      CapturedRestarts R src s₀
        (commitAll s ((migrateCapturedAppendOnlyTable R src job s).1.take k))

/-- As `CapturedRestarts`, where others may change the target in between. -/
inductive CapturedHistory (R : ManifestRuntime K V) (src : Source K V) (s₀ : MembershipWorld K V) :
    MembershipWorld K V → Prop
  | start : CapturedHistory R src s₀ s₀
  | run {s : MembershipWorld K V} (h : CapturedHistory R src s₀ s) (job : Job) (k : ℕ) :
      CapturedHistory R src s₀
        (commitAll s ((migrateCapturedAppendOnlyTable R src job s).1.take k))
  | change {s : MembershipWorld K V} (h : CapturedHistory R src s₀ s) (target : KeyedTable K V) :
      CapturedHistory R src s₀ { s with world := { s.world with target := target } }

/-- A run that is not interrupted. -/
theorem CapturedRestarts.final {s₀ s : MembershipWorld K V} (h : CapturedRestarts R src s₀ s)
    (job : Job) :
    CapturedRestarts R src s₀ ((migrateCapturedAppendOnlyTable R src job).final s) := by
  have hrun := h.run job (migrateCapturedAppendOnlyTable R src job s).1.length
  rwa [List.take_length] at hrun

/-- Restarts are a history. A run that is restarted on the same source is one history of a
    migration. -/
theorem CapturedRestarts.history {s₀ s : MembershipWorld K V} (h : CapturedRestarts R src s₀ s) :
    CapturedHistory R src s₀ s := by
  induction h with
  | start => exact .start
  | run _ job k ih => exact .run ih job k

/-- What every write keeps holds after any part of a run. -/
theorem MembershipInv.journal {I : MembershipWorld K V → Prop}
    (hstep : ∀ s w, I s → MembershipStep R src s w → I (commit s w)) {s : MembershipWorld K V}
    (hs : MembershipInv R src s) (hI : I s) (job : Job) (k : ℕ) :
    MembershipInv R src (commitAll s ((migrateCapturedAppendOnlyTable R src job s).1.take k))
      ∧ I (commitAll s ((migrateCapturedAppendOnlyTable R src job s).1.take k)) := by
  refine Along.invariant (I := fun t => MembershipInv R src t ∧ I t) ?_ ⟨hs, hI⟩
    ((spec_migrateCaptured job).guarantee s hs) k
  rintro t _ ⟨ht, hIt⟩ ⟨hw⟩ n
  rcases Nat.eq_zero_or_pos n with rfl | hpos
  · exact ⟨ht, hIt⟩
  · rw [List.take_of_length_le hpos]
    exact ⟨ht.step hw, hstep t _ hIt hw⟩

/-- What every write keeps holds after any restarts. -/
theorem CapturedRestarts.invariant {I : MembershipWorld K V → Prop}
    (hstep : ∀ s w, I s → MembershipStep R src s w → I (commit s w))
    {s₀ s : MembershipWorld K V} (hs₀ : MembershipInv R src s₀) (hI : I s₀)
    (h : CapturedRestarts R src s₀ s) : MembershipInv R src s ∧ I s := by
  induction h with
  | start => exact ⟨hs₀, hI⟩
  | run _ job k ih => exact ih.1.journal hstep ih.2 job k

/-- What every write and every change of the target keep holds after any history. -/
theorem CapturedHistory.invariant {I : MembershipWorld K V → Prop}
    (hstep : ∀ s w, I s → MembershipStep R src s w → I (commit s w))
    (hfollows : ∀ s s', I s → Follows s s' → I s')
    {s₀ s : MembershipWorld K V} (hs₀ : MembershipInv R src s₀) (hI : I s₀)
    (h : CapturedHistory R src s₀ s) : MembershipInv R src s ∧ I s := by
  induction h with
  | start => exact ⟨hs₀, hI⟩
  | run _ job k ih => exact ih.1.journal hstep ih.2 job k
  | @change s _ target ih =>
    have hsame : Follows s { s with world := { s.world with target := target } } :=
      ⟨⟨s.world.report.transport, rfl⟩, rfl, rfl, le_rfl⟩
    exact ⟨ih.1.follows hsame, hfollows _ _ ih.2 hsame⟩

/-- A report of this migration that has an entry on the manifest. -/
def ManifestReported (s : MembershipWorld K V) : Prop :=
  s.world.report.migrationMode = some snapshotMigrationMode
    ∧ (s.world.report.snapshotRowCount.isSome ∨ s.snapshotManifestSha256.isSome)

/-- A reported manifest lists the rows of one snapshot. -/
theorem MembershipInv.shown {s : MembershipWorld K V} (h : MembershipInv R src s)
    (hs : ManifestReported s) : ∃ i < s.world.reads.length,
      ReportsMembership R (keysOf (src.snapshot i).rows) s := by
  obtain ⟨hmode, hentry⟩ := hs
  cases h with
  | other h => exact absurd hmode h
  | capturing h =>
    rw [h.count, h.sha256] at hentry
    simp at hentry
  | copying rows h =>
    obtain ⟨i, hi, rfl⟩ := h.shown
    exact ⟨i, hi, h.reports⟩
  | verified rows h =>
    obtain ⟨i, hi, rfl⟩ := h.shown
    exact ⟨i, hi, h.reports⟩

/-- **Captured membership.** Over any interruptions and restarts, and any changes of the target
    by others in between: a reported manifest lists the keys of one snapshot, and stays; a run
    that ends normally leaves a verified report, and the captured rows in the target; runs keep
    every row of the target and insert only rows the manifest lists; and on a verified table a
    run succeeds, without a write, exactly if the target has the captured rows. One invariant of
    the world covers the four parts: what the report says is that some snapshot the source has
    shown was captured, and every further write leaves it said. -/
theorem migrateCaptured_sound (R : ManifestRuntime K V) (src : Source K V)
    {s₀ s : MembershipWorld K V}
    (hmode : s₀.world.report.migrationMode ≠ some snapshotMigrationMode)
    (h : CapturedHistory R src s₀ s) :
    (ManifestReported s → ∃ i < s.world.reads.length,
        ReportsMembership R (keysOf (src.snapshot i).rows) s
          ∧ ∀ s', CapturedHistory R src s s' →
            ReportsMembership R (keysOf (src.snapshot i).rows) s')
      ∧ (∀ job completedBatches s',
          (migrateCapturedAppendOnlyTable R src job s).2 = .ok completedBatches →
          s' = (migrateCapturedAppendOnlyTable R src job).final s →
            s'.world.report.verified = true ∧ ∃ i < s'.world.reads.length,
              ReportsMembership R (keysOf (src.snapshot i).rows) s'
                ∧ (src.snapshot i).rows ⊆ s'.world.target.rows)
      ∧ (∀ s', CapturedRestarts R src s s' → InsertsListed R s s')
      ∧ (s.world.report.verified = true →
          s.world.report.migrationMode = some snapshotMigrationMode →
          ∃ i < s.world.reads.length, ReportsMembership R (keysOf (src.snapshot i).rows) s
            ∧ ∀ job, ((∃ completedBatches, migrateCapturedAppendOnlyTable R src job s
                  = ([], .ok completedBatches)) ↔ (src.snapshot i).rows ⊆ s.world.target.rows)
                ∧ (¬ (src.snapshot i).rows ⊆ s.world.target.rows →
                  ∃ message, migrateCapturedAppendOnlyTable R src job s
                    = ([], .error (.runtimeError message)))) := by
  -- the invariant holds of whatever history the table has
  have hinv : MembershipInv R src s :=
    (h.invariant (I := fun _ => True) (fun _ _ _ _ => trivial) (fun _ _ _ _ => trivial)
      (.other hmode) trivial).1
  refine ⟨fun hreported => ?_, ?_, fun s' h' => ?_, fun hverified hmode' => ?_⟩
  · obtain ⟨i, hi, hreports⟩ := hinv.shown hreported
    -- a reported manifest stays reported
    refine ⟨i, hi, hreports, fun s' h' => ?_⟩
    exact (h'.invariant (I := ReportsMembership R (keysOf (src.snapshot i).rows))
      (fun _ _ hI hw => hI.step hw) (fun _ _ hI hs => hI.follows hs) hinv hreports).2
  -- a run that ends normally has verified
  · rintro job completedBatches _ hok rfl
    obtain ⟨rows, hs', htarget⟩ := (spec_migrateCaptured job).post s completedBatches hinv hok
    obtain ⟨i, hi, rfl⟩ := hs'.shown
    exact ⟨hs'.verified, i, hi, hs'.reports, htarget⟩
  · have hsame : InsertsListed R s s := ⟨List.Subset.refl _, fun row hrow => Or.inl hrow⟩
    exact (h'.invariant (I := InsertsListed R s) (fun _ _ hI hw => hI.step hw) hinv hsame).2
  -- a verified table: the check of its rows decides whether the run succeeds
  · obtain ⟨rows, hs⟩ := hinv.of_verified hverified hmode'
    obtain ⟨i, hi, rfl⟩ := hs.shown
    refine ⟨i, hi, hs.reports, fun job => ?_⟩
    rcases migrateCaptured_verified hs job with ⟨hsubset, hrun⟩ | ⟨hlacks, message, hrun⟩
    · exact ⟨⟨fun _ => hsubset, fun _ => ⟨_, hrun⟩⟩, fun hlacks => absurd hsubset hlacks⟩
    · refine ⟨⟨?_, fun hsubset => absurd hsubset hlacks⟩, fun _ => ⟨message, hrun⟩⟩
      rintro ⟨completedBatches, hok⟩
      rw [hrun] at hok
      cases (Prod.mk.inj hok).2

/-- A runtime that writes keys in unary as well. -/
def ManifestRuntime.sample : ManifestRuntime ℕ ℕ where
  toRuntime := .sample
  jsonKey := unary
  jsonKey_line key := by simp [unary]
  loadsKey line := some line.length
  loads_json key := by simp [unary]
  reprKeys _ := "[]"

/-- A world with a stale manifest, and a target with a row of its own. -/
def membershipStart : MembershipWorld ℕ ℕ :=
  ⟨World.start ⟨[(9, 1)], by decide⟩, none, some "stale"⟩

/-- The world after a run, which may be interrupted after one batch. -/
def membershipAfter (interruptAfterBatches : Option ℕ) : MembershipWorld ℕ ℕ :=
  (migrateCapturedAppendOnlyTable .sample (Source.constant threeRows)
    ⟨"scans", 2, 0, interruptAfterBatches⟩).final membershipStart

/-- An interrupted run leaves a reported manifest, and one that was not a target that a second
    run accepts. -/
theorem migrateCaptured_membershipAfter :
    (∃ i < (membershipAfter (some 1)).world.reads.length,
        ReportsMembership .sample (keysOf ((Source.constant threeRows).snapshot i).rows)
          (membershipAfter (some 1)))
      ∧ InsertsListed .sample membershipStart (membershipAfter none)
      ∧ ∃ completedBatches, migrateCapturedAppendOnlyTable .sample (Source.constant threeRows)
          ⟨"scans", 1, 0, none⟩ (membershipAfter none) = ([], .ok completedBatches) := by
  have hmode : membershipStart.world.report.migrationMode ≠ some snapshotMigrationMode := by
    simp [membershipStart, World.start, TableReport.cleared]
  have hafter : ∀ interruptAfterBatches, CapturedRestarts .sample (Source.constant threeRows)
      membershipStart (membershipAfter interruptAfterBatches) :=
    fun interruptAfterBatches => CapturedRestarts.start.final _
  obtain ⟨hreported, -, -, -⟩ := migrateCaptured_sound .sample _ hmode (hafter (some 1)).history
  obtain ⟨-, -, hinserts, -⟩ := migrateCaptured_sound .sample _ hmode
    (@CapturedHistory.start _ _ _ .sample (Source.constant threeRows) membershipStart)
  obtain ⟨-, -, -, hintact⟩ := migrateCaptured_sound .sample _ hmode (hafter none).history
  obtain ⟨i, hi, hreports, -⟩ := hreported ⟨by decide +kernel, Or.inl (by decide +kernel)⟩
  obtain ⟨j, -, -, hrerun⟩ := hintact (by decide +kernel) (by decide +kernel)
  refine ⟨⟨i, hi, hreports⟩, hinserts _ (hafter none), (hrerun ⟨"scans", 1, 0, none⟩).1.mpr ?_⟩
  have htarget : (membershipAfter none).world.target.rows
      = [(1, 0), (2, 1), (4, 0), (9, 1)] := by decide +kernel
  show threeRows.rows ⊆ (membershipAfter none).world.target.rows
  rw [htarget]
  simp [threeRows]

end InefficiencyEngine.Migration
