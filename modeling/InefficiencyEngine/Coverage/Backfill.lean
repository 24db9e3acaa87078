import InefficiencyEngine.Coverage.SnapshotHistory

namespace InefficiencyEngine.Coverage

/-!
# The backfill loses nothing

A run of the backfill works from a checkpoint that may be stale by the time it commits.  What
carries the argument is what its batch says of the heartbeats: it holds every heartbeat of the
snapshot worker after that checkpoint and up to the id it is going to store (`RunOk`), and the
checkpoint of the database has not fallen behind the one the run has read.  Whatever the run
stores then, a heartbeat at or below it is in the batch or was below the checkpoint before.
-/

variable {sha256 : String → String} {s : CoverageStore}

/-! ### Conflict-ignoring inserts -/

section Inserts

variable {table rows : List HistoryRow} {row : HistoryRow}

theorem mem_insertMissingRow {found : HistoryRow} (h : found ∈ insertMissingRow table row) :
    found ∈ table ∨ found = row := by
  rw [insertMissingRow] at h
  split at h
  · exact .inl h
  · exact (List.mem_append.mp h).imp_right List.mem_singleton.mp

theorem subset_insertMissingRow : table ⊆ insertMissingRow table row := by
  rw [insertMissingRow]
  split
  · exact List.Subset.refl _
  · exact List.subset_append_left _ _

theorem key_mem_insertMissingRow :
    row.snapshotKey ∈ (insertMissingRow table row).map HistoryRow.snapshotKey := by
  rw [insertMissingRow]
  split
  · assumption
  · simp

theorem nodup_insertMissingRow (h : (table.map HistoryRow.snapshotKey).Nodup) :
    ((insertMissingRow table row).map HistoryRow.snapshotKey).Nodup := by
  rw [insertMissingRow]
  split
  · exact h
  · next hnew =>
    rw [List.map_append, List.map_singleton]
    refine List.nodup_append.mpr ⟨h, List.nodup_singleton _, fun key hkey other hother => ?_⟩
    rw [List.mem_singleton.mp hother]
    rintro rfl
    exact hnew hkey

theorem mem_insertMissingRows {found : HistoryRow} (h : found ∈ (insertMissingRows table rows).1) :
    found ∈ table ∨ found ∈ rows := by
  show found ∈ table ∨ found ∈ rows
  change found ∈ rows.foldl insertMissingRow table at h
  induction rows generalizing table with
  | nil => exact .inl h
  | cons row rest ih =>
    rcases ih h with hmem | hmem
    · rcases mem_insertMissingRow hmem with hold | rfl
      · exact .inl hold
      · exact .inr (List.mem_cons_self)
    · exact .inr (List.mem_cons_of_mem _ hmem)

theorem subset_insertMissingRows : table ⊆ (insertMissingRows table rows).1 := by
  change table ⊆ rows.foldl insertMissingRow table
  induction rows generalizing table with
  | nil => exact List.Subset.refl _
  | cons row rest ih => exact fun _ h => ih (subset_insertMissingRow h)

/-- Every row given to the insert is in the table afterwards, under its key. -/
theorem key_mem_insertMissingRows (h : row ∈ rows) :
    row.snapshotKey ∈ (insertMissingRows table rows).1.map HistoryRow.snapshotKey := by
  change row.snapshotKey ∈ (rows.foldl insertMissingRow table).map HistoryRow.snapshotKey
  induction rows generalizing table with
  | nil => exact absurd h List.not_mem_nil
  | cons first rest ih =>
    rcases List.mem_cons.mp h with rfl | hrest
    · exact List.map_subset _ subset_insertMissingRows key_mem_insertMissingRow
    · exact ih hrest

theorem nodup_insertMissingRows (h : (table.map HistoryRow.snapshotKey).Nodup) :
    ((insertMissingRows table rows).1.map HistoryRow.snapshotKey).Nodup := by
  change ((rows.foldl insertMissingRow table).map HistoryRow.snapshotKey).Nodup
  induction rows generalizing table with
  | nil => exact h
  | cons row rest ih => exact ih (nodup_insertMissingRow h)

end Inserts

/-! ### The checkpoint -/

theorem checkpoint_upsert (stored : Option MigrationRow) (row : MigrationRow) :
    checkpoint (upsertMigrationCheckpoint stored row)
      = max (checkpoint stored) row.checkpointHeartbeatId := by
  rcases stored with _ | current
  · exact (Nat.zero_max _).symm
  · rw [upsertMigrationCheckpoint]
    split
    · next h => exact (max_eq_right h).symm
    · next h => exact (max_eq_left (Nat.le_of_lt (Nat.lt_of_not_le h))).symm

/-- The latest id is the checkpoint or that of a row of the batch, and none of them is larger. -/
theorem latestHeartbeatId_spec (checkpoint : ℕ) (batch : List Heartbeat) :
    checkpoint ≤ latestHeartbeatId checkpoint batch
      ∧ (∀ row ∈ batch, row.id ≤ latestHeartbeatId checkpoint batch)
      ∧ (latestHeartbeatId checkpoint batch = checkpoint
          ∨ ∃ row ∈ batch, latestHeartbeatId checkpoint batch = row.id) := by
  induction batch generalizing checkpoint with
  | nil => exact ⟨le_refl _, fun _ h => absurd h List.not_mem_nil, .inl rfl⟩
  | cons first rest ih =>
    have hstep : latestHeartbeatId checkpoint (first :: rest)
        = latestHeartbeatId (max checkpoint first.id) rest := rfl
    obtain ⟨hle, hrest, hcases⟩ := ih (max checkpoint first.id)
    rw [hstep]
    refine ⟨le_trans (le_max_left _ _) hle, fun row hrow => ?_, ?_⟩
    · rcases List.mem_cons.mp hrow with rfl | hrow
      · exact le_trans (le_max_right _ _) hle
      · exact hrest row hrow
    · rcases hcases with heq | ⟨row, hrow, heq⟩
      · rcases max_choice checkpoint first.id with hmax | hmax
        · exact .inl (heq.trans hmax)
        · exact .inr ⟨first, List.mem_cons_self, heq.trans hmax⟩
      · exact .inr ⟨row, List.mem_cons_of_mem _ hrow, heq⟩

theorem latestHeartbeatId_le {checkpoint bound : ℕ} {batch : List Heartbeat}
    (hcheckpoint : checkpoint ≤ bound) (hbatch : ∀ row ∈ batch, row.id ≤ bound) :
    latestHeartbeatId checkpoint batch ≤ bound := by
  rcases (latestHeartbeatId_spec checkpoint batch).2.2 with heq | ⟨row, hrow, heq⟩
  · rw [heq]
    exact hcheckpoint
  · rw [heq]
    exact hbatch row hrow

/-! ### What a batch holds -/

/-- The batch holds every heartbeat of the snapshot worker after the checkpoint and up to the
    latest id of the batch. -/
def Contiguous (heartbeats : List Heartbeat) (checkpoint : ℕ) (batch : List Heartbeat) : Prop :=
  ∀ row ∈ heartbeats, row.workerId = sourceCoverageSnapshotWorkerId → checkpoint < row.id →
    row.id ≤ latestHeartbeatId checkpoint batch → row ∈ batch

theorem archiveRows_subset (heartbeats : List Heartbeat) (checkpoint limit : ℕ) :
    archiveRows heartbeats checkpoint limit ⊆ heartbeats :=
  fun _ h => List.mem_of_mem_filter (List.mem_of_mem_take h)

/-- **A batch is contiguous**, since the table is read in the order of its ids. -/
theorem contiguous_archiveRows {heartbeats : List Heartbeat} {checkpoint limit : ℕ}
    (hsorted : heartbeats.Pairwise (fun a b => a.id < b.id)) :
    Contiguous heartbeats checkpoint
      ((archiveRows heartbeats checkpoint limit).take limit) := by
  intro row hrow hworker hafter hlatest
  rw [archiveRows, List.take_take, Nat.min_eq_left (Nat.le_succ limit)] at hlatest ⊢
  have hfound : row ∈ heartbeats.filter (fun row =>
      row.workerId = sourceCoverageSnapshotWorkerId ∧ checkpoint < row.id) := by
    rw [List.mem_filter]
    exact ⟨hrow, decide_eq_true ⟨hworker, hafter⟩⟩
  -- a row that was cut off comes after every row of the batch
  rw [← List.take_append_drop limit (heartbeats.filter _)] at hfound
  rcases List.mem_append.mp hfound with hin | hcut
  · exact hin
  · have hlt : ∀ earlier ∈ (heartbeats.filter (fun row =>
        row.workerId = sourceCoverageSnapshotWorkerId ∧ checkpoint < row.id)).take limit,
        earlier.id < row.id := by
      have hpair := hsorted.sublist (List.filter_sublist (p := fun row =>
        row.workerId = sourceCoverageSnapshotWorkerId ∧ checkpoint < row.id))
      rw [← List.take_append_drop limit (heartbeats.filter _)] at hpair
      exact fun earlier hearlier => (List.pairwise_append.mp hpair).2.2 earlier hearlier row hcut
    rcases (latestHeartbeatId_spec checkpoint _).2.2 with heq | ⟨last, hlast, heq⟩
    · rw [heq] at hlatest
      omega
    · have := hlt last hlast
      rw [heq] at hlatest
      omega

/-- What is known of a run: the checkpoint it works from is not ahead of the stored one, and its
    batch is contiguous. -/
def RunOk (s : CoverageStore) : BackfillRun → Prop
  | .started _ => True
  | .readCheckpoint _ checkpoint' => checkpoint' ≤ checkpoint s.migration
  | .readBatch limit checkpoint' archive =>
    checkpoint' ≤ checkpoint s.migration ∧ (∀ row ∈ archive, row.id ≤ s.lastHeartbeatId)
      ∧ Contiguous s.heartbeats checkpoint' (archive.take limit)
  | .finished _ => True

/-- The lanes of a heartbeat have their rows. -/
def Archived (sha256 : String → String) (rows : List HistoryRow) (row : Heartbeat) : Prop :=
  ∀ snapshot, row.snapshot = some snapshot → ∀ lane ∈ snapshot.lanes,
    snapshotKey sha256 snapshot.observedAt lane.laneId ∈ rows.map HistoryRow.snapshotKey

/-- **The invariant.** Every heartbeat up to the checkpoint of the migration has its rows in the
    history, whose keys are distinct and computed from what they hold. -/
structure Lossless (sha256 : String → String) (s : CoverageStore) : Prop where
  keys : (s.rows.map HistoryRow.snapshotKey).Nodup
  keyed : ∀ row ∈ s.rows,
    row.snapshotKey = snapshotKey sha256 row.snapshotObservedAt row.laneId
  increasing : s.heartbeats.Pairwise (fun a b => a.id < b.id)
  last : ∀ row ∈ s.heartbeats, row.id ≤ s.lastHeartbeatId
  behind : checkpoint s.migration ≤ s.lastHeartbeatId
  archived : ∀ row ∈ s.heartbeats, row.workerId = sourceCoverageSnapshotWorkerId →
    row.id ≤ checkpoint s.migration → Archived sha256 s.rows row
  runs : ∀ run ∈ s.runs, RunOk s run

/-! ### Each action -/

/-- A run stays as it is while the heartbeats and the checkpoint grow. -/
theorem RunOk.mono {later : CoverageStore} {run : BackfillRun} (h : RunOk s run)
    (hs : Lossless sha256 s) (hcheckpoint : checkpoint s.migration ≤ checkpoint later.migration)
    (hlast : s.lastHeartbeatId ≤ later.lastHeartbeatId)
    (hheartbeats : ∀ row ∈ later.heartbeats, row ∈ s.heartbeats ∨ s.lastHeartbeatId < row.id) :
    RunOk later run := by
  cases run with
  | started limit => trivial
  | readCheckpoint limit read => exact le_trans h hcheckpoint
  | finished result => trivial
  | readBatch limit read archive =>
    obtain ⟨hread, hids, hbatch⟩ := h
    refine ⟨le_trans hread hcheckpoint, fun row hrow => le_trans (hids row hrow) hlast, ?_⟩
    intro row hrow hworker hafter hlatest
    rcases hheartbeats row hrow with hold | hnew
    · exact hbatch row hold hworker hafter hlatest
    · -- a heartbeat that came since is beyond everything the run has read
      have hbound : latestHeartbeatId read (archive.take limit) ≤ s.lastHeartbeatId :=
        latestHeartbeatId_le (le_trans hread hs.behind)
          (fun row hrow => hids row (List.mem_of_mem_take hrow))
      omega

/-- A run takes a step of its own and the tables stay. -/
theorem Lossless.setRun (h : Lossless sha256 s) (i : ℕ) (run : BackfillRun) (hrun : RunOk s run) :
    Lossless sha256 { s with runs := s.runs.set i run } where
  keys := h.keys
  keyed := h.keyed
  increasing := h.increasing
  last := h.last
  behind := h.behind
  archived := h.archived
  runs found hfound := by
    have hok : RunOk s found := by
      rcases List.mem_or_eq_of_mem_set hfound with hold | rfl
      · exact h.runs found hold
      · exact hrun
    cases found <;> exact hok

/-- A run that has read something is at that point. -/
theorem Lossless.run_of_getElem? (h : Lossless sha256 s) {i : ℕ} {run : BackfillRun}
    (hrun : s.runs[i]? = some run) : RunOk s run :=
  h.runs run (List.mem_of_getElem? hrun)

/-- A heartbeat is appended. -/
theorem Lossless.heartbeat (h : Lossless sha256 s) (skipped : ℕ) (workerId : String)
    (observedAt : Option String) (snapshot : Option SourceCoverageSnapshot) :
    Lossless sha256 (coverageStep sha256 s (.heartbeat skipped workerId observedAt snapshot)) := by
  have hlast : s.lastHeartbeatId < s.lastHeartbeatId + 1 + skipped := by omega
  have hnew : ∀ row ∈ s.heartbeats ++ [⟨s.lastHeartbeatId + 1 + skipped, workerId, observedAt,
      snapshot⟩], row ∈ s.heartbeats ∨ row.id = s.lastHeartbeatId + 1 + skipped := by
    intro row hrow
    rcases List.mem_append.mp hrow with hold | hrow
    · exact .inl hold
    · exact .inr (by rw [List.mem_singleton.mp hrow])
  refine ⟨h.keys, h.keyed, ?_, fun row hrow => ?_, le_trans h.behind (Nat.le_of_lt hlast),
    fun row hrow hworker hid => ?_, fun run hrun => ?_⟩
  · refine List.pairwise_append.mpr ⟨h.increasing, List.pairwise_singleton _ _, ?_⟩
    intro row hrow added hadded
    rw [List.mem_singleton.mp hadded]
    exact lt_of_le_of_lt (h.last row hrow) hlast
  · show row.id ≤ s.lastHeartbeatId + 1 + skipped
    rcases hnew row hrow with hold | heq
    · exact le_trans (h.last row hold) (Nat.le_of_lt hlast)
    · exact le_of_eq heq
  · rcases hnew row hrow with hold | heq
    · exact h.archived row hold hworker hid
    · -- the checkpoint is not beyond the heartbeats there were
      have hbehind := h.behind
      have hid' : row.id ≤ checkpoint s.migration := hid
      omega
  · refine (h.runs run hrun).mono h (le_refl _) (Nat.le_of_lt hlast) fun row hrow => ?_
    rcases hnew row hrow with hold | heq
    · exact .inl hold
    · exact .inr (by omega)

/-- Rows are inserted: what was archived stays so. -/
theorem Archived.insert {table rows : List HistoryRow} {row : Heartbeat}
    (h : Archived sha256 table row) : Archived sha256 (insertMissingRows table rows).1 row :=
  fun snapshot hsnapshot lane hlane =>
    List.map_subset _ subset_insertMissingRows (h snapshot hsnapshot lane hlane)

/-- The rows of a heartbeat carry the keys of its lanes. -/
theorem archived_of_heartbeatRows {table rows : List HistoryRow} {row : Heartbeat}
    (h : heartbeatRows sha256 row ⊆ rows) :
    Archived sha256 (insertMissingRows table rows).1 row := by
  intro snapshot hsnapshot lane hlane
  have hrow : snapshotRow sha256 snapshot (row.observedAt.getD snapshot.observedAt) (some row.id)
      lane ∈ heartbeatRows sha256 row := by
    rw [heartbeatRows, hsnapshot]
    exact List.mem_map_of_mem hlane
  exact key_mem_insertMissingRows (h hrow)

theorem keyed_snapshotRows {snapshot : SourceCoverageSnapshot} {publishedAt : String}
    {heartbeatId : Option ℕ} {row : HistoryRow}
    (h : row ∈ snapshotRows sha256 snapshot publishedAt heartbeatId) :
    row.snapshotKey = snapshotKey sha256 row.snapshotObservedAt row.laneId := by
  obtain ⟨lane, -, rfl⟩ := List.mem_map.mp h
  rfl

/-- The live writer records a snapshot. -/
theorem Lossless.recordSnapshot (h : Lossless sha256 s) (snapshot : SourceCoverageSnapshot)
    (publishedAt : String) (heartbeatId : Option ℕ) :
    Lossless sha256
      (coverageStep sha256 s (.recordSnapshot snapshot publishedAt heartbeatId)) where
  keys := nodup_insertMissingRows h.keys
  keyed row hrow := by
    rcases mem_insertMissingRows hrow with hold | hnew
    · exact h.keyed row hold
    · exact keyed_snapshotRows hnew
  increasing := h.increasing
  last := h.last
  behind := h.behind
  archived row hrow hworker hid := (h.archived row hrow hworker hid).insert
  runs run hrun := (h.runs run hrun).mono h (le_refl _) (le_refl _) fun _ hrow => .inl hrow

/-- **A run commits.** What it stores is covered by its batch, or was covered before. -/
theorem Lossless.commit (h : Lossless sha256 s) {limit read : ℕ} {archive : List Heartbeat}
    (hrun : RunOk s (.readBatch limit read archive)) (now : String) :
    Lossless sha256 (commitBackfill sha256 s limit read archive now).1 := by
  obtain ⟨hread, hids, hbatch⟩ := hrun
  have hlatest : latestHeartbeatId read (archive.take limit) ≤ s.lastHeartbeatId :=
    latestHeartbeatId_le (le_trans hread h.behind)
      (fun row hrow => hids row (List.mem_of_mem_take hrow))
  have hcheckpoint : checkpoint (commitBackfill sha256 s limit read archive now).1.migration
      = max (checkpoint s.migration) (latestHeartbeatId read (archive.take limit)) :=
    checkpoint_upsert _ _
  refine ⟨nodup_insertMissingRows h.keys, fun row hrow => ?_, h.increasing, h.last, ?_,
    fun row hrow hworker hid => ?_, fun run hrun => ?_⟩
  · rcases mem_insertMissingRows hrow with hold | hnew
    · exact h.keyed row hold
    · obtain ⟨heartbeat, -, hmem⟩ := List.mem_flatMap.mp hnew
      rw [heartbeatRows] at hmem
      split at hmem
      · exact absurd hmem List.not_mem_nil
      · exact keyed_snapshotRows hmem
  · rw [hcheckpoint]
    exact max_le h.behind hlatest
  · rw [hcheckpoint] at hid
    rcases Nat.lt_or_ge (checkpoint s.migration) row.id with hafter | hbefore
    · -- behind the stored checkpoint, and so behind the one the run has read: in the batch
      have hid' : row.id ≤ latestHeartbeatId read (archive.take limit) := by omega
      have hmem := hbatch row hrow hworker (lt_of_le_of_lt hread hafter) hid'
      exact archived_of_heartbeatRows fun found hfound =>
        List.mem_flatMap.mpr ⟨row, hmem, hfound⟩
    · exact (h.archived row hrow hworker hbefore).insert
  · refine (h.runs run hrun).mono h ?_ (le_refl _) fun _ hrow => .inl hrow
    rw [hcheckpoint]
    exact le_max_left _ _

/-- **Lossless step.** A publisher and a starting run only add rows, the two reads only change
    the place of a run, and a commit adds the rows of the batch that the run has read. -/
theorem Lossless.step (h : Lossless sha256 s) (action : CoverageAction) :
    Lossless sha256 (coverageStep sha256 s action) := by
  cases action with
  | heartbeat skipped workerId observedAt snapshot =>
    exact h.heartbeat skipped workerId observedAt snapshot
  | recordSnapshot snapshot publishedAt heartbeatId =>
    exact h.recordSnapshot snapshot publishedAt heartbeatId
  -- a new run has promised nothing
  | start maxHeartbeats =>
    refine ⟨h.keys, h.keyed, h.increasing, h.last, h.behind, h.archived, fun run hrun => ?_⟩
    rcases List.mem_append.mp hrun with hold | hnew
    · exact (h.runs run hold).mono h (le_refl _) (le_refl _) fun _ hrow => .inl hrow
    · rw [List.mem_singleton.mp hnew]
      trivial
  | readCheckpoint i =>
    rw [coverageStep]
    split
    · next limit hrun =>
      exact h.setRun i (.readCheckpoint limit (checkpoint s.migration)) (le_refl _)
    · exact h
  -- the batch read from the archive follows the checkpoint without a gap
  | readBatch i =>
    rw [coverageStep]
    split
    · next limit read hrun =>
      refine h.setRun i _ ⟨h.run_of_getElem? hrun, fun row hrow => ?_,
        contiguous_archiveRows h.increasing⟩
      exact h.last row (archiveRows_subset _ _ _ hrow)
    · exact h
  | commit i now =>
    rw [coverageStep]
    split
    · next limit read archive hrun =>
      exact (h.commit (h.run_of_getElem? hrun) now).setRun i
        (.finished (commitBackfill sha256 s limit read archive now).2) trivial
    · exact h

theorem lossless_empty : Lossless sha256 .empty where
  keys := List.nodup_nil
  keyed _ h := absurd h List.not_mem_nil
  increasing := List.Pairwise.nil
  last _ h := absurd h List.not_mem_nil
  behind := le_refl _
  archived _ h := absurd h List.not_mem_nil
  runs _ h := absurd h List.not_mem_nil

/-- No action moves the checkpoint back. -/
theorem checkpoint_step (s : CoverageStore) (action : CoverageAction) :
    checkpoint s.migration ≤ checkpoint (coverageStep sha256 s action).migration := by
  cases action with
  | heartbeat skipped workerId observedAt snapshot => exact le_refl _
  | recordSnapshot snapshot publishedAt heartbeatId => exact le_refl _
  | start maxHeartbeats => exact le_refl _
  | readCheckpoint i | readBatch i => rw [coverageStep]; split <;> exact le_refl _
  | commit i now =>
    rw [coverageStep]
    split
    · exact le_of_le_of_eq (le_max_left _ _) (checkpoint_upsert _ _).symm
    · exact le_refl _

/-! ### Runs -/

/-- **The migration loses nothing and never rewinds.** Whatever the order in which heartbeats are
    appended, snapshots are recorded live and any number of backfill runs read and commit: no two
    rows of the history share a key and every row carries the key of its own snapshot and lane;
    the stored checkpoint never decreases from there on; and a valid heartbeat of the snapshot
    worker at or below the stored checkpoint has a row for each of its lanes. -/
theorem backfill_lossless (schedule : List CoverageAction) :
    let s := run (coverageStep sha256) .empty schedule
    (s.rows.map HistoryRow.snapshotKey).Nodup
    ∧ (∀ row ∈ s.rows,
        row.snapshotKey = snapshotKey sha256 row.snapshotObservedAt row.laneId)
    ∧ (∀ later, checkpoint s.migration
        ≤ checkpoint (run (coverageStep sha256) s later).migration)
    ∧ ∀ heartbeat ∈ s.heartbeats, heartbeat.workerId = sourceCoverageSnapshotWorkerId →
        heartbeat.id ≤ checkpoint s.migration →
        ∀ snapshot, heartbeat.snapshot = some snapshot → ∀ lane ∈ snapshot.lanes,
          ∃ row ∈ s.rows, row.snapshotKey = snapshotKey sha256 snapshot.observedAt lane.laneId := by
  intro s
  have hinv : Lossless sha256 s :=
    run_invariant (C := fun _ _ => True) (fun s action hs _ => hs.step action) lossless_empty
      (Meets.of_forall (fun _ _ => trivial) _ schedule)
  refine ⟨hinv.keys, hinv.keyed, fun later => ?_, fun heartbeat hmem hworker hid snapshot hsnapshot
    lane hlane => ?_⟩
  · exact run_invariant (C := fun _ _ => True)
      (I := fun t => checkpoint s.migration ≤ checkpoint t.migration)
      (fun t action ht _ => le_trans ht (checkpoint_step t action)) (le_refl _)
      (Meets.of_forall (fun _ _ => trivial) _ later)
  · obtain ⟨row, hrow, hkey⟩ := List.mem_map.mp
      (hinv.archived heartbeat hmem hworker hid snapshot hsnapshot lane hlane)
    exact ⟨row, hrow, hkey⟩

end InefficiencyEngine.Coverage
