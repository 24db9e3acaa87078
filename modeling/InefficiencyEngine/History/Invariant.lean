import InefficiencyEngine.History.Partitioned

namespace InefficiencyEngine.History

open Portfolio Durable

/-!
# What the manifest says of the files

`HistoryWorld.Sound` relates the two tables of the manifest to the files: every listed partition
has a file, which it describes, and the rows of `quote_lineage` are those of the listed files.

An operation writes files only on paths that are not listed, so nothing it does before its
commit can be seen; the commit of an append lists a finished file, that of a compaction replaces
partitions by one with the same rows.  `HistoryWorld.Safe` says this of a single write, with the
rows it adds, and `Safe.sound` is all that a crash needs: the invariant holds after every write.
-/

variable {R : HistoryRuntime} {w : HistoryWorld}

/-! ### Rows and their partition -/

/-- A row is in its group, and its columns are those of its quote. -/
structure HistoryRow.Belongs (R : HistoryRuntime) (key : GroupKey) (row : HistoryRow) : Prop where
  venue : row.venue = key.venue
  asset : key.asset = row.asset ∨ key.asset = multiAssetPartition
  day : utcDate row.observedAt = key.day
  quoteVenue : row.quote.venue = row.venue
  quoteAsset : R.upper row.quote.asset = row.asset
  quoteTime : row.quote.observedAt = row.observedAt

/-- A row of the manifest describes the rows of a file. -/
structure Partition.Describes (R : HistoryRuntime) (p : Partition) (rows : List HistoryRow) :
    Prop where
  visible : p.path.isHidden = false
  nonempty : rows ≠ []
  minimum : p.minObservedAt = earliest (rows.map HistoryRow.observedAt)
  maximum : p.maxObservedAt = latest (rows.map HistoryRow.observedAt)
  rowCount : p.rowCount = rows.length
  checksum : p.checksum = R.checksum rows
  belongs : ∀ row ∈ rows, row.Belongs R p.group

/-- What is said of a partition and a row, for every row of every listed partition. -/
def HistoryWorld.perRow {α : Type} (w : HistoryWorld) (f : Partition → HistoryRow → α) : List α :=
  w.manifest.partitions.flatMap (fun p => (w.rowsAt p).map (f p))

/-- The stored rows, each with its group: what the history holds. -/
def HistoryWorld.groupedRows (w : HistoryWorld) : List (GroupKey × HistoryRow) :=
  w.perRow (fun p row => (p.group, row))

/-- The invariant of a root. -/
structure HistoryWorld.Sound (R : HistoryRuntime) (w : HistoryWorld) : Prop where
  described : ∀ p ∈ w.manifest.partitions, ∃ rows, w.files p.path = some rows ∧ p.Describes R rows
  paths : (w.manifest.partitions.map Partition.path).Nodup
  lineages : w.manifest.lineages.Perm (w.perRow (fun p row => row.lineageRow p.path))
  lineageNodup : (w.groupedRows.map (fun item => item.2.lineage)).Nodup
  idNodup : (w.groupedRows.map (fun item => item.2.historyId)).Nodup

theorem HistoryWorld.sound_empty (R : HistoryRuntime) : HistoryWorld.empty.Sound R where
  described p hp := by cases hp
  paths := List.nodup_nil
  lineages := List.Perm.refl _
  lineageNodup := List.nodup_nil
  idNodup := List.nodup_nil

/-- The rows are those of the grouped rows. -/
theorem HistoryWorld.storedRows_eq (w : HistoryWorld) :
    w.storedRows = w.groupedRows.map Prod.snd := by
  simp [HistoryWorld.storedRows, HistoryWorld.groupedRows, HistoryWorld.perRow, List.map_flatMap,
    Function.comp_def]

/-- A row of a listed partition. -/
theorem HistoryWorld.mem_perRow {α : Type} {f : Partition → HistoryRow → α} {x : α} :
    x ∈ w.perRow f ↔ ∃ p ∈ w.manifest.partitions, ∃ row ∈ w.rowsAt p, f p row = x := by
  simp only [HistoryWorld.perRow, List.mem_flatMap, List.mem_map]

/-- The lineages of the table are those of the stored rows. -/
theorem HistoryWorld.Sound.stored_iff (h : w.Sound R) {lineage : String} :
    w.manifest.stored lineage ↔ ∃ item ∈ w.groupedRows, item.2.lineage = lineage := by
  have hperm := h.lineages.map LineageRow.lineage
  rw [Manifest.stored, hperm.mem_iff]
  constructor
  · intro hmem
    obtain ⟨entry, hentry, rfl⟩ := List.mem_map.mp hmem
    obtain ⟨p, hp, row, hrow, rfl⟩ := HistoryWorld.mem_perRow.mp hentry
    exact ⟨(p.group, row), HistoryWorld.mem_perRow.mpr ⟨p, hp, row, hrow, rfl⟩, rfl⟩
  · rintro ⟨item, hitem, rfl⟩
    obtain ⟨p, hp, row, hrow, rfl⟩ := HistoryWorld.mem_perRow.mp hitem
    exact List.mem_map.mpr ⟨row.lineageRow p.path,
      HistoryWorld.mem_perRow.mpr ⟨p, hp, row, hrow, rfl⟩, rfl⟩

/-- The rows of a listed partition are described by it. -/
theorem HistoryWorld.Sound.describes (h : w.Sound R) {p : Partition}
    (hp : p ∈ w.manifest.partitions) :
    w.files p.path = some (w.rowsAt p) ∧ p.Describes R (w.rowsAt p) := by
  obtain ⟨rows, hrows, hdescribes⟩ := h.described p hp
  have hrowsAt : w.rowsAt p = rows := by
    rw [HistoryWorld.rowsAt, hrows]
    rfl
  rw [hrowsAt]
  exact ⟨hrows, hdescribes⟩

/-- Elements that are filtered out contribute nothing. -/
theorem flatMap_filter {α β : Type} (keep : α → Bool) (f : α → List β) (xs : List α) :
    (xs.filter keep).flatMap f = xs.flatMap (fun x => if keep x then f x else []) := by
  induction xs with
  | nil => rfl
  | cons x rest ih =>
    by_cases hx : keep x = true
    · rw [List.filter_cons_of_pos hx, List.flatMap_cons, List.flatMap_cons, ih, if_pos hx]
    · rw [List.filter_cons_of_neg hx, List.flatMap_cons, ih, if_neg hx, List.nil_append]

/-! ### Safe writes -/

/-- A write that cannot damage the history, and the rows it adds; the paths it lists are drawn
    by operation `run`. -/
inductive HistoryWorld.Safe (R : HistoryRuntime) (run : ℕ) (w : HistoryWorld) :
    HistoryWrite → List (GroupKey × HistoryRow) → Prop
  | put (path : FilePath) (rows : List HistoryRow) (hpath : ¬ w.listed path) :
    Safe R run w (.put path rows) []
  | rename (source target : FilePath) (hsource : ¬ w.listed source) (htarget : ¬ w.listed target) :
    Safe R run w (.rename source target) []
  | unlink (path : FilePath) (hpath : ¬ w.listed path) : Safe R run w (.unlink path) []
  | clearGarbage (paths : List FilePath) : Safe R run w (.clearGarbage paths) []
  | insertPartition (p : Partition) (rows : List HistoryRow)
    (hname : ∃ i, p.path.name.uuid = R.uuid4 run i) (hpath : ¬ w.listed p.path)
    (hfile : w.files p.path = some rows) (hdescribes : p.Describes R rows)
    (hlineages : ((w.groupedRows ++ rows.map (Prod.mk p.group)).map
      (fun item => item.2.lineage)).Nodup)
    (hids : ((w.groupedRows ++ rows.map (Prod.mk p.group)).map
      (fun item => item.2.historyId)).Nodup) :
    Safe R run w (.insertPartition p (rows.map (·.lineageRow p.path)))
      (rows.map (Prod.mk p.group))
  | switchPartitions (p : Partition) (old : List FilePath) (rows : List HistoryRow)
    (hname : ∃ i, p.path.name.uuid = R.uuid4 run i) (hpath : ¬ w.listed p.path)
    (hold : p.path ∉ old) (hfile : w.files p.path = some rows) (hdescribes : p.Describes R rows)
    (hgroup : ∀ q ∈ w.manifest.partitions, q.path ∈ old → q.group = p.group)
    (hrows : ((w.manifest.partitions.filter (fun q => q.path ∈ old)).flatMap w.rowsAt).Perm rows) :
    Safe R run w (.switchPartitions p old) []

/-- Worlds that agree on the listed files hold the same. -/
theorem HistoryWorld.perRow_congr {α : Type} {w' : HistoryWorld} (f : Partition → HistoryRow → α)
    (hpartitions : w'.manifest.partitions = w.manifest.partitions)
    (hfiles : ∀ p ∈ w.manifest.partitions, w'.files p.path = w.files p.path) :
    w'.perRow f = w.perRow f := by
  rw [HistoryWorld.perRow, HistoryWorld.perRow, hpartitions]
  refine List.flatMap_congr (fun p hp => ?_)
  rw [HistoryWorld.rowsAt, HistoryWorld.rowsAt, hfiles p hp]

/-- Worlds that agree on the tables and on the listed files are equally sound. -/
theorem HistoryWorld.Sound.congr {w' : HistoryWorld} (h : w.Sound R)
    (hpartitions : w'.manifest.partitions = w.manifest.partitions)
    (hlineages : w'.manifest.lineages = w.manifest.lineages)
    (hfiles : ∀ p ∈ w.manifest.partitions, w'.files p.path = w.files p.path) :
    w'.Sound R ∧ w'.groupedRows = w.groupedRows := by
  have hrows : w'.groupedRows = w.groupedRows := HistoryWorld.perRow_congr _ hpartitions hfiles
  refine ⟨⟨?_, ?_, ?_, ?_, ?_⟩, hrows⟩
  · intro p hp
    rw [hpartitions] at hp
    rw [hfiles p hp]
    exact h.described p hp
  · rw [hpartitions]
    exact h.paths
  · rw [hlineages, HistoryWorld.perRow_congr _ hpartitions hfiles]
    exact h.lineages
  · rw [hrows]
    exact h.lineageNodup
  · rw [hrows]
    exact h.idNodup

/-- A file written on a path that is not listed is not the file of a partition. -/
theorem HistoryWorld.ne_of_not_listed {path : FilePath} (hpath : ¬ w.listed path) {p : Partition}
    (hp : p ∈ w.manifest.partitions) : p.path ≠ path :=
  fun heq => hpath ⟨p, hp, heq⟩

/-- What the rows of a manifest are after the commit of a compaction. The rows of the replaced
    partitions move to the new one, and those of the others stay where they are. -/
theorem HistoryWorld.perRow_switch {α : Type} {p : Partition} {old : List FilePath}
    {rows : List HistoryRow} {f g : Partition → HistoryRow → α} (hold : p.path ∉ old)
    (hfile : w.files p.path = some rows)
    (hrows : ((w.manifest.partitions.filter (fun q => q.path ∈ old)).flatMap w.rowsAt).Perm rows)
    (hg : ∀ q ∈ w.manifest.partitions, ∀ row,
      g q row = if q.path ∈ old then f p row else f q row) :
    (w.perRow g).Perm ((commit w (HistoryWrite.switchPartitions p old)).perRow f) := by
  -- the partitions are the replaced ones and the others
  have hsplit : (w.perRow g).Perm
      ((w.manifest.partitions.filter (fun q => q.path ∈ old)).flatMap
          (fun q => (w.rowsAt q).map (g q))
        ++ (w.manifest.partitions.filter (fun q => ¬ q.path ∈ old)).flatMap
          (fun q => (w.rowsAt q).map (g q))) := by
    rw [← List.flatMap_append]
    refine List.Perm.flatMap_right _ ?_
    simpa using (List.filter_append_perm (fun q : Partition => decide (q.path ∈ old))
      w.manifest.partitions).symm
  -- the rows of the replaced ones are those of the new file
  have hmoved : ((w.manifest.partitions.filter (fun q => q.path ∈ old)).flatMap
      (fun q => (w.rowsAt q).map (g q))).Perm (rows.map (f p)) := by
    have heq : (w.manifest.partitions.filter (fun q => q.path ∈ old)).flatMap
          (fun q => (w.rowsAt q).map (g q))
        = ((w.manifest.partitions.filter (fun q => q.path ∈ old)).flatMap w.rowsAt).map (f p) := by
      rw [List.map_flatMap]
      refine List.flatMap_congr (fun q hq => List.map_congr_left (fun row _ => ?_))
      obtain ⟨hq, hmem⟩ := List.mem_filter.mp hq
      rw [hg q hq row, if_pos (by simpa using hmem)]
    rw [heq]
    exact hrows.map _
  -- the others keep their own rows
  have hkept : (w.manifest.partitions.filter (fun q => ¬ q.path ∈ old)).flatMap
        (fun q => (w.rowsAt q).map (g q))
      = (w.manifest.partitions.filter (fun q => ¬ q.path ∈ old)).flatMap
        (fun q => (w.rowsAt q).map (f q)) := by
    refine List.flatMap_congr (fun q hq => List.map_congr_left (fun row _ => ?_))
    obtain ⟨hq, hmem⟩ := List.mem_filter.mp hq
    rw [hg q hq row, if_neg (by simpa using hmem)]
  -- after the commit the new partition comes last
  have hafter : (commit w (HistoryWrite.switchPartitions p old)).perRow f
      = (w.manifest.partitions.filter (fun q => ¬ q.path ∈ old)).flatMap
          (fun q => (w.rowsAt q).map (f q)) ++ rows.map (f p) := by
    have hnew : [p].filter (fun q => q.path ∉ old) = [p] := by simp [hold]
    show ((w.manifest.partitions ++ [p]).filter (fun q => q.path ∉ old)).flatMap
      (fun q => (w.rowsAt q).map (f q)) = _
    rw [List.filter_append, hnew, List.flatMap_append, List.flatMap_singleton,
      HistoryWorld.rowsAt, hfile]
    rfl
  rw [hafter, ← hkept]
  exact hsplit.trans ((hmoved.append_right _).trans List.perm_append_comm)

/-- Worlds that hold the same hold nothing more. -/
theorem HistoryWorld.Sound.quiet {w' : HistoryWorld} (h : w.Sound R)
    (hpartitions : w'.manifest.partitions = w.manifest.partitions)
    (hlineages : w'.manifest.lineages = w.manifest.lineages)
    (hfiles : ∀ p ∈ w.manifest.partitions, w'.files p.path = w.files p.path) :
    w'.Sound R ∧ w'.groupedRows.Perm (w.groupedRows ++ []) := by
  obtain ⟨hsound, hrows⟩ := h.congr hpartitions hlineages hfiles
  rw [List.append_nil, hrows]
  exact ⟨hsound, List.Perm.refl _⟩

/-- A path that is not listed can be added to those that are. -/
theorem HistoryWorld.Sound.nodup_paths_append (h : w.Sound R) {p : Partition}
    (hpath : ¬ w.listed p.path) :
    ((w.manifest.partitions ++ [p]).map Partition.path).Nodup := by
  rw [List.map_append]
  refine h.paths.append (List.nodup_singleton _) ?_
  rw [List.map_singleton, List.disjoint_singleton]
  intro hmem
  obtain ⟨q, hq, heq⟩ := List.mem_map.mp hmem
  exact hpath ⟨q, hq, heq⟩

/-- **Insertion.** A new partition over a file with its rows, none of which the history holds yet,
    adds these rows. -/
theorem HistoryWorld.Sound.insertPartition (h : w.Sound R) {p : Partition}
    {rows : List HistoryRow} (hpath : ¬ w.listed p.path) (hfile : w.files p.path = some rows)
    (hdescribes : p.Describes R rows)
    (hlineages : ((w.groupedRows ++ rows.map (Prod.mk p.group)).map
      (fun item => item.2.lineage)).Nodup)
    (hids : ((w.groupedRows ++ rows.map (Prod.mk p.group)).map
      (fun item => item.2.historyId)).Nodup) :
    (commit w (HistoryWrite.insertPartition p (rows.map (·.lineageRow p.path)))
        : HistoryWorld).Sound R
      ∧ (commit w (HistoryWrite.insertPartition p (rows.map (·.lineageRow p.path)))
        : HistoryWorld).groupedRows.Perm (w.groupedRows ++ rows.map (Prod.mk p.group)) := by
  -- per row, the new partition adds its own rows at the end
  have hafter : ∀ {α : Type} (f : Partition → HistoryRow → α),
      (commit w (HistoryWrite.insertPartition p (rows.map (·.lineageRow p.path)))
        : HistoryWorld).perRow f = w.perRow f ++ rows.map (f p) := by
    intro α f
    show (w.manifest.partitions ++ [p]).flatMap (fun q => (w.rowsAt q).map (f q)) = _
    rw [List.flatMap_append, List.flatMap_singleton, HistoryWorld.rowsAt, hfile]
    rfl
  have hrows : (commit w (HistoryWrite.insertPartition p (rows.map (·.lineageRow p.path)))
      : HistoryWorld).groupedRows = w.groupedRows ++ rows.map (Prod.mk p.group) := hafter _
  refine ⟨⟨?_, h.nodup_paths_append hpath, ?_, ?_, ?_⟩, List.Perm.of_eq hrows⟩
  -- an old partition is described as before, the new one by what it was built from
  · intro q hq
    rcases List.mem_append.mp hq with hq | hq
    · exact h.described q hq
    · rw [List.mem_singleton.mp hq]
      exact ⟨rows, hfile, hdescribes⟩
  · rw [hafter]
    exact h.lineages.append_right _
  · rw [hrows]
    exact hlineages
  · rw [hrows]
    exact hids

/-- **Compaction.** A partition over a file with the rows of some others of its group, which it
    takes the place of, leaves the rows of the history as they are. -/
theorem HistoryWorld.Sound.switchPartitions (h : w.Sound R) {p : Partition} {old : List FilePath}
    {rows : List HistoryRow} (hpath : ¬ w.listed p.path) (hold : p.path ∉ old)
    (hfile : w.files p.path = some rows) (hdescribes : p.Describes R rows)
    (hgroup : ∀ q ∈ w.manifest.partitions, q.path ∈ old → q.group = p.group)
    (hrows : ((w.manifest.partitions.filter (fun q => q.path ∈ old)).flatMap w.rowsAt).Perm rows) :
    (commit w (HistoryWrite.switchPartitions p old) : HistoryWorld).Sound R
      ∧ (commit w (HistoryWrite.switchPartitions p old) : HistoryWorld).groupedRows.Perm
        (w.groupedRows ++ []) := by
  have hgrouped : w.groupedRows.Perm
      (commit w (HistoryWrite.switchPartitions p old) : HistoryWorld).groupedRows := by
    refine HistoryWorld.perRow_switch hold hfile hrows (fun q hq row => ?_)
    by_cases hmem : q.path ∈ old
    · rw [if_pos hmem, hgroup q hq hmem]
    · rw [if_neg hmem]
  refine ⟨⟨?_, ?_, ?_, ?_, ?_⟩, ?_⟩
  · intro q hq
    have hq : q ∈ w.manifest.partitions ++ [p] := List.mem_of_mem_filter hq
    rcases List.mem_append.mp hq with hq | hq
    · exact h.described q hq
    · rw [List.mem_singleton.mp hq]
      exact ⟨rows, hfile, hdescribes⟩
  · exact (h.nodup_paths_append hpath).sublist (List.filter_sublist.map _)
  · -- the rows of the old partitions now point at the new one
    have hmoved := h.lineages.map (fun row : LineageRow =>
      if row.path ∈ old then { row with path := p.path } else row)
    refine hmoved.trans ?_
    have hmap : (w.perRow (fun p row => row.lineageRow p.path)).map (fun row : LineageRow =>
          if row.path ∈ old then { row with path := p.path } else row)
        = w.perRow (fun q row => if q.path ∈ old then row.lineageRow p.path
            else row.lineageRow q.path) := by
      simp only [HistoryWorld.perRow, List.map_flatMap, List.map_map]
      rfl
    rw [hmap]
    exact HistoryWorld.perRow_switch hold hfile hrows (fun q _ row => rfl)
  · exact (hgrouped.map _).nodup_iff.mp h.lineageNodup
  · exact (hgrouped.map _).nodup_iff.mp h.idNodup
  · rw [List.append_nil]
    exact hgrouped.symm

/-- **Safe writes.** A safe write keeps the invariant, and the history then holds the rows it
    adds besides what it held. -/
theorem HistoryWorld.Safe.sound {run : ℕ} {write : HistoryWrite}
    {added : List (GroupKey × HistoryRow)} (hsafe : w.Safe R run write added) (h : w.Sound R) :
    (commit w write : HistoryWorld).Sound R
      ∧ (commit w write : HistoryWorld).groupedRows.Perm (w.groupedRows ++ added) := by
  cases hsafe with
  -- the first four leave the tables and the listed files alone
  | put path rows hpath =>
    refine h.quiet rfl rfl (fun p hp => ?_)
    exact Function.update_of_ne (HistoryWorld.ne_of_not_listed hpath hp) _ _
  | rename source target hsource htarget =>
    refine h.quiet rfl rfl (fun p hp => ?_)
    show Function.update (Function.update w.files target _) source none p.path = _
    rw [Function.update_of_ne (HistoryWorld.ne_of_not_listed hsource hp),
      Function.update_of_ne (HistoryWorld.ne_of_not_listed htarget hp)]
  | unlink path hpath =>
    refine h.quiet rfl rfl (fun p hp => ?_)
    exact Function.update_of_ne (HistoryWorld.ne_of_not_listed hpath hp) _ _
  | clearGarbage paths => exact h.quiet rfl rfl (fun _ _ => rfl)
  | insertPartition p rows hname hpath hfile hdescribes hlineages hids =>
    exact h.insertPartition hpath hfile hdescribes hlineages hids
  | switchPartitions p old rows hname hpath hold hfile hdescribes hgroup hrows =>
    exact h.switchPartitions hpath hold hfile hdescribes hgroup hrows

end InefficiencyEngine.History
