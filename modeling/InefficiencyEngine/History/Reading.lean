import InefficiencyEngine.History.Invariant

namespace InefficiencyEngine.History

open Portfolio Durable

/-!
# Reading a history: `range` and `inventory`

Both classes read the same manifest.  `range` selects partitions in SQL and rows in the files;
`inventory` checks every listed file against the manifest.  They differ in what they take the
asset of a partition for: the fine class expects the asset of its rows, the coarse class also the
sentinel of a partition with many assets.

On a sound root each class returns what the rows of the listed files say, provided that it is the
coarse one or no partition has the sentinel.
-/

/-! ### Ranges -/

/-- The arguments of `range`; no venue or no asset selects all of them. -/
structure HistoryWindow where
  start : Instant
  stop : Instant
  venues : List String
  assets : List String

section Range

variable (R : HistoryRuntime) (layout : Layout) (window : HistoryWindow)

/-- The upper-case assets of the filter. -/
def HistoryWindow.normalizedAssets : List String := window.assets.map R.upper

/-- The `WHERE` clause of `range`. -/
def Layout.selects (p : Partition) : Bool :=
  window.start ≤ p.maxObservedAt && p.minObservedAt ≤ window.stop
    && (window.venues.isEmpty || p.group.venue ∈ window.venues)
    && (window.assets.isEmpty
      || (match layout with
          | .fine => p.group.asset ∈ window.normalizedAssets R
          | .coarse => p.group.asset = multiAssetPartition
              ∨ p.group.asset ∈ window.normalizedAssets R))

/-- The filter of `range` on the rows of a file. -/
def Layout.admits (row : HistoryRow) : Bool :=
  window.start ≤ row.observedAt && row.observedAt ≤ window.stop
    && (match layout with
        | .fine => true
        | .coarse => window.assets.isEmpty || R.upper row.quote.asset ∈ window.normalizedAssets R)

/-- The rows `range` reads from a path; a missing or hidden file is skipped. -/
def visibleRows (files : FilePath → Option (List HistoryRow)) (p : Partition) : List HistoryRow :=
  if p.path.isHidden then [] else (files p.path).getD []

/-- The rows of a range over some partitions, by lineage, when `read` is what the files give. -/
def Layout.collected (partitions : List Partition) (read : Partition → List HistoryRow) :
    List HistoryRow :=
  (Dict.collect HistoryRow.lineage
    (((partitions.filter (layout.selects R window)).flatMap read).filter
      (layout.admits R window))).values

/-- The order of a result: by observation time, then by history id. -/
def HistoryRow.ranksBefore (a b : HistoryRow) : Prop :=
  a.quote.observedAt < b.quote.observedAt
    ∨ (a.quote.observedAt = b.quote.observedAt ∧ a.historyId ≤ b.historyId)

instance : DecidableRel HistoryRow.ranksBefore := fun a b =>
  inferInstanceAs (Decidable (a.quote.observedAt < b.quote.observedAt
    ∨ (a.quote.observedAt = b.quote.observedAt ∧ a.historyId ≤ b.historyId)))

/-- The rows `range` returns the quotes of, when `read` is what the files give. -/
def Layout.rangeRows (partitions : List Partition) (read : Partition → List HistoryRow) :
    List HistoryRow :=
  (layout.collected R window partitions read).insertionSort HistoryRow.ranksBefore

/-- `range`. -/
def Layout.range (w : HistoryWorld) : List QuoteRecord :=
  (layout.rangeRows R window w.manifest.partitions (visibleRows w.files)).map HistoryRow.quote

/-- What the caller asks of a quote. -/
def HistoryWindow.Matches (quote : QuoteRecord) : Prop :=
  window.start ≤ quote.observedAt ∧ quote.observedAt ≤ window.stop
    ∧ (window.venues = [] ∨ quote.venue ∈ window.venues)
    ∧ (window.assets = [] ∨ R.upper quote.asset ∈ window.normalizedAssets R)

instance (quote : QuoteRecord) : Decidable (window.Matches R quote) :=
  inferInstanceAs (Decidable (_ ∧ _))

end Range

/-! ### Inventories -/

/-- The dictionary `inventory` returns. -/
structure MarketInventory where
  errors : List String
  partitionCount : ℕ
  rowCount : ℕ
  lineageCount : ℕ
  lineageDigest : String
  minObservedAt : Option Instant
  maxObservedAt : Option Instant
  identities : List String

/-- `valid`. -/
def MarketInventory.valid (inventory : MarketInventory) : Bool := inventory.errors.isEmpty

section Inventory

variable (R : HistoryRuntime) (layout : Layout)

/-- The rows of a file have the venue and the asset the class expects. -/
def Layout.identifies (p : Partition) (rows : List HistoryRow) : Bool :=
  rows.all (fun row => row.venue = p.group.venue)
    && (match layout with
        | .fine => rows.all (fun row => row.asset = p.group.asset)
        | .coarse => p.group.asset = multiAssetPartition
            || rows.all (fun row => R.upper row.asset = R.upper p.group.asset))

/-- What `inventory` finds wrong with a partition. A hidden path is never found, and without
    verification a file that exists is taken as it is. -/
def Layout.partitionError? (verifyFiles : Bool) (w : HistoryWorld) (p : Partition) :
    Option String :=
  match if p.path.isHidden then none else w.files p.path with
  | none => some ("partition_missing:" ++ R.pathText p.path)
  | some rows =>
    if ¬ verifyFiles then
      none
    else if R.checksum rows ≠ p.checksum then
      some ("checksum_mismatch:" ++ R.pathText p.path)
    else if rows.length ≠ p.rowCount then
      some ("row_count_mismatch:" ++ R.pathText p.path)
    else if rows = [] ∨ earliest (rows.map HistoryRow.observedAt) ≠ p.minObservedAt
        ∨ latest (rows.map HistoryRow.observedAt) ≠ p.maxObservedAt then
      some ("observed_range_mismatch:" ++ R.pathText p.path)
    else if ¬ layout.identifies R p rows then
      some ("partition_identity_mismatch:" ++ R.pathText p.path)
    else if rows.any (fun row => utcDate row.observedAt ≠ p.group.day) then
      some ("partition_day_mismatch:" ++ R.pathText p.path)
    else
      none

/-- The rows of the files that `inventory` has verified, each with its partition. -/
def Layout.verified (verifyFiles : Bool) (w : HistoryWorld) : List (Partition × HistoryRow) :=
  if verifyFiles then
    (w.manifest.partitions.filter
      (fun p => layout.partitionError? R verifyFiles w p = none)).flatMap
        (fun p => (w.rowsAt p).map (Prod.mk p))
  else
    []

/-- The stream of a verified row. -/
def Layout.stream (item : Partition × HistoryRow) : String × String :=
  (item.1.group.venue,
    match layout with
    | .fine => R.upper item.1.group.asset
    | .coarse => R.upper item.2.asset)

/-- `inventory`. The report on the manifest. With `verify_files` every file is read and compared
    with its partition, and the lineages of the files with those of the manifest. -/
def Layout.inventory (verifyFiles : Bool) (w : HistoryWorld) : MarketInventory :=
  let partitions := w.manifest.partitions.insertionSort
    (fun a b => R.pathText a.path ≤ R.pathText b.path)
  let manifestLineages := w.manifest.lineages.map LineageRow.lineage
  let verified := layout.verified R verifyFiles w
  let physicalLineages := verified.map (fun item => item.2.lineage)
  let times := verified.map (fun item => item.2.observedAt)
  { errors := partitions.filterMap (layout.partitionError? R verifyFiles w)
      ++ (if verifyFiles ∧ ¬ (physicalLineages ⊆ manifestLineages
            ∧ manifestLineages ⊆ physicalLineages) then
          ["lineage_manifest_mismatch"]
        else [])
      ++ (if w.manifest.lineages.map LineageRow.path
            ⊆ w.manifest.partitions.map Partition.path then
          []
        else ["lineage_partition_reference_missing"])
    partitionCount := partitions.length
    rowCount := if verifyFiles then verified.length else w.manifest.lineages.length
    lineageCount := manifestLineages.dedup.length
    lineageDigest := R.lineageDigest (manifestLineages.dedup.insertionSort (· ≤ ·))
    minObservedAt := times.min?
    maxObservedAt := times.max?
    identities := ((verified.map (layout.stream R)).dedup.map
      (fun stream => stream.1 ++ "|" ++ stream.2)).insertionSort (· ≤ ·) }

end Inventory

/-! ### What is read on a sound root -/

section Sound

variable {R : HistoryRuntime} {layout : Layout} {window : HistoryWindow} {w : HistoryWorld}

/-- The class understands the asset of every listed partition. -/
def Layout.Understands (layout : Layout) (w : HistoryWorld) : Prop :=
  layout = .coarse ∨ ∀ p ∈ w.manifest.partitions, p.group.asset ≠ multiAssetPartition

/-- The rows of a partition lie between its times. -/
theorem Partition.Describes.observedAt_mem {p : Partition} {rows : List HistoryRow}
    (h : p.Describes R rows) {row : HistoryRow} (hrow : row ∈ rows) :
    p.minObservedAt ≤ row.observedAt ∧ row.observedAt ≤ p.maxObservedAt := by
  have hne : rows.map HistoryRow.observedAt ≠ [] := by simpa using h.nonempty
  have hmem : row.observedAt ∈ rows.map HistoryRow.observedAt := List.mem_map_of_mem hrow
  rw [h.minimum, h.maximum]
  exact ⟨(isLeast_earliest hne).2 hmem, (isGreatest_latest hne).2 hmem⟩

/-- The times of a described partition are those of its rows. -/
theorem Partition.Describes.not_range_mismatch {p : Partition} {rows : List HistoryRow}
    (h : p.Describes R rows) :
    ¬ (rows = [] ∨ earliest (rows.map HistoryRow.observedAt) ≠ p.minObservedAt
      ∨ latest (rows.map HistoryRow.observedAt) ≠ p.maxObservedAt) := by
  rw [not_or, not_or, not_not, not_not]
  exact ⟨h.nonempty, h.minimum.symm, h.maximum.symm⟩

variable (window) in
/-- For the rows of a described partition, the two filters of `range` are what was asked. The
    first filter compares the bounds of the partition with the window, and no row of the
    partition lies outside its bounds, so it drops nothing that matches. -/
theorem Partition.Describes.selects_and_admits {p : Partition} {rows : List HistoryRow}
    (h : p.Describes R rows) (hasset : layout = .coarse ∨ p.group.asset ≠ multiAssetPartition)
    {row : HistoryRow} (hrow : row ∈ rows) :
    (layout.selects R window p = true ∧ layout.admits R window row = true)
      ↔ window.Matches R row.quote := by
  obtain ⟨hmin, hmax⟩ := h.observedAt_mem hrow
  have hbelongs := h.belongs row hrow
  have hvenue : p.group.venue = row.quote.venue := by
    rw [hbelongs.quoteVenue, hbelongs.venue]
  rw [HistoryWindow.Matches, hbelongs.quoteTime, ← hvenue]
  cases layout with
  -- the fine class filters the assets by the group of the partition
  | fine =>
    have hne : p.group.asset ≠ multiAssetPartition := by
      rcases hasset with hcoarse | hne
      · cases hcoarse
      · exact hne
    have hrowAsset : R.upper row.quote.asset = p.group.asset := by
      rcases hbelongs.asset with heq | heq
      · rw [hbelongs.quoteAsset, heq]
      · exact absurd heq hne
    rw [hrowAsset]
    simp only [Layout.selects, Layout.admits, Bool.and_eq_true, Bool.or_eq_true,
      decide_eq_true_eq, List.isEmpty_iff, Bool.and_true]
    constructor
    · rintro ⟨⟨⟨-, hvenues⟩, hassets⟩, hstart, hstop⟩
      exact ⟨hstart, hstop, hvenues, hassets⟩
    · rintro ⟨hstart, hstop, hvenues, hassets⟩
      exact ⟨⟨⟨⟨hstart.trans hmax, hmin.trans hstop⟩, hvenues⟩, hassets⟩, hstart, hstop⟩
  -- the coarse one by the asset of each row
  | coarse =>
    simp only [Layout.selects, Layout.admits, Bool.and_eq_true, Bool.or_eq_true,
      decide_eq_true_eq, List.isEmpty_iff]
    constructor
    · rintro ⟨⟨⟨-, hvenues⟩, -⟩, ⟨hstart, hstop⟩, hassets⟩
      exact ⟨hstart, hstop, hvenues, hassets⟩
    · rintro ⟨hstart, hstop, hvenues, hassets⟩
      refine ⟨⟨⟨⟨hstart.trans hmax, hmin.trans hstop⟩, hvenues⟩, ?_⟩, ⟨hstart, hstop⟩, hassets⟩
      rcases hbelongs.asset with heq | heq
      · rw [heq, ← hbelongs.quoteAsset]
        exact hassets.imp id Or.inr
      · exact Or.inr (Or.inl heq)

/-- The rows a range collects are the stored rows that match. -/
theorem collected_eq (h : w.Sound R) (hlayout : layout.Understands w) :
    ((w.manifest.partitions.filter (layout.selects R window)).flatMap
        (visibleRows w.files)).filter (layout.admits R window)
      = w.storedRows.filter (fun row => window.Matches R row.quote) := by
  rw [HistoryWorld.storedRows, List.filter_flatMap, List.filter_flatMap, flatMap_filter]
  refine List.flatMap_congr (fun p hp => ?_)
  obtain ⟨hfile, hdescribes⟩ := h.describes hp
  have hrows : visibleRows w.files p = w.rowsAt p := by
    rw [visibleRows, hdescribes.visible, hfile]
    rfl
  have hasset : layout = .coarse ∨ p.group.asset ≠ multiAssetPartition :=
    hlayout.imp id (fun hnone => hnone p hp)
  rw [hrows]
  by_cases hselects : layout.selects R window p = true
  · rw [if_pos hselects]
    refine List.filter_congr (fun row hrow => ?_)
    have hiff := hdescribes.selects_and_admits window hasset hrow
    rw [Bool.eq_iff_iff, decide_eq_true_iff, ← hiff]
    exact ⟨fun hadmits => ⟨hselects, hadmits⟩, fun hboth => hboth.2⟩
  · rw [if_neg hselects]
    refine (List.filter_eq_nil_iff.mpr (fun row hrow hmatches => hselects ?_)).symm
    rw [decide_eq_true_iff] at hmatches
    exact ((hdescribes.selects_and_admits window hasset hrow).mpr hmatches).1

/-- **Ranges are exact.** Each class that understands the partitions returns the stored quotes
    that match, each once. -/
theorem HistoryWorld.Sound.range_perm (h : w.Sound R) (hlayout : layout.Understands w)
    (window : HistoryWindow) :
    (layout.range R window w).Perm
      ((w.storedRows.filter (fun row => window.Matches R row.quote)).map HistoryRow.quote) := by
  have hnodup : ((w.storedRows.filter (fun row => window.Matches R row.quote)).map
      HistoryRow.lineage).Nodup := by
    have hall : (w.storedRows.map HistoryRow.lineage).Nodup := by
      rw [w.storedRows_eq, List.map_map]
      exact h.lineageNodup
    exact hall.sublist (List.filter_sublist.map _)
  rw [Layout.range, Layout.rangeRows, Layout.collected, collected_eq h hlayout,
    Dict.values_collect_of_nodup hnodup]
  exact (List.perm_insertionSort _ _).map _

/-- A file of a sound root passes the checks of a class that understands its partition. The row
    times, the venue and the day are checked alike by both classes, and the asset is where they
    differ: the fine class wants it in every row, the coarse one accepts the sentinel. -/
theorem HistoryWorld.Sound.partitionError?_eq_none (h : w.Sound R) {p : Partition}
    (hp : p ∈ w.manifest.partitions)
    (hasset : layout = .coarse ∨ p.group.asset ≠ multiAssetPartition) (verifyFiles : Bool) :
    layout.partitionError? R verifyFiles w p = none := by
  obtain ⟨hfile, hdescribes⟩ := h.describes hp
  have hvenue : (w.rowsAt p).all (fun row => row.venue = p.group.venue) = true :=
    List.all_eq_true.mpr (fun row hrow => decide_eq_true (hdescribes.belongs row hrow).venue)
  -- the rows carry the venue and the asset that the partition claims
  have hidentifies : layout.identifies R p (w.rowsAt p) = true := by
    unfold Layout.identifies
    rw [hvenue, Bool.true_and]
    cases layout with
    | fine =>
      refine List.all_eq_true.mpr (fun row hrow => decide_eq_true ?_)
      rcases (hdescribes.belongs row hrow).asset with heq | heq
      · exact heq.symm
      · exact absurd heq (hasset.resolve_left (by simp))
    | coarse =>
      by_cases hmulti : p.group.asset = multiAssetPartition
      · simp [hmulti]
      · have hall : (w.rowsAt p).all (fun row => R.upper row.asset = R.upper p.group.asset)
            = true := by
          refine List.all_eq_true.mpr (fun row hrow => decide_eq_true ?_)
          rw [(hdescribes.belongs row hrow).asset.resolve_right hmulti]
        simp only [hall, Bool.or_true]
  -- and the day
  have hday : (w.rowsAt p).any (fun row => utcDate row.observedAt ≠ p.group.day) = false := by
    refine List.any_eq_false.mpr (fun row hrow => ?_)
    simpa using (hdescribes.belongs row hrow).day
  rw [Layout.partitionError?, hdescribes.visible, if_neg (by simp), hfile]
  dsimp only
  by_cases hverify : verifyFiles = true
  · rw [if_neg (not_not.mpr hverify), if_neg (not_not.mpr hdescribes.checksum.symm),
      if_neg (not_not.mpr hdescribes.rowCount.symm), if_neg hdescribes.not_range_mismatch,
      if_neg (not_not.mpr hidentifies), hday, if_neg (by simp)]
  · rw [if_pos hverify]

/-- A class that understands the partitions verifies all rows. -/
theorem verified_eq (h : w.Sound R) (hlayout : layout.Understands w) :
    layout.verified R true w = w.perRow Prod.mk := by
  rw [Layout.verified, if_pos rfl, HistoryWorld.perRow, List.filter_eq_self.mpr]
  intro p hp
  exact decide_eq_true (h.partitionError?_eq_none hp (hlayout.imp id (fun hnone => hnone p hp)) _)

/-- **Inventories are valid.** A sound root, each of whose partitions the class understands, has
    nothing to report. -/
theorem HistoryWorld.Sound.inventory_valid (h : w.Sound R) (hlayout : layout.Understands w)
    (verifyFiles : Bool) : (layout.inventory R verifyFiles w).valid = true := by
  -- no partition is reported: its file is there and described by it
  have hfiles : (w.manifest.partitions.insertionSort
      (fun a b => R.pathText a.path ≤ R.pathText b.path)).filterMap
        (layout.partitionError? R verifyFiles w) = [] := by
    refine List.filterMap_eq_nil_iff.mpr (fun p hp => ?_)
    have hp : p ∈ w.manifest.partitions := List.mem_insertionSort _ |>.mp hp
    exact h.partitionError?_eq_none hp (hlayout.imp id (fun hnone => hnone p hp)) _
  -- the lineages of the files are those of the table
  have hlineages : verifyFiles = true →
      ((layout.verified R verifyFiles w).map (fun item => item.2.lineage)).Perm
        (w.manifest.lineages.map LineageRow.lineage) := by
    rintro rfl
    rw [verified_eq h hlayout]
    refine List.Perm.trans (List.Perm.of_eq ?_) (h.lineages.map LineageRow.lineage).symm
    simp [HistoryWorld.perRow, List.map_flatMap, Function.comp_def, HistoryRow.lineageRow]
  -- and each of them points at a partition of the table
  have hpaths : w.manifest.lineages.map LineageRow.path
      ⊆ w.manifest.partitions.map Partition.path := by
    intro path hpath
    obtain ⟨entry, hentry, rfl⟩ := List.mem_map.mp hpath
    obtain ⟨p, hp, row, -, rfl⟩ := HistoryWorld.mem_perRow.mp (h.lineages.mem_iff.mp hentry)
    exact List.mem_map_of_mem hp
  rw [MarketInventory.valid, List.isEmpty_iff]
  show _ ++ _ ++ _ = []
  rw [hfiles, if_pos hpaths, if_neg]
  · rfl
  · rintro ⟨hverify, hneg⟩
    exact hneg ⟨(hlineages hverify).subset, (hlineages hverify).symm.subset⟩

/-- The fine class reports every partition with the sentinel. -/
theorem HistoryWorld.Sound.inventory_invalid (h : w.Sound R) {p : Partition}
    (hp : p ∈ w.manifest.partitions) (hmulti : p.group.asset = multiAssetPartition) :
    (Layout.fine.inventory R true w).valid = false := by
  -- the file has a row, and its asset is not the sentinel
  obtain ⟨hfile, hdescribes⟩ := h.describes hp
  have hidentifies : Layout.fine.identifies R p (w.rowsAt p) = false := by
    obtain ⟨row, hrow⟩ := List.exists_mem_of_ne_nil _ hdescribes.nonempty
    have hne : row.asset ≠ p.group.asset := by
      rw [hmulti, ← (hdescribes.belongs row hrow).quoteAsset]
      exact R.upper_ne_multiAsset _
    have hall : (w.rowsAt p).all (fun row => row.asset = p.group.asset) = false := by
      refine List.all_eq_false.mpr ⟨row, hrow, ?_⟩
      simpa using hne
    show (_ && (w.rowsAt p).all (fun row => row.asset = p.group.asset)) = false
    rw [hall, Bool.and_false]
  -- so the identity check is the one that fails
  have herror : Layout.fine.partitionError? R true w p
      = some ("partition_identity_mismatch:" ++ R.pathText p.path) := by
    rw [Layout.partitionError?, hdescribes.visible, if_neg (by simp), hfile]
    dsimp only
    rw [if_neg (by simp), if_neg (not_not.mpr hdescribes.checksum.symm),
      if_neg (not_not.mpr hdescribes.rowCount.symm), if_neg hdescribes.not_range_mismatch,
      hidentifies, if_pos (by simp)]
  have hmem : "partition_identity_mismatch:" ++ R.pathText p.path
      ∈ (Layout.fine.inventory R true w).errors := by
    refine List.mem_append_left _ (List.mem_append_left _ (List.mem_filterMap.mpr ⟨p, ?_, herror⟩))
    exact (List.mem_insertionSort _).mpr hp
  rw [MarketInventory.valid, ← Bool.not_eq_true, List.isEmpty_iff]
  exact List.ne_nil_of_mem hmem

end Sound

end InefficiencyEngine.History
