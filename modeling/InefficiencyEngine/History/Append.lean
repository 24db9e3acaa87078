import InefficiencyEngine.History.Operations

namespace InefficiencyEngine.History

open Portfolio Durable Prog

/-!
# What an append adds

An append stores one row for each lineage of its records that is not stored yet: the records of
a group are indexed by lineage, those that are stored are left out, and the rest get history ids
no stored row has.  So the lineages and the ids stay pairwise distinct, and the number an append
returns is the number of rows it added.
-/

variable {R : HistoryRuntime} {op : Operation} {layout : Layout}

/-! ### The accepted records -/

section Accepted

variable {manifest : Manifest} {records : List HistoryRecord}

theorem Manifest.mem_accepted {record : HistoryRecord} :
    record ∈ manifest.accepted records
      ↔ record ∈ candidates records ∧ ¬ manifest.stored record.lineage := by
  rw [Manifest.accepted, List.mem_insertionSort, List.mem_filter, decide_eq_true_iff]

theorem Manifest.of_mem_accepted {record : HistoryRecord} (h : record ∈ manifest.accepted records) :
    record ∈ records ∧ ¬ manifest.stored record.lineage :=
  ⟨Dict.mem_of_mem_values_collect (Manifest.mem_accepted.mp h).1, (Manifest.mem_accepted.mp h).2⟩

/-- Every lineage of the records is stored or accepted. -/
theorem Manifest.stored_or_accepted (manifest : Manifest) {record : HistoryRecord}
    (h : record ∈ records) :
    manifest.stored record.lineage
      ∨ ∃ row ∈ manifest.accepted records, row.lineage = record.lineage := by
  by_cases hstored : manifest.stored record.lineage
  · exact Or.inl hstored
  · obtain ⟨row, hrow, heq⟩ := Dict.exists_mem_values_collect HistoryRecord.lineage h
    exact Or.inr ⟨row, Manifest.mem_accepted.mpr ⟨hrow, by rwa [heq]⟩, heq⟩

/-- No lineage is accepted twice. -/
theorem Manifest.nodup_accepted (manifest : Manifest) (records : List HistoryRecord) :
    ((manifest.accepted records).map HistoryRecord.lineage).Nodup := by
  have hcandidates : ((candidates records).map HistoryRecord.lineage).Nodup := by
    rw [candidates, Dict.map_values_collect]
    exact (Dict.collect HistoryRecord.lineage records).nodup_keys
  have hperm := (List.perm_insertionSort HistoryRecord.before ((candidates records).filter
    (fun record => ¬ manifest.stored record.lineage))).map HistoryRecord.lineage
  exact hperm.nodup_iff.mpr (hcandidates.sublist (List.filter_sublist.map _))

/-! ### History ids -/

theorem filterMap_id_of_all {α : Type} {xs : List (Option α)} (h : none ∉ xs) :
    (xs.filterMap id).map some = xs := by
  induction xs with
  | nil => rfl
  | cons x rest ih =>
    rw [List.mem_cons, not_or] at h
    cases x with
    | none => exact absurd rfl h.1
    | some value =>
      show some value :: (rest.filterMap id).map some = some value :: rest
      rw [ih h.2]

theorem Manifest.lt_nextId {row : LineageRow} (h : row ∈ manifest.lineages) :
    row.historyId < manifest.nextId := by
  have hmem : row.historyId ∈ manifest.lineages.map LineageRow.historyId := List.mem_map_of_mem h
  rw [Manifest.nextId]
  cases hmax : (manifest.lineages.map LineageRow.historyId).max? with
  | none =>
    rw [List.max?_eq_none_iff.mp hmax] at hmem
    cases hmem
  | some top =>
    have hle := (List.max?_eq_some_iff.mp hmax).2 row.historyId hmem
    show row.historyId < top + 1
    omega

/-- There is an id for each accepted record; the ids are pairwise distinct and not in use. -/
theorem Manifest.historyIds_spec (manifest : Manifest) (accepted : List HistoryRecord) :
    (manifest.historyIds accepted).length = accepted.length
      ∧ (manifest.historyIds accepted).Nodup
      ∧ ∀ row ∈ manifest.lineages, row.historyId ∉ manifest.historyIds accepted := by
  unfold Manifest.historyIds
  dsimp only
  split
  · rename_i hrequested
    obtain ⟨hall, hnodup, hunused⟩ := hrequested
    refine ⟨?_, hnodup, hunused⟩
    have hlength := congrArg List.length (filterMap_id_of_all hall)
    simpa only [List.length_map] using hlength
  · refine ⟨by simp, ?_, ?_⟩
    · refine List.Nodup.map (fun a b hab => ?_) List.nodup_range
      simpa using hab
    · intro row hrow hmem
      obtain ⟨k, -, heq⟩ := List.mem_map.mp hmem
      have hlt := Manifest.lt_nextId hrow
      omega

end Accepted

/-! ### The rows of a new partition -/

/-- A stored row is the row of one of the records, in its group. -/
def FromRecords (R : HistoryRuntime) (layout : Layout) (records : List HistoryRecord)
    (item : GroupKey × HistoryRow) : Prop :=
  ∃ record ∈ records, ∃ historyId, item.1 = layout.group R record
    ∧ item.2 = layout.row R (layout.group R record) record historyId

section NewRows

variable {key : GroupKey} {records : List HistoryRecord}

/-- A row belongs to the group of its record. -/
theorem Layout.row_belongs (record : HistoryRecord) (historyId : ℤ) :
    (layout.row R (layout.group R record) record historyId).Belongs R (layout.group R record) := by
  cases layout with
  | fine => exact ⟨rfl, Or.inl rfl, rfl, rfl, rfl, rfl⟩
  | coarse => exact ⟨rfl, Or.inr rfl, rfl, rfl, rfl, rfl⟩

/-- The rows of accepted records: their lineages and ids, and where they come from. -/
theorem zipWith_row_spec {accepted : List HistoryRecord} {ids : List ℤ}
    (hlength : ids.length = accepted.length) :
    (List.zipWith (layout.row R key) accepted ids).map HistoryRow.lineage
        = accepted.map HistoryRecord.lineage
      ∧ (List.zipWith (layout.row R key) accepted ids).map HistoryRow.historyId = ids
      ∧ ∀ row ∈ List.zipWith (layout.row R key) accepted ids, ∃ record ∈ accepted,
        ∃ historyId, row = layout.row R key record historyId := by
  induction accepted generalizing ids with
  | nil =>
    rw [List.length_eq_zero_iff.mp hlength]
    exact ⟨rfl, rfl, fun row hrow => by cases hrow⟩
  | cons record rest ih =>
    cases ids with
    | nil => cases hlength
    | cons historyId ids =>
      obtain ⟨hlineages, hids, hrows⟩ := ih (by simpa using hlength)
      rw [List.zipWith_cons_cons]
      refine ⟨by rw [List.map_cons, List.map_cons, hlineages]; rfl,
        by rw [List.map_cons, hids]; rfl, fun row hrow => ?_⟩
      rcases List.mem_cons.mp hrow with rfl | hrow
      · exact ⟨record, List.mem_cons_self, historyId, rfl⟩
      · obtain ⟨record', hmem, historyId', rfl⟩ := hrows row hrow
        exact ⟨record', List.mem_cons_of_mem _ hmem, historyId', rfl⟩

variable (R layout key records) in
theorem newRows_spec (manifest : Manifest) :
    (newRows R layout key manifest records).map HistoryRow.lineage
        = (manifest.accepted records).map HistoryRecord.lineage
      ∧ (newRows R layout key manifest records).map HistoryRow.historyId
        = manifest.historyIds (manifest.accepted records)
      ∧ ∀ row ∈ newRows R layout key manifest records, ∃ record ∈ manifest.accepted records,
        ∃ historyId, row = layout.row R key record historyId :=
  zipWith_row_spec (manifest.historyIds_spec _).1

variable (R layout key records) in
theorem length_newRows (manifest : Manifest) :
    (newRows R layout key manifest records).length = (manifest.accepted records).length := by
  have hlength := congrArg List.length
    (newRows_spec R layout key records manifest).1
  simpa only [List.length_map] using hlength

variable (hkey : ∀ record ∈ records, layout.group R record = key)

include hkey in
/-- The new rows are rows of the records. -/
theorem fromRecords_newRows (manifest : Manifest) :
    ∀ item ∈ (newRows R layout key manifest records).map (Prod.mk key),
      FromRecords R layout records item := by
  intro item hitem
  obtain ⟨row, hrow, rfl⟩ := List.mem_map.mp hitem
  obtain ⟨record, hrecord, historyId, rfl⟩ := (newRows_spec R layout key records manifest).2.2 row hrow
  have hmem := (Manifest.of_mem_accepted hrecord).1
  exact ⟨record, hmem, historyId, (hkey record hmem).symm, by rw [hkey record hmem]⟩

include hkey in
/-- A new partition describes its rows. -/
theorem describes_newPartition {manifest : Manifest} {path : FilePath}
    (hvisible : path.isHidden = false) (hne : manifest.accepted records ≠ []) :
    (newPartition R key path (newRows R layout key manifest records)).Describes R
      (newRows R layout key manifest records) := by
  refine ⟨hvisible, fun hnil => hne ?_, rfl, rfl, rfl, rfl, fun row hrow => ?_⟩
  · have hlength := length_newRows R layout key records manifest
    rw [hnil] at hlength
    exact List.length_eq_zero_iff.mp hlength.symm
  · obtain ⟨record, hrecord, historyId, rfl⟩ := (newRows_spec R layout key records manifest).2.2 row hrow
    have hmem := (Manifest.of_mem_accepted hrecord).1
    show (layout.row R key record historyId).Belongs R key
    rw [← hkey record hmem]
    exact Layout.row_belongs record historyId

end NewRows

/-- With the new rows the lineages and the ids of a root are still pairwise distinct. -/
theorem HistoryWorld.Sound.nodup_newRows {w : HistoryWorld} (h : w.Sound R) (layout : Layout)
    (key : GroupKey) (records : List HistoryRecord) :
    ((w.groupedRows ++ (newRows R layout key w.manifest records).map (Prod.mk key)).map
        (fun item => item.2.lineage)).Nodup
      ∧ ((w.groupedRows ++ (newRows R layout key w.manifest records).map (Prod.mk key)).map
        (fun item => item.2.historyId)).Nodup := by
  obtain ⟨hlineages, hids, -⟩ := newRows_spec R layout key records w.manifest
  obtain ⟨-, hnodup, hunused⟩ := w.manifest.historyIds_spec (w.manifest.accepted records)
  constructor
  · rw [List.map_append, List.map_map]
    show (_ ++ (newRows R layout key w.manifest records).map HistoryRow.lineage).Nodup
    rw [hlineages]
    refine h.lineageNodup.append (w.manifest.nodup_accepted records) (fun lineage hold hnew => ?_)
    obtain ⟨record, hrecord, rfl⟩ := List.mem_map.mp hnew
    refine (Manifest.of_mem_accepted hrecord).2 (h.stored_iff.mpr ?_)
    exact List.mem_map.mp hold
  · rw [List.map_append, List.map_map]
    show (_ ++ (newRows R layout key w.manifest records).map HistoryRow.historyId).Nodup
    rw [hids]
    refine h.idNodup.append hnodup (fun historyId hold hnew => ?_)
    obtain ⟨item, hitem, rfl⟩ := List.mem_map.mp hold
    obtain ⟨p, hp, row, hrow, rfl⟩ := HistoryWorld.mem_perRow.mp hitem
    exact hunused (row.lineageRow p.path)
      (h.lineages.mem_iff.mpr (HistoryWorld.mem_perRow.mpr ⟨p, hp, row, hrow, rfl⟩)) hnew

/-! ### The specification of an append -/

section Spec

variable {w₀ : HistoryWorld} {A : GroupKey × HistoryRow → Prop} {i : ℕ} {key : GroupKey}
variable {records : List HistoryRecord} {rows : List (GroupKey × HistoryRow)}

/-- **Storing.** A new file is written, published and listed. The file gets its rows under a
    temporary name and is renamed before the manifest lists it, so a crash leaves a file that
    nothing lists, never a partition without its file. -/
theorem exits_storeRows {target : FilePath} {added : List HistoryRow} (h : w₀.Sound R)
    (hname : target.name.uuid = R.uuid4 op.run i) (hvisible : target.isHidden = false)
    (htarget : ¬ w₀.listed target)
    (hdescribes : (newPartition R key target added).Describes R added)
    (hlineages : ((w₀.groupedRows ++ added.map (Prod.mk key)).map
      (fun item => item.2.lineage)).Nodup)
    (hids : ((w₀.groupedRows ++ added.map (Prod.mk key)).map
      (fun item => item.2.historyId)).Nodup)
    (hA : ∀ item ∈ added.map (Prod.mk key), A item) :
    Exits w₀.Frozen (storeRows R op i key target added) (SafeStep R op.run A)
      (fun _ w => w.Sound R ∧ w.groupedRows.Perm (w₀.groupedRows ++ added.map (Prod.mk key))
        ∧ w.manifest.partitions = w₀.manifest.partitions ++ [newPartition R key target added])
      (fun _ w => op.Faulty ∧ w₀.Frozen w) := by
  have htemporary := h.not_listed_temporary target
  unfold storeRows
  refine exits_bind (exits_attempt i _ (fun w e hfaulty hw => ⟨hfaulty, hw⟩)) (fun _ => ?_)
  refine exits_bind (Q := fun _ w => w₀.Frozen w ∧ w.files target.temporary = some added) ?_
    (fun _ => ?_)
  -- the rows are put under the temporary name
  · refine (exits_write _).pre (fun w hw => ?_)
    refine ⟨SafeStep.of_quiet (.put _ _ (by rwa [hw.listed_iff])), hw.put htemporary _, ?_⟩
    exact Function.update_self _ _ _
  refine exits_bind (exits_attempt i _ (fun w e hfaulty hw => ⟨hfaulty, hw.1⟩)) (fun _ => ?_)
  refine exits_bind (Q := fun _ w => w₀.Frozen w ∧ w.files target = some added) ?_ (fun _ => ?_)
  -- the finished file gets its own name
  · exact (exits_write _).pre (fun w hw => ⟨SafeStep.of_quiet (.rename _ _
      (by rwa [hw.1.listed_iff]) (by rwa [hw.1.listed_iff])),
      hw.1.rename htemporary htarget, files_rename hvisible hw.2⟩)
  refine exits_bind (exits_attempt i _ (fun w e hfaulty hw => ⟨hfaulty, hw.1⟩)) (fun _ => ?_)
  refine exits_bind (exits_attempt i _ (fun w e hfaulty hw => ⟨hfaulty, hw.1⟩)) (fun _ => ?_)
  refine (exits_write _).pre (fun w hw => ?_)
  obtain ⟨hfrozen, hfile⟩ := hw
  obtain ⟨hsound, hgrouped⟩ := hfrozen.sound h
  -- the new lineages and ids are new to the manifest, so the insertion is safe
  have hsafe : w.Safe R op.run (.insertPartition (newPartition R key target added)
      (added.map (·.lineageRow target))) (added.map (Prod.mk key)) := by
    refine .insertPartition _ added ⟨i, hname⟩ (by rwa [hfrozen.listed_iff]) hfile hdescribes ?_ ?_
    · rw [hgrouped]
      exact hlineages
    · rw [hgrouped]
      exact hids
  obtain ⟨hafter, hrows⟩ := hsafe.sound hsound
  rw [hgrouped] at hrows
  refine ⟨⟨_, _, rfl, hsafe, hA⟩, hafter, hrows, ?_⟩
  show w.manifest.partitions ++ [_] = _
  rw [hfrozen.partitions]

/-- What an append has added so far: rows of its records, as many as it counts. -/
structure Added (R : HistoryRuntime) (layout : Layout) (run : ℕ) (records : List HistoryRecord)
    (rows : List (GroupKey × HistoryRow)) (written next : ℕ) (w : HistoryWorld)
    (added : List (GroupKey × HistoryRow)) : Prop where
  holds : w.Holds R run next (rows ++ added)
  written : written = added.length
  fromRecords : ∀ item ∈ added, FromRecords R layout records item

/-- The lineages of some records are stored. -/
def HistoryWorld.HasStored (w : HistoryWorld) (records : List HistoryRecord) : Prop :=
  ∀ record ∈ records, ∃ item ∈ w.groupedRows, item.2.lineage = record.lineage

/-- Once the group has room, an append adds a row for each new lineage. A batch whose lineages
    are all stored writes nothing; otherwise the new rows go to one new partition, and the
    accepted lineages are those of the rows. -/
theorem exits_appendAccepted (hkey : ∀ record ∈ records, layout.group R record = key) :
    Exits (fun w => w.Holds R op.run i rows) (appendAccepted R op layout key records i)
      (SafeStep R op.run (FromRecords R layout records))
      (fun result w => w.HasStored records
        ∧ ∃ added, Added R layout op.run records rows result.1 result.2 w added)
      (fun _ _ => op.Faulty) := by
  unfold appendAccepted
  refine exits_get_bind (fun w hw => ?_)
  dsimp only
  split
  -- all lineages are stored, so every record has its row
  · rename_i hnone
    refine (exits_pure (Q := fun (result : ℕ × ℕ) (s : HistoryWorld) => s.HasStored records
      ∧ ∃ added, Added R layout op.run records rows result.1 result.2 s added) (0, i)).pre
        (fun s hs => ?_)
    subst hs
    refine ⟨fun record hrecord => ?_, [], ?_, rfl, fun _ hitem => by cases hitem⟩
    · rcases s.manifest.stored_or_accepted hrecord with hstored | ⟨row, hrow, -⟩
      · exact hw.sound.stored_iff.mp hstored
      · rw [hnone] at hrow
        cases hrow
    · rw [List.append_nil]
      exact hw
  -- the new rows are stored under a name that no partition has
  · rename_i hsome
    have htarget : ¬ w.listed ⟨key, .part (R.uuid4 op.run i), false⟩ := hw.named.not_listed rfl
    obtain ⟨hlineages, hids⟩ := hw.sound.nodup_newRows layout key records
    have hstore := exits_discarding hw.sound htarget (exits_storeRows hw.sound rfl rfl htarget
      (describes_newPartition hkey rfl hsome) hlineages hids
      (fromRecords_newRows hkey w.manifest))
    refine exits_bind (hstore.pre (fun s hs => hs ▸ HistoryWorld.Frozen.refl w)) (fun _ => ?_)
    refine (exits_pure (Q := fun (result : ℕ × ℕ) (s : HistoryWorld) => s.HasStored records
      ∧ ∃ added, Added R layout op.run records rows result.1 result.2 s added)
        ((w.manifest.accepted records).length, i + 1)).pre (fun s hs => ?_)
    obtain ⟨hsound, hrows, hpartitions⟩ := hs
    refine ⟨fun record hrecord => ?_, (newRows R layout key w.manifest records).map (Prod.mk key),
      ⟨hsound, fun p hp => ?_, hrows.trans (hw.rows.append_right _)⟩, ?_,
      fromRecords_newRows hkey w.manifest⟩
    -- a record of the batch was stored before or is among the new rows
    · rcases w.manifest.stored_or_accepted hrecord with hstored | hnew
      · obtain ⟨item, hitem, heq⟩ := hw.sound.stored_iff.mp hstored
        exact ⟨item, hrows.mem_iff.mpr (List.mem_append_left _ hitem), heq⟩
      · obtain ⟨accepted, haccepted, heq⟩ := hnew
        have hlineage : record.lineage
            ∈ (newRows R layout key w.manifest records).map HistoryRow.lineage := by
          rw [(newRows_spec R layout key records w.manifest).1, ← heq]
          exact List.mem_map_of_mem haccepted
        obtain ⟨row, hrow, hrowLineage⟩ := List.mem_map.mp hlineage
        exact ⟨(key, row), hrows.mem_iff.mpr
          (List.mem_append_right _ (List.mem_map_of_mem hrow)), hrowLineage⟩
    · rw [hpartitions, List.mem_append] at hp
      rcases hp with hp | hp
      · exact hw.named.mono (Nat.le_succ i) p hp
      · rw [List.mem_singleton.mp hp]
        exact ⟨op.run, i, rfl, Or.inr ⟨rfl, Nat.lt_succ_self i⟩⟩
    · rw [List.length_map, length_newRows]

/-- An append to one group; two calls of the function are enough. -/
theorem exits_appendPartition (hkey : ∀ record ∈ records, layout.group R record = key) (fuel : ℕ) :
    Exits (fun w => w.Holds R op.run i rows)
      (appendPartition R op layout key records (fuel + 2) i)
      (SafeStep R op.run (FromRecords R layout records))
      (fun result w => w.HasStored records
        ∧ ∃ added, Added R layout op.run records rows result.1 result.2 w added)
      (fun _ _ => op.Faulty) := by
  -- with room in the group the function does not call itself
  have hroom : ∀ fuel i, Exits (fun w => w.Holds R op.run i rows
        ∧ (w.groupParts R key).length < maxPartitionFilesPerGroup)
      (appendPartition R op layout key records (fuel + 1) i)
      (SafeStep R op.run (FromRecords R layout records))
      (fun result w => w.HasStored records
        ∧ ∃ added, Added R layout op.run records rows result.1 result.2 w added)
      (fun _ _ => op.Faulty) := by
    intro fuel i
    rw [appendPartition]
    refine exits_bind (exits_attempt i _ (fun _ _ hfaulty _ => hfaulty)) (fun _ => ?_)
    refine exits_get_bind (fun w hw => ?_)
    rw [if_neg (not_le.mpr hw.2)]
    exact (exits_appendAccepted hkey).pre (fun s hs => hs ▸ hw.1)
  rw [appendPartition]
  refine exits_bind (exits_attempt i _ (fun _ _ hfaulty _ => hfaulty)) (fun _ => ?_)
  refine exits_get_bind (fun w hw => ?_)
  split
  · refine exits_bind ((exits_compactPartitionGroup key).pre (fun s hs => hs ▸ hw)) (fun _ => ?_)
    refine (hroom fuel (i + 1)).pre (fun s hs => ⟨hs.1, lt_of_le_of_lt hs.2 ?_⟩)
    decide
  · exact (exits_appendAccepted hkey).pre (fun s hs => hs ▸ hw)

theorem FromRecords.mono {batch : List HistoryRecord} {item : GroupKey × HistoryRow}
    (h : FromRecords R layout records item) (hsub : ∀ record ∈ records, record ∈ batch) :
    FromRecords R layout batch item := by
  obtain ⟨record, hrecord, hrest⟩ := h
  exact ⟨record, hsub record hrecord, hrest⟩

/-- What a root has stored it keeps while rows are added. -/
theorem HistoryWorld.HasStored.of_subset {w : HistoryWorld} (h : w₀.HasStored records)
    (hsub : ∀ item ∈ w₀.groupedRows, item ∈ w.groupedRows) : w.HasStored records := by
  intro record hrecord
  obtain ⟨item, hitem, heq⟩ := h record hrecord
  exact ⟨item, hsub item hitem, heq⟩

/-- One group of a batch: what it adds comes on top of what the groups before it added. The
    groups share the batch, so what one of them is given is given by the batch, and the new rows
    of the groups follow one another. -/
theorem exits_appendGroup {batch : List HistoryRecord} {seen : List (GroupKey × List HistoryRecord)}
    {item : GroupKey × List HistoryRecord} (hitem : item ∈ (layout.grouped R batch).items)
    (progress : ℕ × ℕ) :
    Exits (fun w => (∀ item ∈ seen, w.HasStored item.2)
        ∧ ∃ added, Added R layout op.run batch rows progress.1 progress.2 w added)
      (appendGroup R op layout progress item) (SafeStep R op.run (FromRecords R layout batch))
      (fun result w => (∀ item' ∈ seen ++ [item], w.HasStored item'.2)
        ∧ ∃ added, Added R layout op.run batch rows result.1 result.2 w added)
      (fun _ _ => op.Faulty) := by
  have hgroup : ∀ record ∈ item.2, record ∈ batch ∧ layout.group R record = item.1 :=
    (Dict.of_mem_items_group hitem).2
  refine exits_of_forall (fun w₀ hw₀ => ?_)
  obtain ⟨hseen, added, hadded⟩ := hw₀
  -- the group is appended on top of the rows that the groups before it added
  have happend : Exits (fun w => w.Holds R op.run progress.2 (rows ++ added))
      (appendPartition R op layout item.1 item.2 recursionLimit progress.2)
      (SafeStep R op.run (FromRecords R layout item.2))
      (fun result w => w.HasStored item.2
        ∧ ∃ more, Added R layout op.run item.2 (rows ++ added) result.1 result.2 w more)
      (fun _ _ => op.Faulty) :=
    exits_appendPartition (fun record hrecord => (hgroup record hrecord).2) 998
  have hsafe : ∀ w block, SafeStep R op.run (FromRecords R layout item.2) w block →
      SafeStep R op.run (FromRecords R layout batch) w block := by
    rintro w block ⟨write, rows, rfl, hwrite, hrows⟩
    exact ⟨write, rows, rfl, hwrite,
      fun row hrow => (hrows row hrow).mono (fun record hrecord => (hgroup record hrecord).1)⟩
  unfold appendGroup
  refine exits_bind (happend.weaken (fun s hs => hs ▸ hadded.holds) hsafe (fun _ _ hQ => hQ)
    (fun _ _ hE => hE)) (fun result => ?_)
  obtain ⟨written, next⟩ := result
  refine (exits_pure (Q := fun (result : ℕ × ℕ) (s : HistoryWorld) =>
    (∀ item' ∈ seen ++ [item], s.HasStored item'.2)
      ∧ ∃ added, Added R layout op.run batch rows result.1 result.2 s added)
    (progress.1 + written, next)).pre (fun s hs => ?_)
  obtain ⟨hstored, more, hmore⟩ := hs
  have hholds := hmore.holds
  rw [List.append_assoc] at hholds
  refine ⟨fun item' hitem' => ?_, added ++ more, hholds, ?_, fun row hrow => ?_⟩
  -- what was stored before the group is still stored
  · rcases List.mem_append.mp hitem' with hitem' | hitem'
    · refine (hseen item' hitem').of_subset (fun row hrow => ?_)
      exact hmore.holds.rows.mem_iff.mpr
        (List.mem_append_left _ (hadded.holds.rows.mem_iff.mp hrow))
    · rw [List.mem_singleton.mp hitem']
      exact hstored
  · have hwritten : written = more.length := hmore.written
    show progress.1 + written = _
    rw [List.length_append, hadded.written, hwritten]
  · rcases List.mem_append.mp hrow with hrow | hrow
    · exact hadded.fromRecords row hrow
    · exact (hmore.fromRecords row hrow).mono (fun record hrecord => (hgroup record hrecord).1)

/-- **Append.** Unless a lineage is empty, an append stores every record and counts the rows it
    adds; it raises only when a step does. -/
theorem exits_appendRecords {batch : List HistoryRecord}
    (hlineage : ∀ record ∈ batch, record.lineage ≠ "") :
    Exits (fun w => w.Holds R op.run 0 rows) (appendRecords R op layout batch)
      (SafeStep R op.run (FromRecords R layout batch))
      (fun written w => w.HasStored batch
        ∧ ∃ next added, Added R layout op.run batch rows written next w added)
      (fun _ _ => op.Faulty) := by
  -- over the groups: those seen are stored, and the counters are the rows they added
  have hloop : Exits
      (fun w => (∀ item ∈ ([] : List (GroupKey × List HistoryRecord)), w.HasStored item.2)
        ∧ ∃ added, Added R layout op.run batch rows 0 0 w added)
      ((layout.grouped R batch).items.foldlM (appendGroup R op layout) (0, 0))
      (SafeStep R op.run (FromRecords R layout batch))
      (fun result w => (∀ item ∈ (layout.grouped R batch).items, w.HasStored item.2)
        ∧ ∃ added, Added R layout op.run batch rows result.1 result.2 w added)
      (fun _ _ => op.Faulty) :=
    exits_foldlM (J := fun seen progress w => (∀ item ∈ seen, w.HasStored item.2)
        ∧ ∃ added, Added R layout op.run batch rows progress.1 progress.2 w added)
      (fun seen item rest progress hitems =>
        exits_appendGroup (hitems ▸ List.mem_append_right _ List.mem_cons_self) progress) (0, 0)
  unfold appendRecords
  rw [if_neg (by simpa using hlineage)]
  refine exits_bind (hloop.pre (fun w hw => ?_)) (fun result => ?_)
  -- at the start no group is seen and nothing is added
  · refine ⟨fun item hitem => (by cases hitem), [], ?_, rfl, fun item hitem => (by cases hitem)⟩
    rwa [List.append_nil]
  · obtain ⟨written, next⟩ := result
    refine (exits_pure (Q := fun (written : ℕ) (s : HistoryWorld) => s.HasStored batch
      ∧ ∃ next added, Added R layout op.run batch rows written next s added) written).pre
        (fun w hw => ⟨fun record hrecord => ?_, next, hw.2⟩)
    obtain ⟨item, hitem, -, hmem⟩ := Dict.exists_mem_items_group (layout.group R) hrecord
    exact hw.1 item hitem record hmem

/-- A batch with an empty lineage is refused as a whole. -/
theorem appendRecords_refused {batch : List HistoryRecord} {record : HistoryRecord}
    (hrecord : record ∈ batch) (hempty : record.lineage = "") (w : HistoryWorld) :
    appendRecords R op layout batch w
      = ([], .error (.valueError "market history lineage_hash is required")) := by
  unfold appendRecords
  rw [if_pos (List.any_eq_true.mpr ⟨record, hrecord, by simpa using hempty⟩)]
  rfl

end Spec

end InefficiencyEngine.History
