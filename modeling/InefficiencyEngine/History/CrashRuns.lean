import InefficiencyEngine.History.SameHistory

namespace InefficiencyEngine.History

open Portfolio Durable Prog

/-!
# Runs with crashes

Any calls are made on a root, with any faults, and each may stop after any of its writes.  Only a
call that has returned has acknowledged its batch.

* `manifest_of_run`: what the manifest then says is true of the files, every acknowledged lineage
  is in `quote_lineage` once, and a further append counts what it adds;
* `range_of_upkeep`: compacting and reaping, with crashes of their own, change no range of either
  class.
-/

/-! ### Acknowledged batches -/

/-- A root, and the records of the appends that have returned. -/
structure AckState where
  state : HistoryState
  acknowledged : List HistoryRecord

/-- Nothing has been appended yet. -/
def AckState.initial : AckState := ⟨.initial, []⟩

/-- The call ran to its end and returned. -/
def HistoryAction.returns (R : HistoryRuntime) (state : HistoryState) (action : HistoryAction) :
    Bool :=
  action.stop.isNone
    && (action.call.prog R ⟨state.started, action.faults⟩ state.world).2.toOption.isSome

/-- A call, and the acknowledgement of its batch. -/
def ackStep (R : HistoryRuntime) (s : AckState) (action : HistoryAction) : AckState where
  state := historyStep R s.state action
  acknowledged :=
    s.acknowledged ++ if action.returns R s.state then action.call.batch else []

/-- What the tables say, the files and the appends bear out. -/
structure ManifestKept (R : HistoryRuntime) (s : AckState) : Prop where
  /-- An acknowledged lineage is in `quote_lineage`, once. -/
  acknowledged : ∀ record ∈ s.acknowledged,
    (s.state.world.manifest.lineages.map LineageRow.lineage).count record.lineage = 1
  /-- A lineage points at a listed partition. -/
  listed : ∀ entry ∈ s.state.world.manifest.lineages, s.state.world.listed entry.path
  /-- The file of a listed partition is there; the partition describes it, and its rows are the
      lineages mapped to it. -/
  files : ∀ p ∈ s.state.world.manifest.partitions, ∃ rows, s.state.world.files p.path = some rows
    ∧ p.Describes R rows
    ∧ (s.state.world.manifest.lineages.filter (fun entry => entry.path = p.path)).Perm
        (rows.map (·.lineageRow p.path))
  lineages : (s.state.world.manifest.lineages.map LineageRow.lineage).Nodup
  historyIds : (s.state.world.manifest.lineages.map LineageRow.historyId).Nodup
  /-- An append returns the number of lineages that were not stored. -/
  counts : ∀ layout records faults written,
    (appendRecords R ⟨s.state.started, faults⟩ layout records s.state.world).2 = .ok written →
    written = ((records.map HistoryRecord.lineage).dedup.filter
      (fun lineage => ¬ s.state.world.manifest.stored lineage)).length
  valid : (Layout.coarse.inventory R true s.state.world).valid = true

section Manifest

variable {R : HistoryRuntime} {w : HistoryWorld} {rows : List (GroupKey × HistoryRow)}

/-- The lineages of the table, with their ids, are those of the stored rows. -/
theorem HistoryWorld.Sound.map_lineages {α : Type} (h : w.Sound R) (f : String → ℤ → α) :
    (w.manifest.lineages.map (fun entry => f entry.lineage entry.historyId)).Perm
      (w.groupedRows.map (fun item => f item.2.lineage item.2.historyId)) := by
  refine (h.lineages.map _).trans (List.Perm.of_eq ?_)
  simp only [HistoryWorld.groupedRows, HistoryWorld.perRow, List.map_flatMap, List.map_map]
  rfl

/-- The lineages mapped to a listed partition are the rows of its file. -/
theorem HistoryWorld.Sound.filter_lineages (h : w.Sound R) {p : Partition}
    (hp : p ∈ w.manifest.partitions) :
    (w.manifest.lineages.filter (fun entry => entry.path = p.path)).Perm
      ((w.rowsAt p).map (·.lineageRow p.path)) := by
  have hone : ∀ (partitions : List Partition), (partitions.map Partition.path).Nodup →
      p ∈ partitions →
      (partitions.flatMap (fun q => (w.rowsAt q).map (·.lineageRow q.path))).filter
          (fun entry => entry.path = p.path)
        = (w.rowsAt p).map (·.lineageRow p.path) := by
    intro partitions hnodup hmem
    induction partitions with
    | nil => cases hmem
    | cons q rest ih =>
      rw [List.map_cons, List.nodup_cons] at hnodup
      rw [List.flatMap_cons, List.filter_append]
      rcases List.mem_cons.mp hmem with rfl | hmem
      · -- the other partitions have other paths
        have hrest : (rest.flatMap (fun q => (w.rowsAt q).map (·.lineageRow q.path))).filter
            (fun entry => entry.path = p.path) = [] := by
          refine List.filter_eq_nil_iff.mpr (fun entry hentry heq => ?_)
          obtain ⟨q, hq, hentry⟩ := List.mem_flatMap.mp hentry
          obtain ⟨row, -, rfl⟩ := List.mem_map.mp hentry
          exact hnodup.1 (List.mem_map.mpr ⟨q, hq, of_decide_eq_true heq⟩)
        rw [hrest, List.append_nil, List.filter_eq_self]
        intro entry hentry
        obtain ⟨row, -, rfl⟩ := List.mem_map.mp hentry
        exact decide_eq_true rfl
      · have hother : ((w.rowsAt q).map (·.lineageRow q.path)).filter
            (fun entry => entry.path = p.path) = [] := by
          refine List.filter_eq_nil_iff.mpr (fun entry hentry heq => ?_)
          obtain ⟨row, -, rfl⟩ := List.mem_map.mp hentry
          have hpath : q.path = p.path := of_decide_eq_true heq
          exact hnodup.1 (List.mem_map.mpr ⟨p, hmem, hpath.symm⟩)
        rw [hother, List.nil_append]
        exact ih hnodup.2 hmem
  exact (h.lineages.filter _).trans (List.Perm.of_eq (hone _ h.paths hp))

/-- An append that returns counts the lineages that were not stored. -/
theorem HistoryWorld.Holds.written_eq {op : Operation} {layout : Layout}
    {records : List HistoryRecord} {written : ℕ} (h : w.Holds R op.run 0 rows)
    (hok : (appendRecords R op layout records w).2 = .ok written) :
    written = ((records.map HistoryRecord.lineage).dedup.filter
      (fun lineage => ¬ w.manifest.stored lineage)).length := by
  have hlineage : ∀ record ∈ records, record.lineage ≠ "" := by
    intro record hrecord hempty
    rw [appendRecords_refused hrecord hempty] at hok
    cases hok
  have happend : Exits (fun w => w.Holds R op.run 0 rows) (appendRecords R op layout records)
      (SafeStep R op.run (FromRecords R layout records))
      (fun written w => w.HasStored records
        ∧ ∃ next added, Added R layout op.run records rows written next w added)
      (fun _ _ => op.Faulty) :=
    exits_appendRecords hlineage
  obtain ⟨hstored, next, added, hadded⟩ := happend.post w written h hok
  have hlineages : ((rows ++ added).map (fun item => item.2.lineage)).Nodup :=
    (hadded.holds.rows.map _).nodup_iff.mp hadded.holds.sound.lineageNodup
  rw [List.map_append, List.nodup_append'] at hlineages
  obtain ⟨-, hnodup, hdisjoint⟩ := hlineages
  have hbefore : ∀ lineage, w.manifest.stored lineage
      ↔ lineage ∈ rows.map (fun item => item.2.lineage) := by
    intro lineage
    rw [h.sound.stored_iff, List.mem_map]
    exact ⟨fun ⟨item, hitem, heq⟩ => ⟨item, h.rows.mem_iff.mp hitem, heq⟩,
      fun ⟨item, hitem, heq⟩ => ⟨item, h.rows.mem_iff.mpr hitem, heq⟩⟩
  -- what was added and what was missing have the same lineages
  have hperm : (added.map (fun item => item.2.lineage)).Perm
      ((records.map HistoryRecord.lineage).dedup.filter
        (fun lineage => ¬ w.manifest.stored lineage)) := by
    refine (List.perm_ext_iff_of_nodup hnodup ((List.nodup_dedup _).filter _)).mpr
      (fun lineage => ?_)
    rw [List.mem_filter, List.mem_dedup, decide_eq_true_iff, hbefore]
    constructor
    · intro hmem
      refine ⟨?_, fun hold => hdisjoint hold hmem⟩
      obtain ⟨item, hitem, rfl⟩ := List.mem_map.mp hmem
      obtain ⟨record, hrecord, historyId, -, hrow⟩ := hadded.fromRecords item hitem
      rw [hrow]
      exact List.mem_map.mpr ⟨record, hrecord, by cases layout <;> rfl⟩
    · rintro ⟨hmem, hnew⟩
      obtain ⟨record, hrecord, rfl⟩ := List.mem_map.mp hmem
      obtain ⟨item, hitem, heq⟩ := hstored record hrecord
      rcases List.mem_append.mp (hadded.holds.rows.mem_iff.mp hitem) with hold | hadd
      · exact absurd (List.mem_map.mpr ⟨item, hold, heq⟩) hnew
      · exact List.mem_map.mpr ⟨item, hadd, heq⟩
  rw [hadded.written, ← hperm.length_eq, List.length_map]

/-- What holds after any calls: the root holds some rows, the acknowledged records among them. -/
def AckState.Holds (R : HistoryRuntime) (s : AckState) : Prop :=
  ∃ rows, s.state.world.Holds R s.state.started 0 rows ∧ s.state.world.HasStored s.acknowledged

theorem AckState.holds_initial : AckState.initial.Holds R :=
  ⟨[], ⟨HistoryWorld.sound_empty R, fun p hp => (by cases hp), List.Perm.refl _⟩,
    fun record hrecord => by cases hrecord⟩

/-- One more call, wherever it stops. -/
theorem AckState.Holds.step {s : AckState} (h : s.Holds R) (action : HistoryAction) :
    (ackStep R s action).Holds R := by
  obtain ⟨rows, hholds, hstored⟩ := h
  have hexits := exits_call R ⟨s.state.started, action.faults⟩ rows action.call
  obtain ⟨added, hafter, -⟩ := leaves_invariant
    (I := fun w : HistoryWorld => ∃ added, w.Holds R (s.state.started + 1) 0 (rows ++ added)
      ∧ ∀ item ∈ added, action.call.Adds R item)
    (fun n => hholds.crash hexits.toSpec n) action.stop
  refine ⟨rows ++ added, hafter, fun record hrecord => ?_⟩
  rcases List.mem_append.mp hrecord with hold | hnew
  · refine hstored.of_subset (fun item hitem => ?_) record hold
    exact hafter.rows.mem_iff.mpr (List.mem_append_left _ (hholds.rows.mem_iff.mp hitem))
  · split at hnew
    · -- the call has returned, so it has made all its writes
      rename_i hreturns
      rw [HistoryAction.returns, Bool.and_eq_true, Option.isNone_iff_eq_none] at hreturns
      obtain ⟨hstop, hok⟩ := hreturns
      obtain ⟨written, hwritten⟩ := Option.isSome_iff_exists.mp hok
      have hworld : (ackStep R s action).state.world
          = (action.call.prog R ⟨s.state.started, action.faults⟩).final s.state.world := by
        show Prog.leaves _ _ action.stop = _
        rw [hstop]
        rfl
      rw [hworld]
      exact (hexits.post _ written hholds (ok_of_toOption hwritten)).1 record hnew
    · cases hnew

/-- What holds after any calls says that the manifest is kept. -/
theorem AckState.Holds.manifestKept {s : AckState} (h : s.Holds R) : ManifestKept R s := by
  obtain ⟨rows, hholds, hstored⟩ := h
  have hsound := hholds.sound
  have hnodup : (s.state.world.manifest.lineages.map LineageRow.lineage).Nodup :=
    (hsound.map_lineages (fun lineage _ => lineage)).nodup_iff.mpr hsound.lineageNodup
  refine ⟨fun record hrecord => ?_, fun entry hentry => ?_, fun p hp => ?_, hnodup,
    (hsound.map_lineages (fun _ historyId => historyId)).nodup_iff.mpr hsound.idNodup,
    fun layout records faults written hok => hholds.written_eq hok,
    hsound.inventory_valid (Or.inl rfl) true⟩
  · exact List.count_eq_one_of_mem hnodup (hsound.stored_iff.mpr (hstored record hrecord))
  · obtain ⟨p, hp, row, -, rfl⟩ := HistoryWorld.mem_perRow.mp (hsound.lineages.mem_iff.mp hentry)
    exact ⟨p, hp, rfl⟩
  · obtain ⟨hfile, hdescribes⟩ := hsound.describes hp
    exact ⟨_, hfile, hdescribes, hsound.filter_lineages hp⟩

/-- Every run of calls keeps what the root holds. -/
theorem AckState.holds_run (R : HistoryRuntime) (actions : List HistoryAction) :
    (run (ackStep R) AckState.initial actions).Holds R :=
  run_invariant (C := fun _ _ => True) (fun _ action hs _ => hs.step action)
    AckState.holds_initial (Meets.of_forall (fun _ _ => trivial) _ _)

/-- **The manifest after crashes.** After any calls with any faults, each cut off after any number
    of its writes, the manifest says what the files hold, the acknowledged lineages are stored
    once each, a further append counts what it adds, and the coarse inventory is valid. -/
theorem manifest_of_run (R : HistoryRuntime) (actions : List HistoryAction) :
    ManifestKept R (run (ackStep R) AckState.initial actions) :=
  (AckState.holds_run R actions).manifestKept

end Manifest

/-! ### Compacting and reaping -/

/-- A call that appends nothing. -/
inductive Upkeep
  | compact (key : GroupKey)
  | reap

def Upkeep.call : Upkeep → HistoryCall
  | .compact key => .compact key
  | .reap => .reap

/-- An upkeep call, what goes wrong in it, and where it stops. -/
structure UpkeepAction where
  upkeep : Upkeep
  faults : Faults
  stop : Option ℕ

def UpkeepAction.action (a : UpkeepAction) : HistoryAction := ⟨a.upkeep.call, a.faults, a.stop⟩

section Ranges

variable {R : HistoryRuntime} {w w' : HistoryWorld} {layout : Layout} {window : HistoryWindow}
variable {rows : List (GroupKey × HistoryRow)}

variable (R layout window) in
/-- What a range shows of a group: its filters without the times of the partition. -/
def Layout.shows (item : GroupKey × HistoryRow) : Bool :=
  layout.admits R window item.2 && (window.venues.isEmpty || item.1.venue ∈ window.venues)
    && (window.assets.isEmpty
      || (match layout with
          | .fine => item.1.asset ∈ window.normalizedAssets R
          | .coarse => item.1.asset = multiAssetPartition
              ∨ item.1.asset ∈ window.normalizedAssets R))

/-- A row in the window is between the times of its partition. -/
theorem Partition.Describes.shows_iff {p : Partition} (h : p.Describes R (w.rowsAt p))
    {row : HistoryRow} (hrow : row ∈ w.rowsAt p) :
    layout.shows R window (p.group, row) = true
      ↔ layout.selects R window p = true ∧ layout.admits R window row = true := by
  obtain ⟨hmin, hmax⟩ := h.observedAt_mem hrow
  simp only [Layout.shows, Layout.selects, Bool.and_eq_true, decide_eq_true_eq]
  constructor
  · rintro ⟨⟨hadmits, hvenues⟩, hassets⟩
    have htimes := hadmits
    simp only [Layout.admits, Bool.and_eq_true, decide_eq_true_eq] at htimes
    exact ⟨⟨⟨⟨htimes.1.1.trans hmax, hmin.trans htimes.1.2⟩, hvenues⟩, hassets⟩, hadmits⟩
  · rintro ⟨⟨⟨-, hvenues⟩, hassets⟩, hadmits⟩
    exact ⟨⟨hadmits, hvenues⟩, hassets⟩

/-- The rows a range reads are the stored rows it shows, with their groups. -/
theorem HistoryWorld.Sound.read_eq (h : w.Sound R) :
    ((w.manifest.partitions.filter (layout.selects R window)).flatMap
        (visibleRows w.files)).filter (layout.admits R window)
      = (w.groupedRows.filter (layout.shows R window)).map Prod.snd := by
  rw [HistoryWorld.groupedRows, HistoryWorld.perRow, List.filter_flatMap, List.filter_flatMap,
    List.map_flatMap, flatMap_filter]
  refine List.flatMap_congr (fun p hp => ?_)
  obtain ⟨hfile, hdescribes⟩ := h.describes hp
  have hrows : visibleRows w.files p = w.rowsAt p := by
    rw [visibleRows, hdescribes.visible, hfile]
    rfl
  rw [hrows, List.filter_map, List.map_map]
  have hid : (Prod.snd ∘ fun row : HistoryRow => (p.group, row)) = id := rfl
  rw [hid, List.map_id]
  by_cases hselects : layout.selects R window p = true
  · rw [if_pos hselects]
    refine List.filter_congr (fun row hrow => ?_)
    rw [Function.comp_apply, Bool.eq_iff_iff, hdescribes.shows_iff hrow]
    exact ⟨fun hadmits => ⟨hselects, hadmits⟩, fun hboth => hboth.2⟩
  · rw [if_neg hselects]
    refine (List.filter_eq_nil_iff.mpr (fun row hrow hshows => hselects ?_)).symm
    exact ((hdescribes.shows_iff hrow).mp hshows).1

/-- Sound roots with the same grouped rows, in any order, show the same in every range. -/
theorem HistoryWorld.Sound.range_eq_of_perm (h : w.Sound R) (h' : w'.Sound R)
    (hperm : w'.groupedRows.Perm w.groupedRows) :
    layout.range R window w' = layout.range R window w := by
  have hread : ∀ {v : HistoryWorld}, v.Sound R →
      layout.collected R window v.manifest.partitions (visibleRows v.files)
        = (v.groupedRows.filter (layout.shows R window)).map Prod.snd := by
    intro v hv
    have hnodup : (((v.groupedRows.filter (layout.shows R window)).map Prod.snd).map
        HistoryRow.lineage).Nodup := by
      rw [List.map_map]
      exact hv.lineageNodup.sublist (List.filter_sublist.map _)
    rw [Layout.collected, hv.read_eq, Dict.values_collect_of_nodup hnodup]
  have hshown : ((w'.groupedRows.filter (layout.shows R window)).map Prod.snd).Perm
      ((w.groupedRows.filter (layout.shows R window)).map Prod.snd) :=
    (hperm.filter _).map _
  have hids : (((w'.groupedRows.filter (layout.shows R window)).map Prod.snd).map
      HistoryRow.historyId).Nodup := by
    rw [List.map_map]
    exact h'.idNodup.sublist (List.filter_sublist.map _)
  rw [Layout.range, Layout.range, Layout.rangeRows, Layout.rangeRows, hread h, hread h']
  congr 1
  -- rows of one time and id are one row
  refine List.Perm.eq_of_pairwise (fun a b ha hb hab hba => ?_)
    (List.pairwise_insertionSort _ _) (List.pairwise_insertionSort _ _)
    ((List.perm_insertionSort _ _).trans (hshown.trans (List.perm_insertionSort _ _).symm))
  have ha := (List.mem_insertionSort _).mp ha
  have hb := hshown.mem_iff.mpr ((List.mem_insertionSort _).mp hb)
  refine List.inj_on_of_nodup_map hids ha hb ?_
  rcases hab with hlt | ⟨heq, hle⟩
  · rcases hba with hlt' | ⟨heq', -⟩
    · exact absurd (hlt.trans hlt') (lt_irrefl _)
    · exact absurd (hlt.trans_eq heq') (lt_irrefl _)
  · rcases hba with hlt' | ⟨-, hge⟩
    · exact absurd (hlt'.trans_eq heq) (lt_irrefl _)
    · exact le_antisymm hle hge

/-- An upkeep call, wherever it stops, leaves what the root holds. -/
theorem HistoryWorld.Holds.upkeep {state : HistoryState}
    (h : state.world.Holds R state.started 0 rows) (a : UpkeepAction) :
    (historyStep R state a.action).world.Holds R (historyStep R state a.action).started 0 rows := by
  have hexits := exits_call R ⟨state.started, a.faults⟩ rows a.upkeep.call
  obtain ⟨added, hafter, hadded⟩ := leaves_invariant
    (I := fun v : HistoryWorld => ∃ added, v.Holds R (state.started + 1) 0 (rows ++ added)
      ∧ ∀ item ∈ added, a.upkeep.call.Adds R item)
    (fun n => h.crash hexits.toSpec n) a.stop
  have hnone : added = [] := by
    refine List.eq_nil_iff_forall_not_mem.mpr (fun item hitem => ?_)
    have hadds := hadded item hitem
    cases hupkeep : a.upkeep with
    | compact key =>
      rw [hupkeep] at hadds
      exact hadds
    | reap =>
      rw [hupkeep] at hadds
      exact hadds
  rw [hnone, List.append_nil] at hafter
  exact hafter

/-- **Compaction is invisible.** After any calls with crashes, any compactions and reapings, with
    faults and crashes of their own, leave every range of either class as it was. -/
theorem range_of_upkeep (R : HistoryRuntime) (actions : List HistoryAction)
    (upkeep : List UpkeepAction) (layout : Layout) (window : HistoryWindow) :
    layout.range R window (run (historyStep R)
        (run (ackStep R) AckState.initial actions).state (upkeep.map UpkeepAction.action)).world
      = layout.range R window (run (ackStep R) AckState.initial actions).state.world := by
  obtain ⟨rows, hholds, -⟩ := AckState.holds_run R actions
  have hafter : ∀ (upkeep : List UpkeepAction) (state : HistoryState),
      state.world.Holds R state.started 0 rows →
      (run (historyStep R) state (upkeep.map UpkeepAction.action)).world.Holds R
        (run (historyStep R) state (upkeep.map UpkeepAction.action)).started 0 rows := by
    intro upkeep
    induction upkeep with
    | nil => exact fun state hstate => hstate
    | cons a rest ih => exact fun state hstate => ih _ (hstate.upkeep a)
  have hend := hafter upkeep _ hholds
  exact hholds.sound.range_eq_of_perm hend.sound (hend.rows.trans hholds.rows.symm)

end Ranges

end InefficiencyEngine.History
