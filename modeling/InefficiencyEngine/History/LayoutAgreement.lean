import InefficiencyEngine.History.Reading
import InefficiencyEngine.History.Sample

namespace InefficiencyEngine.History

open Portfolio Durable

/-!
# Two classes on one root

The coarse class reads what either class wrote.  The fine class takes the asset of a partition
for the asset of its rows, which the sentinel of a coarse partition is not: it leaves the whole
partition out of a range with an asset filter, and reports a mismatch in an inventory.

So both classes see the whole history exactly if the coarse class has added nothing, that is, if
each of its batches was refused or had only lineages of batches before it.
-/

/-- The records of the batches that were not refused. -/
def committedRecords (calls : List HistoryCall) : List HistoryRecord :=
  calls.flatMap HistoryCall.batch

/-- A batch of the coarse class is refused, or has only lineages of earlier records. -/
def HistoryCall.Redundant (earlier : List HistoryRecord) : HistoryCall → Prop
  | .append .coarse records => (∃ record ∈ records, record.lineage = "")
      ∨ ∀ record ∈ records, ∃ old ∈ earlier, old.lineage = record.lineage
  | _ => True

/-- All batches of the coarse class are redundant. -/
def CoarseRedundant (calls : List HistoryCall) : Prop :=
  ∀ before call after, calls = before ++ call :: after → call.Redundant (committedRecords before)

/-- What a root holds is what was committed: each lineage once, with a quote given for it. -/
structure Committed (calls : List HistoryCall) (w : HistoryWorld) : Prop where
  complete : ∀ record ∈ committedRecords calls, ∃ row ∈ w.storedRows, row.lineage = record.lineage
  given : ∀ row ∈ w.storedRows, ∃ record ∈ committedRecords calls,
    record.lineage = row.lineage ∧ record.quote = row.quote
  once : (w.storedRows.map HistoryRow.lineage).Nodup

/-- A range through either class returns every matching quote of the root once and no other. -/
def RangesExact (R : HistoryRuntime) (w : HistoryWorld) : Prop :=
  ∀ (layout : Layout) (window : HistoryWindow), (layout.range R window w).Perm
    ((w.storedRows.filter (fun row => window.Matches R row.quote)).map HistoryRow.quote)

/-- The inventory of either class finds nothing wrong. -/
def InventoriesValid (R : HistoryRuntime) (w : HistoryWorld) : Prop :=
  ∀ layout : Layout, (layout.inventory R true w).valid = true

section Agreement

variable {R : HistoryRuntime} {calls : List HistoryCall} {call : HistoryCall}

theorem committedRecords_append (calls : List HistoryCall) (call : HistoryCall) :
    committedRecords (calls ++ [call]) = committedRecords calls ++ call.batch := by
  rw [committedRecords, List.flatMap_append, List.flatMap_singleton, committedRecords]

/-- One more call. The calls before it are redundant in the same way, and so is the new one
    after all that was committed. -/
theorem coarseRedundant_append :
    CoarseRedundant (calls ++ [call])
      ↔ CoarseRedundant calls ∧ call.Redundant (committedRecords calls) := by
  constructor
  · refine fun h => ⟨fun before c after hcalls => ?_, h calls call [] rfl⟩
    exact h before c (after ++ [call]) (by rw [hcalls, List.append_assoc, List.cons_append])
  · rintro ⟨hcalls, hcall⟩ before c after heq
    rcases List.eq_nil_or_concat after with rfl | ⟨rest, last, rfl⟩
    · obtain ⟨rfl, hlast⟩ := List.append_inj' heq rfl
      injection hlast with hlast
      rw [← hlast]
      exact hcall
    · rw [List.concat_eq_append, ← List.cons_append, ← List.append_assoc] at heq
      exact hcalls before c rest (List.append_inj' heq rfl).1

/-- A row that a call adds has the sentinel exactly if it is one of the coarse class. -/
theorem HistoryCall.Adds.asset {item : GroupKey × HistoryRow} (h : call.Adds R item) :
    item.1.asset = multiAssetPartition ↔ ∃ records, call = .append .coarse records := by
  cases call with
  | append layout records =>
    obtain ⟨record, -, historyId, hkey, -⟩ := h
    rw [hkey]
    cases layout with
    | fine => exact ⟨fun hmulti => absurd hmulti (R.upper_ne_multiAsset _), fun ⟨_, heq⟩ => by cases heq⟩
    | coarse => exact ⟨fun _ => ⟨records, rfl⟩, fun _ => rfl⟩
  | compact key => cases h
  | reap => cases h

/-- A row that a call adds has the lineage and the quote of a record of its batch. -/
theorem HistoryCall.Adds.record {item : GroupKey × HistoryRow} (h : call.Adds R item) :
    ∃ record ∈ call.batch, record.lineage = item.2.lineage ∧ record.quote = item.2.quote := by
  cases call with
  | append layout records =>
    obtain ⟨record, hrecord, historyId, -, hrow⟩ := h
    rw [hrow]
    exact ⟨record, hrecord, rfl, rfl⟩
  | compact key => cases h
  | reap => cases h

/-- What holds after some calls in which nothing goes wrong. -/
structure Reaches (R : HistoryRuntime) (calls : List HistoryCall) (state : HistoryState)
    (rows : List (GroupKey × HistoryRow)) : Prop where
  holds : state.world.Holds R state.started 0 rows
  complete : ∀ record ∈ committedRecords calls, ∃ item ∈ rows, item.2.lineage = record.lineage
  given : ∀ item ∈ rows, ∃ record ∈ committedRecords calls,
    record.lineage = item.2.lineage ∧ record.quote = item.2.quote
  sentinel : (∀ item ∈ rows, item.1.asset ≠ multiAssetPartition) ↔ CoarseRedundant calls

variable (call) in
/-- One more call adds the rows of its batch that are new. The new rows of a coarse append carry
    the multi-asset sentinel, so the rows keep to their own assets exactly as long as no call
    that is not redundant has gone to the coarse class. -/
theorem Reaches.step {state : HistoryState} {rows : List (GroupKey × HistoryRow)}
    (h : Reaches R calls state rows) :
    ∃ added, Reaches R (calls ++ [call]) (callStep R state call) (rows ++ added) := by
  obtain ⟨added, hholds, hadded, hstored⟩ := h.holds.call call
  have hnodup : ((rows ++ added).map (fun item => item.2.lineage)).Nodup :=
    (hholds.rows.map _).nodup_iff.mp hholds.sound.lineageNodup
  have hbatch : ∀ record ∈ call.batch, ∃ item ∈ rows ++ added,
      item.2.lineage = record.lineage := by
    intro record hrecord
    obtain ⟨item, hitem, heq⟩ := hstored record hrecord
    exact ⟨item, hholds.rows.mem_iff.mp hitem, heq⟩
  -- a lineage is among the rows exactly if a committed record has it
  have hearlier : ∀ lineage, (∃ item ∈ rows, item.2.lineage = lineage)
      ↔ ∃ old ∈ committedRecords calls, old.lineage = lineage := by
    intro lineage
    constructor
    · rintro ⟨item, hitem, rfl⟩
      obtain ⟨old, hold, heq, -⟩ := h.given item hitem
      exact ⟨old, hold, heq⟩
    · rintro ⟨old, hold, rfl⟩
      exact h.complete old hold
  -- the coarse class adds a row exactly if its batch is not redundant
  have hnew : (∀ item ∈ added, item.1.asset ≠ multiAssetPartition)
      ↔ call.Redundant (committedRecords calls) := by
    by_cases hcoarse : ∃ records, call = .append .coarse records
    · obtain ⟨records, rfl⟩ := hcoarse
      have hnone : (∀ item ∈ added, item.1.asset ≠ multiAssetPartition) ↔ added = [] := by
        constructor
        · intro hmulti
          by_contra hne
          obtain ⟨item, hitem⟩ := List.exists_mem_of_ne_nil _ hne
          exact hmulti item hitem ((hadded item hitem).asset.mpr ⟨records, rfl⟩)
        · rintro rfl item hitem
          cases hitem
      rw [hnone]
      -- a record without lineage refuses the whole batch; otherwise the batch is stored as it is
      by_cases hrefused : ∃ record ∈ records, record.lineage = ""
      · refine ⟨fun _ => Or.inl hrefused, fun _ => ?_⟩
        by_contra hne
        obtain ⟨item, hitem⟩ := List.exists_mem_of_ne_nil _ hne
        obtain ⟨record, hrecord, -⟩ := (hadded item hitem).record
        have hrefused : (HistoryCall.append .coarse records).Refused := hrefused
        rw [(hrefused.silent R ⟨0, Faults.none⟩ state.world).1] at hrecord
        cases hrecord
      · have hlineage : ∀ record ∈ records, record.lineage ≠ "" :=
          fun record hrecord hempty => hrefused ⟨record, hrecord, hempty⟩
        have heq : (HistoryCall.append .coarse records).batch = records := by
          rw [HistoryCall.batch_append, if_neg (by simpa using hlineage)]
        rw [heq] at hbatch
        constructor
        -- nothing added: every lineage of the batch was a row before, hence a committed record
        · rintro rfl
          refine Or.inr (fun record hrecord => (hearlier _).mp ?_)
          simpa using hbatch record hrecord
        -- all lineages known before: a row added would repeat a lineage of the rows
        · intro hredundant
          have hredundant := hredundant.resolve_left hrefused
          by_contra hne
          obtain ⟨item, hitem⟩ := List.exists_mem_of_ne_nil _ hne
          obtain ⟨record, hrecord, hlineageEq, -⟩ := (hadded item hitem).record
          rw [heq] at hrecord
          obtain ⟨item', hitem', heq'⟩ := (hearlier _).mpr (hredundant record hrecord)
          rw [List.map_append] at hnodup
          exact (List.disjoint_of_nodup_append hnodup) (List.mem_map_of_mem hitem')
            (List.mem_map.mpr ⟨item, hitem, (heq'.trans hlineageEq).symm⟩)
    -- the other calls are redundant by definition, and what they add is not of the coarse class
    · have htrue : call.Redundant (committedRecords calls) := by
        cases call with
        | append layout records =>
          cases layout with
          | fine => trivial
          | coarse => exact absurd ⟨records, rfl⟩ hcoarse
        | compact key => trivial
        | reap => trivial
      exact ⟨fun _ => htrue,
        fun _ item hitem hmulti => hcoarse ((hadded item hitem).asset.mp hmulti)⟩
  -- completeness, origin and sentinel, each by the part of the history the record comes from
  refine ⟨added, hholds, fun record hrecord => ?_, fun item hitem => ?_, ?_⟩
  · rw [committedRecords_append, List.mem_append] at hrecord
    rcases hrecord with hrecord | hrecord
    · obtain ⟨item, hitem, heq⟩ := h.complete record hrecord
      exact ⟨item, List.mem_append_left _ hitem, heq⟩
    · exact hbatch record hrecord
  · rw [committedRecords_append]
    rcases List.mem_append.mp hitem with hitem | hitem
    · obtain ⟨record, hrecord, heq⟩ := h.given item hitem
      exact ⟨record, List.mem_append_left _ hrecord, heq⟩
    · obtain ⟨record, hrecord, heq⟩ := (hadded item hitem).record
      exact ⟨record, List.mem_append_right _ hrecord, heq⟩
  · rw [coarseRedundant_append, ← h.sentinel, ← hnew]
    exact List.forall_mem_append

/-- Every sequence of calls reaches a sound root that holds what was committed. -/
theorem run_callStep (R : HistoryRuntime) (calls : List HistoryCall) :
    ∃ rows, Reaches R calls (run (callStep R) .initial calls) rows := by
  refine foldl_invariant (P := fun seen state => ∃ rows, Reaches R seen state rows) ?_ calls ?_
  · rintro seen state call ⟨rows, h⟩
    obtain ⟨added, hadded⟩ := h.step call
    exact ⟨rows ++ added, hadded⟩
  · refine ⟨[], ⟨HistoryWorld.sound_empty R, fun p hp => (by cases hp), List.Perm.refl _⟩,
      fun record hrecord => (by cases hrecord), fun item hitem => (by cases hitem), ?_⟩
    refine ⟨fun _ before call after hnil => ?_, fun _ item hitem => (by cases hitem)⟩
    exact absurd hnil (by simp)

/-! ### When the two classes agree -/

/-- The fine class understands a sound root exactly if no stored row is in a coarse partition. -/
theorem HistoryWorld.Sound.fine_understands_iff {w : HistoryWorld} (h : w.Sound R) :
    Layout.fine.Understands w ↔ ∀ item ∈ w.groupedRows, item.1.asset ≠ multiAssetPartition := by
  constructor
  · rintro hfine item hitem
    obtain ⟨p, hp, row, -, rfl⟩ := HistoryWorld.mem_perRow.mp hitem
    exact hfine.resolve_left (by simp) p hp
  · refine fun hrows => Or.inr (fun p hp => ?_)
    obtain ⟨row, hrow⟩ := List.exists_mem_of_ne_nil _ (h.describes hp).2.nonempty
    exact hrows (p.group, row) (HistoryWorld.mem_perRow.mpr ⟨p, hp, row, hrow, rfl⟩)

/-- A range of the fine class with an asset filter has matching rows of fine partitions only. -/
theorem of_mem_collected_fine {w : HistoryWorld} (h : w.Sound R) {window : HistoryWindow}
    (hassets : window.assets ≠ []) {row : HistoryRow}
    (hrow : row ∈ Layout.fine.collected R window w.manifest.partitions (visibleRows w.files)) :
    ∃ p ∈ w.manifest.partitions, row ∈ w.rowsAt p ∧ p.group.asset ≠ multiAssetPartition
      ∧ window.Matches R row.quote := by
  obtain ⟨hrow, hadmits⟩ := List.mem_filter.mp (Dict.mem_of_mem_values_collect hrow)
  obtain ⟨p, hp, hrow⟩ := List.mem_flatMap.mp hrow
  obtain ⟨hp, hselects⟩ := List.mem_filter.mp hp
  obtain ⟨hfile, hdescribes⟩ := h.describes hp
  have hrow : row ∈ w.rowsAt p := by
    rwa [visibleRows, if_neg (by simp [hdescribes.visible])] at hrow
  have hfine : p.group.asset ≠ multiAssetPartition := by
    intro hmulti
    have hasset := hselects
    simp only [Layout.selects, Bool.and_eq_true, Bool.or_eq_true, List.isEmpty_iff, hassets,
      false_or, decide_eq_true_eq, hmulti] at hasset
    obtain ⟨asset, -, heq⟩ := List.mem_map.mp hasset.2
    exact R.upper_ne_multiAsset asset heq
  exact ⟨p, hp, hrow, hfine,
    (hdescribes.selects_and_admits window (Or.inr hfine) hrow).mp ⟨hselects, hadmits⟩⟩

/-- **Ranges.** Both classes have exact ranges if and only if the fine class understands every
    partition. -/
theorem HistoryWorld.Sound.rangesExact_iff {w : HistoryWorld} (h : w.Sound R) :
    RangesExact R w ↔ Layout.fine.Understands w := by
  constructor
  · intro hexact
    rw [h.fine_understands_iff]
    intro item hitem hmulti
    obtain ⟨p, hp, row, hrow, rfl⟩ := HistoryWorld.mem_perRow.mp hitem
    -- the window of the row's own time and asset
    let window : HistoryWindow :=
      ⟨row.quote.observedAt, row.quote.observedAt, [], [row.quote.asset]⟩
    have hmatches : window.Matches R row.quote :=
      ⟨le_refl _, le_refl _, Or.inl rfl, Or.inr (List.mem_map_of_mem (List.mem_singleton.mpr rfl))⟩
    have hstored : row ∈ w.storedRows.filter (fun row => window.Matches R row.quote) :=
      List.mem_filter.mpr ⟨List.mem_flatMap.mpr ⟨p, hp, hrow⟩, decide_eq_true hmatches⟩
    generalize hcollected : Layout.fine.collected R window w.manifest.partitions
      (visibleRows w.files) = collected
    have hfineRows : ∀ other ∈ collected, ∃ q ∈ w.manifest.partitions, other ∈ w.rowsAt q
        ∧ q.group.asset ≠ multiAssetPartition ∧ window.Matches R other.quote := by
      intro other hother
      rw [← hcollected] at hother
      exact of_mem_collected_fine h (List.cons_ne_nil _ _) hother
    have hlength : collected.length
        = (w.storedRows.filter (fun row => window.Matches R row.quote)).length := by
      have hperm := (hexact .fine window).length_eq
      rwa [Layout.range, Layout.rangeRows, hcollected, List.length_map, List.length_map,
        List.length_insertionSort] at hperm
    -- the fine range has the lineages of matching rows, but not that of this row
    have hnot : row.lineage ∉ collected.map HistoryRow.lineage := by
      intro hmem
      obtain ⟨other, hother, heq⟩ := List.mem_map.mp hmem
      obtain ⟨q, hq, hotherRow, hfine, -⟩ := hfineRows other hother
      have hsame : (q.group, other) = (p.group, row) :=
        List.inj_on_of_nodup_map h.lineageNodup
          (HistoryWorld.mem_perRow.mpr ⟨q, hq, other, hotherRow, rfl⟩) hitem heq
      rw [congrArg (fun item => item.1.asset) hsame] at hfine
      exact hfine hmulti
    have hnodup : (row.lineage :: collected.map HistoryRow.lineage).Nodup := by
      refine List.nodup_cons.mpr ⟨hnot, ?_⟩
      rw [← hcollected, Layout.collected, Dict.map_values_collect]
      exact Dict.nodup_keys _
    have hsubset : row.lineage :: collected.map HistoryRow.lineage
        ⊆ (w.storedRows.filter (fun row => window.Matches R row.quote)).map HistoryRow.lineage := by
      refine List.cons_subset.mpr ⟨List.mem_map_of_mem hstored, List.map_subset _ ?_⟩
      intro other hother
      obtain ⟨q, hq, hotherRow, -, hmatch⟩ := hfineRows other hother
      exact List.mem_filter.mpr ⟨List.mem_flatMap.mpr ⟨q, hq, hotherRow⟩, decide_eq_true hmatch⟩
    have hle := (List.subperm_of_subset hnodup hsubset).length_le
    rw [List.length_cons, List.length_map, List.length_map, hlength] at hle
    omega
  · intro hfine layout window
    refine h.range_perm ?_ window
    cases layout with
    | fine => exact hfine
    | coarse => exact Or.inl rfl

/-- **Inventories.** Both inventories are valid if and only if the fine class understands every
    partition. -/
theorem HistoryWorld.Sound.inventoriesValid_iff {w : HistoryWorld} (h : w.Sound R) :
    InventoriesValid R w ↔ Layout.fine.Understands w := by
  constructor
  · refine fun hvalid => Or.inr (fun p hp hmulti => ?_)
    have hfine := hvalid .fine
    rw [h.inventory_invalid hp hmulti] at hfine
    cases hfine
  · intro hfine layout
    refine h.inventory_valid ?_ true
    cases layout with
    | fine => exact hfine
    | coarse => exact Or.inl rfl

/-- After any calls, the fine class understands the root if and only if all batches of the
    coarse class were redundant. -/
theorem Reaches.understands_iff {state : HistoryState} {rows : List (GroupKey × HistoryRow)}
    (h : Reaches R calls state rows) :
    Layout.fine.Understands state.world ↔ CoarseRedundant calls := by
  rw [h.holds.sound.fine_understands_iff, ← h.sentinel]
  exact forall_congr' (fun item => imp_congr_left h.holds.rows.mem_iff)

/-- What was committed is what the root holds. -/
theorem Reaches.committed {state : HistoryState} {rows : List (GroupKey × HistoryRow)}
    (h : Reaches R calls state rows) : Committed calls state.world := by
  have hmem : ∀ row, row ∈ state.world.storedRows ↔ ∃ item ∈ rows, item.2 = row := by
    intro row
    rw [HistoryWorld.storedRows_eq, (h.holds.rows.map Prod.snd).mem_iff, List.mem_map]
  refine ⟨fun record hrecord => ?_, fun row hrow => ?_, ?_⟩
  · obtain ⟨item, hitem, heq⟩ := h.complete record hrecord
    exact ⟨item.2, (hmem _).mpr ⟨item, hitem, rfl⟩, heq⟩
  · obtain ⟨item, hitem, rfl⟩ := (hmem row).mp hrow
    exact h.given item hitem
  · rw [HistoryWorld.storedRows_eq, List.map_map]
    exact h.holds.sound.lineageNodup

/-- **Layout agreement.** After any calls the root holds what was committed; both classes see all
    of it, and verify it, if and only if every batch of the coarse class was refused or had only
    lineages of batches before it. -/
theorem layoutsAgree_iff_coarseRedundant (R : HistoryRuntime) (calls : List HistoryCall) :
    Committed calls (run (callStep R) .initial calls).world
      ∧ (RangesExact R (run (callStep R) .initial calls).world
          ∧ InventoriesValid R (run (callStep R) .initial calls).world
        ↔ CoarseRedundant calls) := by
  obtain ⟨rows, h⟩ := run_callStep R calls
  refine ⟨h.committed, ?_⟩
  rw [h.holds.sound.rangesExact_iff, h.holds.sound.inventoriesValid_iff, and_self,
    h.understands_iff]

end Agreement

/-! ### A migrated root -/

/-- A migration appends one quote through the coarse class. -/
def migratedCalls : List HistoryCall :=
  [.append .coarse [⟨some 1, "lineage", bitcoinQuote 0⟩]]

/-- On a root that a migration wrote, neither the ranges nor the inventories of the two classes
    agree. -/
theorem migrated_disagree :
    ¬ RangesExact .sample (run (callStep .sample) .initial migratedCalls).world
      ∧ ¬ InventoriesValid .sample (run (callStep .sample) .initial migratedCalls).world := by
  obtain ⟨rows, h⟩ := run_callStep .sample migratedCalls
  have hnot : ¬ CoarseRedundant migratedCalls := by
    intro hredundant
    rcases hredundant [] _ [] rfl with ⟨record, hrecord, hempty⟩ | hold
    · rw [List.mem_singleton.mp hrecord] at hempty
      exact absurd hempty (by decide)
    · obtain ⟨old, hmem, -⟩ := hold _ List.mem_cons_self
      cases hmem
  rw [h.holds.sound.rangesExact_iff, h.holds.sound.inventoriesValid_iff, h.understands_iff]
  exact ⟨hnot, hnot⟩

end InefficiencyEngine.History
