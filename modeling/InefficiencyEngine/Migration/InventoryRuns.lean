import InefficiencyEngine.Lib.Machine
import InefficiencyEngine.Migration.MarketInventory
import InefficiencyEngine.Migration.Reconciliation
import InefficiencyEngine.Migration.Sample
import Mathlib.Logic.Equiv.List

namespace InefficiencyEngine.Migration

open Durable Prog

/-!
# The incremental inventory is the one-shot inventory

Between any two writes the inventory file holds the grouped rows up to its checkpoint, and a
cached summary is the one of these rows (`InventorySound`).  The loop ends with a summary only
when the checkpoint has reached the high water, and then the rows are those of the one-shot
query (`boundedInventory_of_run`), wherever earlier runs stopped and whatever high waters they
were for.
-/

variable {R : InventoryRuntime} {src : Source ℤ MarketQuoteRow}
variable {market : KeyedTable ℤ MarketQuoteRow}

/-! ### Groups of lineages -/

/-- The upsert of a batch aggregates a lineage as the query does. -/
theorem lineage_aggregates : Aggregates mergeLineage lineageAggregate where
  nil := rfl
  step rows row := by
    cases rows with
    | nil => rfl
    | cons first rest =>
      simp only [lineageAggregate, List.map_append, List.map_cons, List.map_nil,
        leastOf_append_singleton, greatestOf_append_singleton]
      rfl

/-- The summary of the grouped rows up to a key. -/
theorem summarize_mergeAll (rows : List (ℤ × MarketQuoteRow)) :
    summarize R rows.length (KeyedTable.empty.mergeAll mergeLineage (byLineage rows)).rows
      = summarize R rows.length (groupBy lineageAggregate (byLineage rows)) := by
  rw [lineage_aggregates.rows_mergeAll]

/-! ### The rows up to a key -/

theorem mem_atOrBefore {key? : Option ℤ} {row : ℤ × MarketQuoteRow} :
    row ∈ atOrBeforeHighWater market key? ↔ row ∈ market.rows ∧ ∃ key ∈ key?, row.1 ≤ key := by
  rw [atOrBeforeHighWater, List.mem_filter]
  cases key? with
  | none => simp
  | some key => simp

/-- What a source shows from a read on, up to a high water, is the immutable table. -/
def Source.Shows (src : Source ℤ MarketQuoteRow) (market : KeyedTable ℤ MarketQuoteRow)
    (highWater : Option (List ℤ)) (n : ℕ) : Prop :=
  ∀ i, n ≤ i → atOrBeforeHighWater (src.snapshot i) (highWater.bind List.head?)
    = atOrBeforeHighWater market (highWater.bind List.head?)

/-- **Batch.** The rows up to the last one of a batch are those up to the checkpoint, and the
    batch. The batch was read from another snapshot, which agrees with the market up to the high
    water, and no row between the checkpoint and the last one of the batch can be missing from
    it. -/
theorem atOrBefore_batch {snapshot : KeyedTable ℤ MarketQuoteRow} {highWaterId : ℤ}
    (hshows : atOrBeforeHighWater snapshot (some highWaterId)
      = atOrBeforeHighWater market (some highWaterId))
    {checkpoint : Option ℤ} {batchSize : ℕ}
    {last : ℤ × MarketQuoteRow}
    (hlast : (snapshot.batch (fun id => id ≤ highWaterId) batchSize checkpoint).getLast?
      = some last) :
    last.1 ≤ highWaterId ∧ atOrBeforeHighWater market (some last.1)
      = atOrBeforeHighWater market checkpoint
        ++ snapshot.batch (fun id => id ≤ highWaterId) batchSize checkpoint := by
  have hbatch : ∀ row ∈ snapshot.batch (fun id => id ≤ highWaterId) batchSize checkpoint,
      row ∈ snapshot.rows ∧ row.1 ≤ highWaterId ∧ ∀ key ∈ checkpoint, key < row.1 := by
    intro row hrow
    obtain ⟨hmem, hbound, hafter⟩ := KeyedTable.mem_of_mem_batch hrow
    exact ⟨hmem, of_decide_eq_true hbound, hafter⟩
  obtain ⟨-, hlastLe, hlastAfter⟩ := hbatch last (List.mem_of_getLast? hlast)
  -- up to the high water the snapshot has the rows of the market
  have hmarket : ∀ row : ℤ × MarketQuoteRow, row.1 ≤ highWaterId →
      (row ∈ market.rows ↔ row ∈ snapshot.rows) := by
    intro row hrow
    have hmem := congrArg (fun rows => row ∈ rows) hshows
    simp only [mem_atOrBefore, Option.mem_some_iff, exists_eq_left', hrow, and_true]
      at hmem
    exact iff_of_eq hmem.symm
  have hsorted := snapshot.sorted_batch (fun id => id ≤ highWaterId) batchSize checkpoint
  refine ⟨hlastLe, KeyedTable.eq_of_mem_iff (market.sorted.filter _) ?_ (fun row => ?_)⟩
  · refine List.pairwise_append.mpr ⟨market.sorted.filter _, hsorted, fun a ha b hb => ?_⟩
    obtain ⟨-, key, hkey, hle⟩ := mem_atOrBefore.mp ha
    exact lt_of_le_of_lt hle ((hbatch b hb).2.2 key hkey)
  · rw [List.mem_append, mem_atOrBefore, mem_atOrBefore]
    constructor
    · rintro ⟨hrow, key, hkey, hle'⟩
      rw [Option.mem_some_iff] at hkey
      subst hkey
      have hrowLe : row.1 ≤ highWaterId := hle'.trans hlastLe
      -- a row up to the last one is at or before the checkpoint, or in the batch
      by_cases hbefore : ∃ key ∈ checkpoint, row.1 ≤ key
      · exact Or.inl ⟨hrow, hbefore⟩
      · have hafter : row ∈ snapshot.rowsAfter (fun id => id ≤ highWaterId) checkpoint := by
          refine KeyedTable.mem_rowsAfter.mpr ⟨(hmarket row hrowLe).mp hrow,
            decide_eq_true hrowLe, fun key hkey => ?_⟩
          exact lt_of_not_ge (fun hge => hbefore ⟨key, hkey, hge⟩)
        refine Or.inr ((KeyedTable.mem_batch_or hafter hlast).resolve_right (fun hlt => ?_))
        exact absurd hlt (not_lt_of_ge hle')
    · rintro (⟨hrow, key, hkey, hle'⟩ | hrow)
      · exact ⟨hrow, last.1, rfl, hle'.trans (hlastAfter key hkey).le⟩
      · obtain ⟨hmem, hbound, -⟩ := hbatch row hrow
        refine ⟨(hmarket row hbound).mpr hmem, last.1, rfl, ?_⟩
        obtain ⟨init, hinit⟩ := List.getLast?_eq_some_iff.mp hlast
        rw [hinit] at hrow hsorted
        rcases List.mem_append.mp hrow with hrow | hrow
        · exact ((List.pairwise_append.mp hsorted).2.2 row hrow last List.mem_cons_self).le
        · rw [List.mem_singleton.mp hrow]

/-! ### The invariant of the file -/

/-- The file holds the grouped rows up to its checkpoint, which is not after its high water; a
    cached summary is that of these rows and was the last one committed, for the high water it
    is marked with. -/
structure InventorySound (R : InventoryRuntime) (market : KeyedTable ℤ MarketQuoteRow)
    (s : InventoryWorld) : Prop where
  lineages : s.file.lineages = KeyedTable.empty.mergeAll mergeLineage
    (byLineage (atOrBeforeHighWater market s.file.checkpoint))
  sourceRows : s.file.sourceRows = (atOrBeforeHighWater market s.file.checkpoint).length
  checkpoint_le : ∀ key ∈ s.file.checkpoint, ∃ highWaterId,
    s.file.highWater = some (some [highWaterId]) ∧ key ≤ highWaterId
  cached : ∀ inventory ∈ s.file.finalSummaryPayload, inventory = s.file.finalize R
    ∧ ∀ token ∈ s.file.finalSummaryHighWater, s.summaries.getLast? = some (token, inventory)

namespace InventorySound

variable {s : InventoryWorld}

/-- A file scanned up to the high water has the summary of the query. -/
theorem finalize_eq (h : InventorySound R market s) {highWater : Option (List ℤ)}
    (hcheckpoint : s.file.checkpoint = highWater.bind List.head?) :
    s.file.finalize R = sourceMarketInventory R market highWater := by
  rw [InventoryFile.finalize, h.lineages, h.sourceRows, hcheckpoint, summarize_mergeAll,
    sourceMarketInventory]

/-- The file alone matters. -/
theorem of_file {s' : InventoryWorld} (h : InventorySound R market s) (hfile : s'.file = s.file)
    (hsummaries : s'.summaries = s.summaries) : InventorySound R market s' := by
  refine ⟨?_, ?_, ?_, ?_⟩
  all_goals rw [hfile]
  · exact h.lineages
  · exact h.sourceRows
  · exact h.checkpoint_le
  · rw [hsummaries]
    exact h.cached

/-- A file that is emptied for another high water. -/
theorem reset (s : InventoryWorld) (token : Option (List ℤ)) :
    InventorySound R market (commit s (InventoryWrite.reset token)) := by
  refine ⟨?_, ?_, fun key hkey => (by cases hkey), fun inventory hcached => (by cases hcached)⟩
  · show KeyedTable.empty = KeyedTable.empty.mergeAll mergeLineage
      (byLineage (atOrBeforeHighWater market none))
    simp [atOrBeforeHighWater, byLineage, KeyedTable.mergeAll]
  · show 0 = (atOrBeforeHighWater market none).length
    simp [atOrBeforeHighWater]

/-- A batch that the source shows is merged into the file. -/
theorem accumulate (h : InventorySound R market s) {highWaterId : ℤ}
    (hhighWater : s.file.highWater = some (some [highWaterId]))
    {rows : List (ℤ × MarketQuoteRow)} {last : ℤ × MarketQuoteRow}
    (hlast : last.1 ≤ highWaterId ∧ atOrBeforeHighWater market (some last.1)
      = atOrBeforeHighWater market s.file.checkpoint ++ rows) :
    InventorySound R market (commit s
      (InventoryWrite.accumulate rows last.1 (s.file.sourceRows + rows.length))) := by
  obtain ⟨hle, hrows⟩ := hlast
  refine ⟨?_, ?_, fun key hkey => ?_, fun inventory hcached => (by cases hcached)⟩
  · show s.file.lineages.mergeAll mergeLineage (byLineage rows) = KeyedTable.empty.mergeAll
      mergeLineage (byLineage (atOrBeforeHighWater market (some last.1)))
    rw [hrows, h.lineages, byLineage, byLineage, byLineage, List.map_append,
      KeyedTable.mergeAll_append]
  · show s.file.sourceRows + rows.length = (atOrBeforeHighWater market (some last.1)).length
    rw [hrows, List.length_append, h.sourceRows]
  · have hkey : key ∈ some last.1 := hkey
    rw [Option.mem_some_iff] at hkey
    exact ⟨highWaterId, hhighWater, hkey ▸ hle⟩

/-- The summary of the file is kept. -/
theorem persistSummary (h : InventorySound R market s) (token : Option (List ℤ)) (checkpoint : ℤ) :
    InventorySound R market (commit s
      (InventoryWrite.persistSummary token checkpoint (s.file.finalize R))) := by
  refine ⟨h.lineages, h.sourceRows, h.checkpoint_le, fun inventory hcached => ?_⟩
  have hcached : inventory ∈ some (s.file.finalize R) := hcached
  rw [Option.mem_some_iff] at hcached
  refine ⟨hcached.symm, fun token' htoken => ?_⟩
  have htoken : token' ∈ some token := htoken
  rw [Option.mem_some_iff] at htoken
  show (s.summaries ++ [(token, s.file.finalize R)]).getLast? = _
  rw [List.getLast?_append_of_ne_nil _ (List.cons_ne_nil _ _), ← hcached, htoken]
  rfl

end InventorySound

/-! ### What a run does -/

/-- A run is under way: the file is for its high water, it has committed no summary, and its
    reads show the immutable table. -/
structure Scanning (R : InventoryRuntime) (src : Source ℤ MarketQuoteRow)
    (market : KeyedTable ℤ MarketQuoteRow) (highWater : Option (List ℤ))
    (before : List (Option (List ℤ) × SourceInventory)) (s : InventoryWorld) : Prop where
  sound : InventorySound R market s
  shows : src.Shows market highWater s.world.reads.length
  summaries : s.summaries = before
  highWater : s.file.highWater = some highWater

section Parts

variable {highWater : Option (List ℤ)} {before : List (Option (List ℤ) × SourceInventory)}
variable {batchSize : ℕ}

/-- Blocks of one write that keeps the file sound. -/
theorem keeps_single {I : InventoryWorld → Prop} {s : InventoryWorld} {write : InventoryWrite}
    (h : I s → I (commit s write)) : Along.Keeps I s [write] := by
  intro hs n
  cases n with
  | zero => exact hs
  | succ n =>
    show I (commitAll s ([write].take (n + 1)))
    simpa using h hs

/-- A report changes neither the file nor the reads. -/
theorem spec_publishInventory {Q : InventoryWorld → Prop}
    (update : InventoryReport → InventoryReport) :
    Spec (fun s => Q { s with report := update s.report }) (publishInventory update)
      (Along.Keeps (InventorySound R market)) (fun _ => Q) :=
  spec_block (fun _ _ => keeps_single (fun hs => hs.of_file rfl rfl)) (fun _ _ hs _ => hs)

theorem Scanning.reported {s : InventoryWorld} (h : Scanning R src market highWater before s)
    (report : InventoryReport) :
    Scanning R src market highWater before { s with report := report } :=
  ⟨h.sound.of_file rfl rfl, h.shows, h.summaries, h.highWater⟩

/-- `_prepare_inventory` empties a file that is for another high water. -/
theorem spec_prepareInventory :
    Spec (fun s => InventorySound R market s ∧ src.Shows market highWater s.world.reads.length
        ∧ s.summaries = before)
      (prepareInventory highWater) (Along.Keeps (InventorySound R market))
      (fun result s => Scanning R src market highWater before s
        ∧ result = (s.file.checkpoint, s.file.sourceRows)) := by
  have hread : ∀ s₀ : InventoryWorld, Scanning R src market highWater before s₀ →
      Spec (fun s => s = s₀) (pure (s₀.file.checkpoint, s₀.file.sourceRows) : InventoryProg _)
        (Along.Keeps (InventorySound R market))
        (fun result s => Scanning R src market highWater before s
          ∧ result = (s.file.checkpoint, s.file.sourceRows)) := by
    intro s₀ hs₀
    refine (spec_pure (Q := fun result (s : InventoryWorld) =>
      Scanning R src market highWater before s
        ∧ result = (s.file.checkpoint, s.file.sourceRows)) _).pre (fun s hs => ?_)
    rw [hs]
    exact ⟨hs₀, rfl⟩
  refine spec_get_bind (fun s₀ hs₀ => ?_)
  obtain ⟨hsound, hshows, hsummaries⟩ := hs₀
  by_cases hfile : s₀.file.highWater ≠ some highWater
  · rw [if_pos hfile]
    refine spec_bind (Q := fun _ => Scanning R src market highWater before)
      ((spec_write _).pre (fun s hs => ?_)) (fun _ => spec_get_bind hread)
    subst hs
    exact ⟨keeps_single (fun _ => InventorySound.reset _ _), InventorySound.reset _ _, hshows,
      hsummaries, rfl⟩
  · rw [if_neg hfile]
    refine (spec_get_bind hread).pre (fun s hs => ?_)
    subst hs
    exact ⟨hsound, hshows, hsummaries, not_not.mp hfile⟩

/-- A read of a batch shows rows of the immutable table and changes nothing of the file. A read
    touches the world of the source alone, so the file, its summaries and the high water are as
    they were. -/
theorem spec_readBatch (checkpoint : Option ℤ) (sourceRows : ℕ) :
    Spec (fun s => Scanning R src market highWater before s ∧ s.file.checkpoint = checkpoint
        ∧ s.file.sourceRows = sourceRows)
      ((sourceReadWithRetry R.toRuntime src "market_source_inventory_batch"
        (readMarketInventoryBatch highWater checkpoint batchSize)).within readsView)
      (Along.Keeps (InventorySound R market))
      (fun value s => (Scanning R src market highWater before s ∧ s.file.checkpoint = checkpoint
        ∧ s.file.sourceRows = sourceRows)
        ∧ ∃ snapshot, atOrBeforeHighWater snapshot (highWater.bind List.head?)
            = atOrBeforeHighWater market (highWater.bind List.head?)
          ∧ value = readMarketInventoryBatch highWater checkpoint batchSize snapshot) := by
  refine spec_of_forall (fun s₀ hs₀ => ?_)
  obtain ⟨hscanning, hcheckpoint, hsourceRows⟩ := hs₀
  have hread : Spec (fun t => t = s₀.world) (sourceReadWithRetry R.toRuntime src
      "market_source_inventory_batch" (readMarketInventoryBatch highWater checkpoint batchSize))
      (ReadStep "market_source_inventory_batch") (fun value t => ∃ t₀ i, t₀ = s₀.world
        ∧ AfterRead "market_source_inventory_batch" i t₀ t
        ∧ value = readMarketInventoryBatch highWater checkpoint batchSize (src.snapshot i)) :=
    spec_sourceRead (fun _ _ h => h)
  -- neither a read nor a report on it changes the inventory's file
  have hblocks : ∀ (s : InventoryWorld) block,
      (s.file = s₀.file ∧ s.summaries = s₀.summaries) →
      ReadStep "market_source_inventory_batch" (readsView.part s) block →
      Along.Keeps (InventorySound R market) s (block.map readsView.inject) := by
    intro s block _ hblock
    cases hblock with
    | read => exact keeps_single (fun hs => hs.of_file rfl rfl)
    | publish transport => exact keeps_single (fun hs => hs.of_file rfl rfl)
  have hwithin := spec_within (v := readsView) hread
    (F := fun s => s.file = s₀.file ∧ s.summaries = s₀.summaries)
    (fun _ _ h => h) hblocks
  refine hwithin.weaken (fun s hs => hs ▸ ⟨rfl, rfl, rfl⟩) (fun _ _ h => h) ?_
  rintro value s ⟨⟨_, i, rfl, hafter, hvalue⟩, hfile, hsummaries⟩
  have hlength : s.world.reads.length = i + 1 := hafter.length_reads
  have hstart : s₀.world.reads.length ≤ i := hafter.start_le
  refine ⟨⟨⟨hscanning.sound.of_file hfile hsummaries, fun j hj => hscanning.shows j (by omega),
    hsummaries.trans hscanning.summaries, hfile ▸ hscanning.highWater⟩, hfile ▸ hcheckpoint,
    hfile ▸ hsourceRows⟩, src.snapshot i, hscanning.shows i hstart, hvalue⟩

/-- What a batch that was read lets the file become. -/
theorem Scanning.accumulated {s : InventoryWorld} (h : Scanning R src market highWater before s)
    {snapshot : KeyedTable ℤ MarketQuoteRow}
    (hshows : atOrBeforeHighWater snapshot (highWater.bind List.head?)
      = atOrBeforeHighWater market (highWater.bind List.head?))
    {rows : List (ℤ × MarketQuoteRow)}
    (hrows : readMarketInventoryBatch highWater s.file.checkpoint batchSize snapshot = .ok rows)
    {last : ℤ × MarketQuoteRow} (hlast : rows.getLast? = some last) :
    Scanning R src market highWater before (commit s
      (InventoryWrite.accumulate rows last.1 (s.file.sourceRows + rows.length))) := by
  match highWater, hrows, hshows, h with
  | none, hrows, _, _ | some [], hrows, _, _ =>
    cases hrows
    cases hlast
  | some (_ :: _ :: _), hrows, _, _ => cases hrows
  | some [highWaterId], hrows, hshows, h =>
    rw [readMarketInventoryBatch, Except.ok.injEq] at hrows
    subst hrows
    exact ⟨h.sound.accumulate h.highWater (atOrBefore_batch hshows hlast), h.shows, h.summaries,
      h.highWater⟩

/-- **Loop.** The batches keep the file sound. Each iteration has read its batch from a source
    that shows the same rows up to the high water, so what was accumulated is what one read
    would have accumulated. -/
theorem spec_scanBatches (fuel : ℕ) (checkpoint : Option ℤ) (sourceRows : ℕ) :
    Spec (fun s => Scanning R src market highWater before s ∧ s.file.checkpoint = checkpoint
        ∧ s.file.sourceRows = sourceRows)
      (scanBatches R src highWater batchSize fuel checkpoint sourceRows)
      (Along.Keeps (InventorySound R market))
      (fun _ => Scanning R src market highWater before) := by
  induction fuel generalizing checkpoint sourceRows with
  | zero =>
    rw [scanBatches]
    split
    · exact (spec_pure (Q := fun _ => Scanning R src market highWater before) ()).pre
        (fun s hs => hs.1)
    · exact spec_raise _
  -- an iteration: the batch, the rows accumulated from it, and the report on it
  | succ fuel ih =>
    rw [scanBatches]
    split
    · exact (spec_pure (Q := fun _ => Scanning R src market highWater before) ()).pre
        (fun s hs => hs.1)
    refine spec_bind (spec_readBatch checkpoint sourceRows) (fun batch => ?_)
    refine spec_bind (spec_lift batch) (fun rows => ?_)
    -- an empty batch ends the scan
    by_cases hrows : rows = []
    · rw [if_pos hrows]
      exact (spec_pure (Q := fun _ => Scanning R src market highWater before) ()).pre
        (fun s hs => hs.1.1.1)
    rw [if_neg hrows]
    obtain ⟨last, hlast⟩ := Option.ne_none_iff_exists'.mp (mt List.getLast?_eq_none_iff.mp hrows)
    rw [accumulateBatch, hlast]
    dsimp only
    refine spec_bind (Q := fun result s => (Scanning R src market highWater before s
      ∧ s.file.checkpoint = some last.1 ∧ s.file.sourceRows = sourceRows + rows.length)
        ∧ result = (last.1, sourceRows + rows.length)) ?_ (fun result => spec_of_fact ?_)
    · refine spec_bind ((spec_write (Q := fun _ s => Scanning R src market highWater before s
        ∧ s.file.checkpoint = some last.1 ∧ s.file.sourceRows = sourceRows + rows.length) _).pre
          (fun s hs => ?_)) (fun _ => (spec_pure (Q := fun result (s : InventoryWorld) =>
            (Scanning R src market highWater before s ∧ s.file.checkpoint = some last.1
              ∧ s.file.sourceRows = sourceRows + rows.length)
                ∧ result = (last.1, sourceRows + rows.length)) _).pre (fun s hs => ⟨hs, rfl⟩))
      obtain ⟨⟨⟨hscanning, rfl, rfl⟩, snapshot, hshows, hvalue⟩, hok⟩ := hs
      have haccumulated := hscanning.accumulated hshows (hvalue.symm.trans hok) hlast
      exact ⟨keeps_single (fun _ => haccumulated.sound), haccumulated, rfl, rfl⟩
    · rintro rfl
      refine spec_bind ((spec_publishInventory _).pre (fun s hs => ?_))
        (fun _ => ih (some last.1) (sourceRows + rows.length))
      exact ⟨hs.1.reported _, hs.2⟩

/-- A summary is taken from the cache only if it is the last one committed, and for this high
    water. -/
theorem InventorySound.cached_eq {s : InventoryWorld} (h : InventorySound R market s)
    {highWater : Option (List ℤ)} {inventory : SourceInventory}
    (hread : s.file.readFinalized R highWater = some inventory) :
    inventory = sourceMarketInventory R market highWater
      ∧ s.summaries.getLast? = some (highWater, inventory) := by
  unfold InventoryFile.readFinalized at hread
  split at hread
  · rename_i highWaterId
    split_ifs at hread with hhighWater hcheckpoint hversion htoken hsummary
    rw [not_not] at hcheckpoint htoken
    have hpayload : s.file.finalSummaryPayload = some inventory := by
      unfold validatedFinalSummaryPayload at hread
      split at hread
      · cases hread
      · rename_i payload hpayload
        split_ifs at hread
        rw [← hread]
        exact hpayload
    obtain ⟨hinventory, hlast⟩ := h.cached inventory hpayload
    exact ⟨hinventory.trans (h.finalize_eq hcheckpoint), hlast _ htoken⟩
  · cases hread

/-- A run's summary is that of the query, and was the last one committed if it is a cached one. -/
def IsSummary (R : InventoryRuntime) (market : KeyedTable ℤ MarketQuoteRow)
    (highWater : Option (List ℤ)) (before : List (Option (List ℤ) × SourceInventory))
    (inventory : SourceInventory) (summarySource : SummarySource) : Prop :=
  inventory = sourceMarketInventory R market highWater
    ∧ (summarySource = .durableCache → before.getLast? = some (highWater, inventory))

/-- `_persist_finalized_inventory` returns only if the scan has reached the high water. -/
theorem spec_persistFinalizedInventory {s₀ : InventoryWorld}
    (hs₀ : Scanning R src market highWater before s₀)
    (hlength : ∀ key ∈ highWater, key.length = 1) :
    Spec (fun s => s = s₀) (persistFinalizedInventory (s₀.file.finalize R) highWater)
      (Along.Keeps (InventorySound R market))
      (fun _ _ => s₀.file.checkpoint = highWater.bind List.head?) := by
  match highWater, hlength, hs₀ with
  | none, _, hs₀ =>
    refine (spec_pure (Q := fun _ (_ : InventoryWorld) => s₀.file.checkpoint = none) ()).pre
      (fun s hs => Option.eq_none_iff_forall_not_mem.mpr (fun key hkey => ?_))
    -- a file that is for no high water has no checkpoint
    obtain ⟨highWaterId, htoken, -⟩ := hs₀.sound.checkpoint_le key hkey
    rw [hs₀.highWater] at htoken
    cases htoken
  | some [], hlength, _ => exact absurd (hlength [] rfl) (by decide)
  | some (_ :: _ :: _), hlength, _ => exact absurd (hlength _ rfl) (by simp)
  | some [highWaterId], _, hs₀ =>
    refine spec_get_bind (fun s hs => ?_)
    subst hs
    split_ifs with hhighWater hcheckpoint hsourceRows
    · exact spec_raise _
    · exact spec_raise _
    · exact spec_raise _
    · refine (spec_write _).pre (fun t ht => ⟨?_, not_not.mp hcheckpoint⟩)
      subst ht
      exact keeps_single (fun hsound => hsound.persistSummary _ _)

/-- The summary of a run under way is that of the query. -/
theorem spec_finishInventory (hlength : ∀ key ∈ highWater, key.length = 1) :
    Spec (Scanning R src market highWater before) (finishInventory R highWater)
      (Along.Keeps (InventorySound R market))
      (fun result _ => IsSummary R market highWater before result.1 result.2) := by
  have hpure : ∀ {result : SourceInventory × SummarySource} {φ : Prop},
      (φ → IsSummary R market highWater before result.1 result.2) →
      Spec (fun _ => φ) (pure result : InventoryProg _) (Along.Keeps (InventorySound R market))
        (fun result _ => IsSummary R market highWater before result.1 result.2) := by
    intro result φ h
    exact (spec_pure (Q := fun (result : SourceInventory × SummarySource) (_ : InventoryWorld) =>
      IsSummary R market highWater before result.1 result.2) result).pre (fun _ hφ => h hφ)
  refine spec_get_bind (fun s₀ hs₀ => ?_)
  cases hread : s₀.file.readFinalized R highWater with
  | some inventory =>
    obtain ⟨hinventory, hlast⟩ := hs₀.sound.cached_eq hread
    rw [hs₀.summaries] at hlast
    exact (hpure (φ := True) (fun _ => ⟨hinventory, fun _ => hlast⟩)).pre (fun _ _ => trivial)
  | none =>
    refine spec_bind (spec_persistFinalizedInventory hs₀ hlength) (fun _ => hpure ?_)
    exact fun hcheckpoint => ⟨hs₀.sound.finalize_eq hcheckpoint, fun h => (by cases h)⟩

variable (R src highWater batchSize) in
/-- **Run.** A run keeps the file sound wherever it stops, and what it returns is the inventory
    of the query. -/
theorem spec_boundedMarketSourceInventory (fuel : ℕ) :
    Spec (fun s => InventorySound R market s ∧ src.Shows market highWater s.world.reads.length
        ∧ s.summaries = before)
      (boundedMarketSourceInventory R src fuel batchSize highWater)
      (Along.Keeps (InventorySound R market))
      (fun inventory s => ∃ summarySource, s.report.finalSummarySource = some summarySource
        ∧ IsSummary R market highWater before inventory summarySource) := by
  unfold boundedMarketSourceInventory
  split_ifs with hany
  · exact spec_raise _
  have hlength : ∀ key ∈ highWater, key.length = 1 := by
    rintro key hkey
    by_contra hne
    exact hany (by simpa [Option.mem_def.mp hkey] using hne)
  refine spec_bind spec_prepareInventory (fun ⟨checkpoint, sourceRows⟩ => ?_)
  refine spec_bind (Q := fun _ s => Scanning R src market highWater before s
    ∧ s.file.checkpoint = checkpoint ∧ s.file.sourceRows = sourceRows)
      ((spec_publishInventory _).pre (fun s hs => ?_)) (fun _ => ?_)
  · obtain ⟨hscanning, hresult⟩ := hs
    rw [Prod.mk.injEq] at hresult
    exact ⟨hscanning.reported _, hresult.1.symm, hresult.2.symm⟩
  refine spec_bind (spec_scanBatches fuel checkpoint sourceRows) (fun _ => ?_)
  refine spec_bind (spec_finishInventory hlength) (fun ⟨inventory, summarySource⟩ => ?_)
  refine spec_bind (Q := fun _ s => s.report.finalSummarySource = some summarySource
    ∧ IsSummary R market highWater before inventory summarySource)
      ((spec_publishInventory _).pre (fun s hs => ⟨rfl, hs⟩)) (fun _ => ?_)
  exact (spec_pure (Q := fun inventory (s : InventoryWorld) => ∃ summarySource,
    s.report.finalSummarySource = some summarySource
      ∧ IsSummary R market highWater before inventory summarySource) inventory).pre
        (fun s hs => ⟨summarySource, hs⟩)

end Parts

/-! ### Runs -/

/-- A call of the inventory, and after how many writes it stops, if it does. -/
structure InventoryCall where
  highWater : Option (List ℤ)
  batchSize : ℕ
  fuel : ℕ
  stop : Option ℕ

/-- The program of a call. -/
def InventoryCall.prog (R : InventoryRuntime) (src : Source ℤ MarketQuoteRow)
    (call : InventoryCall) : InventoryProg SourceInventory :=
  boundedMarketSourceInventory R src call.fuel call.batchSize call.highWater

/-- What a call leaves, wherever it stops. -/
def inventoryStep (R : InventoryRuntime) (src : Source ℤ MarketQuoteRow) (s : InventoryWorld)
    (call : InventoryCall) : InventoryWorld :=
  (call.prog R src).leaves s call.stop

/-- From the call on, the source shows the rows of the immutable table up to the high water that
    the call is for. -/
def InventoryCall.Visible (src : Source ℤ MarketQuoteRow) (market : KeyedTable ℤ MarketQuoteRow)
    (s : InventoryWorld) (call : InventoryCall) : Prop :=
  src.Shows market call.highWater s.world.reads.length

/-- **Step.** A call keeps the file sound wherever it stops. -/
theorem InventorySound.step {s : InventoryWorld} (h : InventorySound R market s)
    {call : InventoryCall} (hvisible : call.Visible src market s) :
    InventorySound R market (inventoryStep R src s call) :=
  leaves_invariant (((spec_boundedMarketSourceInventory R src call.highWater call.batchSize
    call.fuel).guarantee s ⟨h, hvisible, rfl⟩).keeps h) call.stop

/-- A file that no run has touched. -/
theorem InventorySound.initial (world : World ℤ MarketQuoteRow) (report : InventoryReport) :
    InventorySound R market ⟨world, report, .empty, []⟩ := by
  -- its progress is that of a file just reset
  have hreset : InventorySound R market
      (commit ⟨world, report, .empty, []⟩ (InventoryWrite.reset none)) := InventorySound.reset _ _
  refine ⟨?_, ?_, fun key hkey => (by cases hkey), fun inventory hcached => (by cases hcached)⟩
  · exact hreset.1
  · exact hreset.2

/-- **Equivalence.** Whatever runs came before, for whatever high waters and in whatever batches,
    and wherever they stopped: a run that returns has the inventory of the one-shot query for its
    high water, and one that took it from the cache took the last summary committed, which was
    committed for the same high water. -/
theorem boundedInventory_of_run (R : InventoryRuntime) (src : Source ℤ MarketQuoteRow)
    (market : KeyedTable ℤ MarketQuoteRow) (world : World ℤ MarketQuoteRow)
    (report : InventoryReport) (calls : List InventoryCall)
    (hcalls : Meets (inventoryStep R src) (fun s call => call.Visible src market s)
      ⟨world, report, .empty, []⟩ calls)
    (call : InventoryCall)
    (hcall : call.Visible src market
      (run (inventoryStep R src) ⟨world, report, .empty, []⟩ calls))
    (inventory : SourceInventory)
    (hreturn : (call.prog R src (run (inventoryStep R src) ⟨world, report, .empty, []⟩ calls)).2
      = .ok inventory) :
    inventory = sourceMarketInventory R market call.highWater
      ∧ (((call.prog R src).final (run (inventoryStep R src) ⟨world, report, .empty, []⟩
            calls)).report.finalSummarySource = some .durableCache →
          (run (inventoryStep R src) ⟨world, report, .empty, []⟩ calls).summaries.getLast?
            = some (call.highWater, inventory)) := by
  have hsound := run_invariant (I := InventorySound R market)
    (fun s call hs hvisible => hs.step hvisible) (.initial world report) hcalls
  obtain ⟨summarySource, hsource, hinventory, hcached⟩ :=
    (spec_boundedMarketSourceInventory R src call.highWater call.batchSize call.fuel).post _
      inventory ⟨hsound, hcall, rfl⟩ hreturn
  refine ⟨hinventory, fun hdurable => hcached ?_⟩
  have hdurable := hsource.symm.trans hdurable
  exact Option.some.inj hdurable

/-! ### A run that is cut off and one that resumes it -/

/-- The code points of a text. -/
def codePoints (text : String) : List ℕ := text.toList.map Char.toNat

theorem ofList_codePoints (text : String) :
    String.ofList ((codePoints text).map Char.ofNat) = text := by
  simp [codePoints, Function.comp_def]

/-- A row is encoded by the code points of its columns. -/
instance MarketQuoteRow.encodable : Encodable MarketQuoteRow :=
  Encodable.ofLeftInjection
    (fun row => [codePoints row.lineageHash, codePoints row.venue, codePoints row.asset,
      codePoints row.observedAt, codePoints row.payloadJson])
    (fun
      | [lineageHash, venue, asset, observedAt, payloadJson] =>
        some ⟨.ofList (lineageHash.map Char.ofNat), .ofList (venue.map Char.ofNat),
          .ofList (asset.map Char.ofNat), .ofList (observedAt.map Char.ofNat),
          .ofList (payloadJson.map Char.ofNat)⟩
      | _ => none)
    (fun _ => by simp only [ofList_codePoints])

/-- A runtime for inventories. -/
def InventoryRuntime.sample : InventoryRuntime where
  toRuntime := .sample
  upper text := String.ofList (text.toList.map Char.toUpper)
  isHexadecimal text := text.toList.all (fun c => c.isDigit || c ∈ "abcdef".toList)

/-- A market of two quotes. -/
def twoQuotes : KeyedTable ℤ MarketQuoteRow :=
  ⟨[(1, ⟨"b", "kraken", "ETH", "2026-08-29T02:00:00+00:00", "null"⟩),
    (2, ⟨"a", "kraken", "BTC", "2026-08-29T01:00:00+00:00", "null"⟩)], by decide⟩

/-- The world before the first run of the inventory. -/
def inventoryStart : InventoryWorld :=
  ⟨.start .empty, ⟨none, none, none, none, none, none⟩, .empty, []⟩

/-- A run in batches of one quote that stops after the first of them. -/
def cutOffCall : InventoryCall := ⟨some [2], 1, 3, some 4⟩

/-- A run in batches of one quote that goes on to its end. -/
def resumedCall : InventoryCall := ⟨some [2], 1, 3, none⟩

/-- The run that resumes a cut-off one, in batches of one quote, has the inventory that one query
    over the whole table has. -/
theorem boundedInventory_resumed :
    ∃ inventory, (resumedCall.prog .sample (Source.constant twoQuotes)
        (inventoryStep .sample (Source.constant twoQuotes) inventoryStart cutOffCall)).2
          = .ok inventory
      ∧ inventory = sourceMarketInventory .sample twoQuotes (some [2]) :=
  ⟨_, rfl, (boundedInventory_of_run .sample (Source.constant twoQuotes) twoQuotes (.start .empty)
    ⟨none, none, none, none, none, none⟩ [cutOffCall] ⟨fun _ _ => rfl, trivial⟩ resumedCall
    (fun _ _ => rfl) _ rfl).1⟩

end InefficiencyEngine.Migration
