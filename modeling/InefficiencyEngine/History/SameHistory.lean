import InefficiencyEngine.History.LayoutAgreement
import InefficiencyEngine.Lib.StableSort
import Mathlib.Data.List.Dedup

namespace InefficiencyEngine.History

open Portfolio Durable

/-!
# Two roots with the same history

Two roots are fed with the same batches, one through the coarse class and one through the fine
class, each with compactions of its own.  They number their rows and cut their files differently,
but they hold the same lineages with the same quotes, and that is all that ranges and inventories
show.
-/

/-- What a class is called for: appends go through it. -/
def HistoryCall.Through (layout : Layout) : HistoryCall → Prop
  | .append other _ => other = layout
  | _ => True

/-- The batches that are appended, in their order. -/
def batchesOf (calls : List HistoryCall) : List (List HistoryRecord) :=
  calls.filterMap fun call =>
    match call with
    | .append _ records => some records
    | _ => none

/-- A lineage hash determines its quote. -/
def LineageDetermines (records : List HistoryRecord) : Prop :=
  ∀ a ∈ records, ∀ b ∈ records, a.lineage = b.lineage → a.quote = b.quote

/-- What a root holds, without its numbers and files: each lineage with its quote. -/
def HistoryWorld.contents (w : HistoryWorld) : List (String × QuoteRecord) :=
  w.storedRows.map (fun row => (row.lineage, row.quote))

/-- Two inventories that agree on all but the files. -/
structure MarketInventory.Agrees (a b : MarketInventory) : Prop where
  rowCount : a.rowCount = b.rowCount
  lineageCount : a.lineageCount = b.lineageCount
  lineageDigest : a.lineageDigest = b.lineageDigest
  minObservedAt : a.minObservedAt = b.minObservedAt
  maxObservedAt : a.maxObservedAt = b.maxObservedAt
  identities : a.identities = b.identities

/-! ### Lists in another order -/

section Perm

variable {α : Type}

theorem insertionSort_eq_of_perm [LinearOrder α] {xs ys : List α} (h : xs.Perm ys) :
    xs.insertionSort (· ≤ ·) = ys.insertionSort (· ≤ ·) :=
  ((List.perm_insertionSort _ xs).trans (h.trans (List.perm_insertionSort _ ys).symm)).eq_of_pairwise'
    (List.pairwise_insertionSort _ xs) (List.pairwise_insertionSort _ ys)

end Perm

section Contents

variable {R : HistoryRuntime} {layout : Layout} {w : HistoryWorld} {calls : List HistoryCall}

/-- The lineages of the contents are distinct. -/
theorem HistoryWorld.Sound.nodup_contents (h : w.Sound R) :
    (w.contents.map Prod.fst).Nodup := by
  have hall : (w.storedRows.map HistoryRow.lineage).Nodup := by
    rw [w.storedRows_eq, List.map_map]
    exact h.lineageNodup
  rwa [HistoryWorld.contents, List.map_map]

/-- **Ranges** show the contents that match. -/
theorem HistoryWorld.Sound.range_contents (h : w.Sound R) (hlayout : layout.Understands w)
    (window : HistoryWindow) :
    (layout.range R window w).Perm
      ((w.contents.filter (fun item => window.Matches R item.2)).map Prod.snd) := by
  refine (h.range_perm hlayout window).trans (List.Perm.of_eq ?_)
  rw [HistoryWorld.contents, List.filter_map, List.map_map]
  rfl

instance : Std.Total HistoryRow.ranksBefore where
  total a b := by
    rcases lt_trichotomy a.quote.observedAt b.quote.observedAt with hlt | heq | hgt
    · exact Or.inl (Or.inl hlt)
    · rcases le_total a.historyId b.historyId with hle | hge
      · exact Or.inl (Or.inr ⟨heq, hle⟩)
      · exact Or.inr (Or.inr ⟨heq.symm, hge⟩)
    · exact Or.inr (Or.inl hgt)

instance : IsTrans HistoryRow HistoryRow.ranksBefore where
  trans a b c hab hbc := by
    rcases hab with hab | ⟨hab, hle⟩ <;> rcases hbc with hbc | ⟨hbc, hle'⟩
    · exact Or.inl (hab.trans hbc)
    · exact Or.inl (hab.trans_eq hbc)
    · exact Or.inl (hab.trans_lt hbc)
    · exact Or.inr ⟨hab.trans hbc, hle.trans hle'⟩

/-- A range is in the order of observation. -/
theorem Layout.range_sorted (layout : Layout) (window : HistoryWindow) (w : HistoryWorld) :
    (layout.range R window w).Pairwise (fun a b => a.observedAt ≤ b.observedAt) := by
  refine List.pairwise_map.mpr ((List.pairwise_insertionSort _ _).imp (fun hab => ?_))
  rcases hab with hlt | ⟨heq, -⟩
  · exact le_of_lt hlt
  · exact le_of_eq heq

/-- What is said of a stored row by its lineage and quote, over all rows. -/
theorem HistoryWorld.map_perRow {α β : Type} (w : HistoryWorld) {f : Partition → HistoryRow → α}
    {g : α → β} {said : String × QuoteRecord → β}
    (hsaid : ∀ p ∈ w.manifest.partitions, ∀ row ∈ w.rowsAt p,
      g (f p row) = said (row.lineage, row.quote)) :
    (w.perRow f).map g = w.contents.map said := by
  rw [HistoryWorld.perRow, HistoryWorld.contents, HistoryWorld.storedRows, List.map_map,
    List.map_flatMap, List.map_flatMap]
  refine List.flatMap_congr (fun p hp => ?_)
  rw [List.map_map]
  exact List.map_congr_left (fun row hrow => hsaid p hp row hrow)

/-- The logical identity of a quote in an inventory. -/
def streamOf (R : HistoryRuntime) (item : String × QuoteRecord) : String × String :=
  (item.2.venue, R.upper (R.upper item.2.asset))

/-- The stream of a verified row is that of its quote. -/
theorem HistoryWorld.Sound.stream_eq (h : w.Sound R) (hlayout : layout.Understands w)
    {p : Partition} (hp : p ∈ w.manifest.partitions) {row : HistoryRow} (hrow : row ∈ w.rowsAt p) :
    layout.stream R (p, row) = streamOf R (row.lineage, row.quote) := by
  have hbelongs := (h.describes hp).2.belongs row hrow
  have hvenue : p.group.venue = row.quote.venue := by
    rw [hbelongs.quoteVenue, hbelongs.venue]
  cases layout with
  | coarse =>
    show (p.group.venue, R.upper row.asset) = _
    rw [hvenue, ← hbelongs.quoteAsset]
    rfl
  | fine =>
    have hne : p.group.asset ≠ multiAssetPartition := (hlayout.resolve_left (by simp)) p hp
    show (p.group.venue, R.upper p.group.asset) = _
    rw [hvenue, hbelongs.asset.resolve_right hne, ← hbelongs.quoteAsset]
    rfl

/-- The lineages of the manifest are those of the contents. -/
theorem HistoryWorld.Sound.lineages_contents (h : w.Sound R) :
    (w.manifest.lineages.map LineageRow.lineage).Perm (w.contents.map Prod.fst) :=
  (h.lineages.map LineageRow.lineage).trans
    (List.Perm.of_eq (w.map_perRow (fun _ _ _ _ => rfl)))

/-- **Inventories.** Roots with the same contents have inventories that agree. -/
theorem HistoryWorld.Sound.inventory_agrees {other : Layout} {w' : HistoryWorld} (h : w.Sound R)
    (hlayout : layout.Understands w) (h' : w'.Sound R) (hlayout' : other.Understands w')
    (hcontents : w.contents.Perm w'.contents) (verifyFiles : Bool) :
    (layout.inventory R verifyFiles w).Agrees (other.inventory R verifyFiles w') := by
  have hlineages : (w.manifest.lineages.map LineageRow.lineage).Perm
      (w'.manifest.lineages.map LineageRow.lineage) :=
    h.lineages_contents.trans ((hcontents.map Prod.fst).trans h'.lineages_contents.symm)
  -- what the verified rows show is read off the contents
  have hverified : ∀ {α : Type} {f f' : Partition × HistoryRow → α} (said : String × QuoteRecord → α),
      (∀ p ∈ w.manifest.partitions, ∀ row ∈ w.rowsAt p, f (p, row) = said (row.lineage, row.quote)) →
      (∀ p ∈ w'.manifest.partitions, ∀ row ∈ w'.rowsAt p,
        f' (p, row) = said (row.lineage, row.quote)) →
      ((layout.verified R verifyFiles w).map f).Perm ((other.verified R verifyFiles w').map f') := by
    intro α f f' said hf hf'
    by_cases hverify : verifyFiles = true
    · subst hverify
      rw [verified_eq h hlayout, verified_eq h' hlayout', w.map_perRow hf, w'.map_perRow hf']
      exact hcontents.map said
    · rw [Layout.verified, Layout.verified, if_neg hverify, if_neg hverify]
      exact List.Perm.refl _
  have htimes : ((layout.verified R verifyFiles w).map (fun item => item.2.observedAt)).Perm
      ((other.verified R verifyFiles w').map (fun item => item.2.observedAt)) :=
    hverified (fun item => item.2.observedAt)
      (fun p hp row hrow => ((h.describes hp).2.belongs row hrow).quoteTime.symm)
      (fun p hp row hrow => ((h'.describes hp).2.belongs row hrow).quoteTime.symm)
  have hstreams : ((layout.verified R verifyFiles w).map (layout.stream R)).Perm
      ((other.verified R verifyFiles w').map (other.stream R)) :=
    hverified (streamOf R) (fun p hp row hrow => h.stream_eq hlayout hp hrow)
      (fun p hp row hrow => h'.stream_eq hlayout' hp hrow)
  refine ⟨?_, hlineages.dedup.length_eq, ?_, min?_eq_of_perm htimes, max?_eq_of_perm htimes, ?_⟩
  · have hrows := htimes.length_eq
    have hlength := hlineages.length_eq
    rw [List.length_map, List.length_map] at hrows hlength
    show (if verifyFiles then _ else _) = if verifyFiles then _ else _
    rw [hrows, hlength]
  · exact congrArg R.lineageDigest (insertionSort_eq_of_perm hlineages.dedup)
  · exact insertionSort_eq_of_perm (hstreams.dedup.map _)

/-! ### Feeding two roots -/

/-- What is committed is what is in the batches that are not refused. -/
theorem committedRecords_eq (calls : List HistoryCall) :
    committedRecords calls = (batchesOf calls).flatMap (fun records =>
      if records.any (fun record => record.lineage = "") then [] else records) := by
  induction calls with
  | nil => rfl
  | cons call rest ih =>
    have hcons : committedRecords (call :: rest) = call.batch ++ committedRecords rest :=
      List.flatMap_cons
    rw [hcons, ih]
    cases call with
    | append layout records => rfl
    | compact key => rfl
    | reap => rfl

/-- A committed record is in one of the batches. -/
theorem mem_batches_of_mem_committed {record : HistoryRecord}
    (hrecord : record ∈ committedRecords calls) : record ∈ (batchesOf calls).flatten := by
  rw [committedRecords_eq, List.mem_flatMap] at hrecord
  obtain ⟨records, hrecords, hmem⟩ := hrecord
  split at hmem
  · cases hmem
  · exact List.mem_flatten.mpr ⟨records, hrecords, hmem⟩

/-- A stored lineage has the quote of every record that was committed for it. -/
theorem Committed.mem_contents_iff (h : Committed calls w)
    (hquote : LineageDetermines (batchesOf calls).flatten) (item : String × QuoteRecord) :
    item ∈ w.contents
      ↔ ∃ record ∈ committedRecords calls, (record.lineage, record.quote) = item := by
  constructor
  · intro hitem
    obtain ⟨row, hrow, rfl⟩ := List.mem_map.mp hitem
    obtain ⟨record, hrecord, hlineage, hquoteEq⟩ := h.given row hrow
    exact ⟨record, hrecord, Prod.ext hlineage hquoteEq⟩
  · rintro ⟨record, hrecord, rfl⟩
    obtain ⟨row, hrow, hlineage⟩ := h.complete record hrecord
    obtain ⟨other, hother, hotherLineage, hotherQuote⟩ := h.given row hrow
    have hsame : other.quote = record.quote :=
      hquote other (mem_batches_of_mem_committed hother) record
        (mem_batches_of_mem_committed hrecord) (hotherLineage.trans hlineage)
    exact List.mem_map.mpr ⟨row, hrow, Prod.ext hlineage (hotherQuote.symm.trans hsame)⟩

/-- Roots that are fed with the same batches have the same contents. -/
theorem contents_perm {calls' : List HistoryCall} {w' : HistoryWorld} (h : Committed calls w)
    (h' : Committed calls' w') (hsound : w.Sound R) (hsound' : w'.Sound R)
    (hbatches : batchesOf calls = batchesOf calls')
    (hquote : LineageDetermines (batchesOf calls).flatten) : w.contents.Perm w'.contents := by
  refine (List.perm_ext_iff_of_nodup (List.Nodup.of_map _ hsound.nodup_contents)
    (List.Nodup.of_map _ hsound'.nodup_contents)).mpr (fun item => ?_)
  rw [h.mem_contents_iff hquote, h'.mem_contents_iff (hbatches ▸ hquote), committedRecords_eq,
    committedRecords_eq, hbatches]

/-- Calls through one class leave a root that the class understands. -/
theorem understands_of_through {state : HistoryState} {rows : List (GroupKey × HistoryRow)}
    (h : Reaches R calls state rows) (hthrough : ∀ call ∈ calls, call.Through layout) :
    layout.Understands state.world := by
  cases layout with
  | coarse => exact Or.inl rfl
  | fine =>
    refine h.understands_iff.mpr (fun before call after hcalls => ?_)
    have hmem : call ∈ calls := hcalls ▸ List.mem_append_right _ List.mem_cons_self
    cases call with
    | append layout records =>
      have heq : layout = .fine := hthrough _ hmem
      rw [heq]
      trivial
    | compact key => trivial
    | reap => trivial

end Contents

/-- **Same history.** Two roots are fed with the same batches, one through the coarse and one
    through the fine class, and compacted at will.  Every range returns the same quotes, in the
    order of observation, and the inventories agree. -/
theorem layouts_sameHistory (R : HistoryRuntime) (coarse fine : List HistoryCall)
    (hcoarse : ∀ call ∈ coarse, call.Through .coarse) (hfine : ∀ call ∈ fine, call.Through .fine)
    (hbatches : batchesOf coarse = batchesOf fine)
    (hquote : LineageDetermines (batchesOf coarse).flatten) :
    let coarseWorld := (run (callStep R) .initial coarse).world
    let fineWorld := (run (callStep R) .initial fine).world
    (∀ window : HistoryWindow,
        (Layout.coarse.range R window coarseWorld).Perm (Layout.fine.range R window fineWorld)
          ∧ (Layout.coarse.range R window coarseWorld).Pairwise
            (fun a b => a.observedAt ≤ b.observedAt)
          ∧ (Layout.fine.range R window fineWorld).Pairwise
            (fun a b => a.observedAt ≤ b.observedAt))
      ∧ ∀ verifyFiles, (Layout.coarse.inventory R verifyFiles coarseWorld).Agrees
          (Layout.fine.inventory R verifyFiles fineWorld) := by
  obtain ⟨rows, h⟩ := run_callStep R coarse
  obtain ⟨rows', h'⟩ := run_callStep R fine
  have hsound := h.holds.sound
  have hsound' := h'.holds.sound
  have hunderstands := understands_of_through h hcoarse
  have hunderstands' := understands_of_through h' hfine
  have hcontents := contents_perm h.committed h'.committed hsound hsound' hbatches hquote
  refine ⟨fun window => ⟨?_, Layout.range_sorted _ _ _, Layout.range_sorted _ _ _⟩,
    fun verifyFiles => hsound.inventory_agrees hunderstands hsound' hunderstands' hcontents _⟩
  refine (hsound.range_contents hunderstands window).trans
    (((hcontents.filter _).map Prod.snd).trans ?_)
  exact (hsound'.range_contents hunderstands' window).symm

/-- Two quotes of bitcoin, appended in two batches; then the coarse root is compacted. -/
def coarseBitcoin : List HistoryCall :=
  [.append .coarse [⟨some 1, "first", bitcoinQuote 3⟩],
    .append .coarse [⟨none, "second", bitcoinQuote 1⟩],
    .compact ⟨"kraken", multiAssetPartition, utcDate 1⟩]

/-- The same batches for the fine class. -/
def fineBitcoin : List HistoryCall :=
  [.append .fine [⟨some 1, "first", bitcoinQuote 3⟩],
    .append .fine [⟨none, "second", bitcoinQuote 1⟩]]

/-- The two roots with the quotes of bitcoin, one coarse and one fine, return the same quotes for
    the asset. -/
theorem layouts_sameHistory_bitcoin :
    (Layout.coarse.range .sample ⟨0, 10, [], ["btc"]⟩
        (run (callStep .sample) .initial coarseBitcoin).world).Perm
      (Layout.fine.range .sample ⟨0, 10, [], ["btc"]⟩
        (run (callStep .sample) .initial fineBitcoin).world) := by
  have hdetermines : LineageDetermines (batchesOf coarseBitcoin).flatten := by
    intro a ha b hb hlineage
    have hflatten : (batchesOf coarseBitcoin).flatten
        = [⟨some 1, "first", bitcoinQuote 3⟩, ⟨none, "second", bitcoinQuote 1⟩] := rfl
    rw [hflatten, List.mem_cons, List.mem_singleton] at ha hb
    rcases ha with rfl | rfl <;> rcases hb with rfl | rfl
    · rfl
    · exact absurd hlineage (by decide)
    · exact absurd hlineage (by decide)
    · rfl
  exact ((layouts_sameHistory .sample coarseBitcoin fineBitcoin
    (by simp [coarseBitcoin, HistoryCall.Through]) (by simp [fineBitcoin, HistoryCall.Through])
    rfl hdetermines).1 ⟨0, 10, [], ["btc"]⟩).1

end InefficiencyEngine.History
