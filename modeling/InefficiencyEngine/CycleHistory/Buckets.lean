import InefficiencyEngine.CycleHistory.Cache
import Mathlib.Data.Int.Order.Basic
import Mathlib.Order.Lattice

namespace InefficiencyEngine.CycleHistory

open Portfolio Durable

/-!
# What a bucket of the cache holds

A bucket is *covered* when it holds the newest rows of its interval, as many as a day may have, and
no others of that interval (`Covered`).  Three facts make buckets reusable:

* a bucket that is written from a quote table that is complete up to the end of the interval is
  covered (`covered_replaceBucket`);
* a covered bucket stays covered when its interval begins later, if what was observed before the
  new beginning arrived before the rest (`Covered.later`);
* a write to another bucket does not touch it (`Covered.replaceBucket`).
-/

variable {T : CycleTexts} {config : CycleConfig}

/-- The quotes that the quote table gets in the course of time, numbered as they arrive. -/
structure SourceHistory where
  rows : List QuoteRow
  distinct : (rows.map QuoteRow.id).Nodup

/-- What was observed of a pair before an instant arrived before what was observed later. -/
def InOrderAt (S : SourceHistory) (cutoff : Instant) : Prop :=
  ∀ r ∈ S.rows, ∀ s ∈ S.rows, r.venue = s.venue → r.asset = s.asset → r.observedAt < cutoff →
    cutoff ≤ s.observedAt → r.id < s.id

variable {S : SourceHistory}

/-! ### Days -/

private theorem div_eq_iff (t d : ℤ) : t / 86400000000 = d
    ↔ d * 86400000000 ≤ t ∧ t < d * 86400000000 + 86400000000 := by
  omega

/-- The instants of a day. -/
theorem dayOf_eq_iff {t : Instant} {day : Day} :
    dayOf t = day ↔ dayStart day ≤ t ∧ t < dayStart day + dayLength :=
  div_eq_iff t day

theorem dayStart_dayOf_le (t : Instant) : dayStart (dayOf t) ≤ t := (dayOf_eq_iff.mp rfl).1

/-- Later instants are of later days. -/
theorem dayOf_mono {t u : Instant} (h : t ≤ u) : dayOf t ≤ dayOf u :=
  Int.ediv_le_ediv (by decide) h

/-- A day ends before each later one begins. -/
theorem dayStart_add_le {day later : Day} (h : day < later) :
    dayStart day + dayLength ≤ dayStart later := by
  have hstep : (day + 1) * dayLength ≤ later * dayLength :=
    Int.mul_le_mul_of_nonneg_right h (by decide)
  calc dayStart day + dayLength = (day + 1) * dayLength := by rw [dayStart, add_mul, one_mul]
    _ ≤ dayStart later := hstep

theorem longCutoff_mono {t u : Instant} (h : t ≤ u) : longCutoff config t ≤ longCutoff config u :=
  Int.sub_le_sub_right h _

theorem recentCutoff_mono {t u : Instant} (h : t ≤ u) :
    recentCutoff config t ≤ recentCutoff config u :=
  Int.sub_le_sub_right h _

theorem firstDay_mono {t u : Instant} (h : t ≤ u) : firstDay config t ≤ firstDay config u :=
  dayOf_mono (longCutoff_mono h)

/-! ### Rows -/

theorem within_iff {row : QuoteRow} {pair : CyclePair} {start stop : Instant} :
    row.within pair start stop = true ↔ row.venue = pair.1 ∧ row.asset = pair.2
      ∧ start ≤ row.observedAt ∧ row.observedAt < stop := by
  simp [QuoteRow.within, and_assoc]

theorem inBucket_iff {row : CachedRow} {ns : Namespace} {pair : CyclePair} {day : Day} :
    row.inBucket ns pair day = true
      ↔ row.cacheNamespace = ns ∧ row.venue = pair.1 ∧ row.asset = pair.2 ∧ row.day = day := by
  simp [CachedRow.inBucket, and_assoc]

/-- A row is cached in the bucket of its own pair. -/
theorem cached_inBucket_iff {row : QuoteRow} {ns ns' : Namespace} {pair other : CyclePair}
    {day day' : Day} {start stop : Instant} (hupper : T.upper pair.2 = pair.2)
    (hrow : row.within pair start stop = true) :
    (row.cached T ns day).inBucket ns' other day' = true ↔ ns = ns' ∧ pair = other ∧ day = day' := by
  obtain ⟨hvenue, hasset, -, -⟩ := within_iff.mp hrow
  rw [inBucket_iff]
  show ns = ns' ∧ row.venue = other.1 ∧ T.upper row.asset = other.2 ∧ day = day' ↔ _
  rw [hvenue, hasset, hupper, Prod.ext_iff, and_assoc]

/-- Cached rows of one namespace are of different rows. -/
theorem cached_injective {rows : List QuoteRow} (h : (rows.map QuoteRow.id).Nodup)
    {r s : QuoteRow} (hr : r ∈ rows) (hs : s ∈ rows) {ns ns' : Namespace} {day day' : Day}
    (heq : r.cached T ns day = s.cached T ns' day') : r = s :=
  List.inj_on_of_nodup_map h hr hs (congrArg CachedRow.sourceId heq)

/-- The quote table holds all rows observed before an instant. -/
def Visible (S : SourceHistory) (source : List QuoteRow) (horizon : Instant) : Prop :=
  (source.filter (fun row => row.observedAt < horizon)).Perm
    (S.rows.filter (fun row => row.observedAt < horizon))

/-- What ends before the horizon can be read from the table as from the whole history. -/
theorem Visible.within {source : List QuoteRow} {horizon : Instant} (h : Visible S source horizon)
    {pair : CyclePair} {start stop : Instant} (hstop : stop ≤ horizon) :
    (source.filter (fun row => row.within pair start stop)).Perm
      (S.rows.filter (fun row => row.within pair start stop)) := by
  have hfilter : ∀ rows : List QuoteRow, rows.filter (fun row => row.within pair start stop)
      = (rows.filter (fun row => row.observedAt < horizon)).filter
        (fun row => row.within pair start stop) := by
    intro rows
    rw [List.filter_filter]
    refine List.filter_congr (fun row _ => ?_)
    by_cases hrow : row.within pair start stop = true
    · have hlt : row.observedAt < horizon := lt_of_lt_of_le (within_iff.mp hrow).2.2.2 hstop
      rw [hrow, decide_eq_true hlt, Bool.true_and]
    · rw [Bool.not_eq_true] at hrow
      rw [hrow, Bool.false_and]
  rw [hfilter source, hfilter S.rows]
  exact List.Perm.filter _ h

/-- A bucket query that reads the quote table, when that holds all rows observed before an
    instant. -/
def ReadsTable (S : SourceHistory) (source : BucketSource) (horizon : Instant) : Prop :=
  ∃ rows, source = .quoteTable rows ∧ Visible S rows horizon

/-- The rows of an interval are different. -/
theorem Visible.distinct {source : List QuoteRow} {horizon : Instant} (h : Visible S source horizon)
    {pair : CyclePair} {start stop : Instant} (hstop : stop ≤ horizon) :
    ((source.filter (fun row => row.within pair start stop)).map QuoteRow.id).Nodup := by
  refine ((h.within hstop).map QuoteRow.id).nodup_iff.mpr ?_
  exact S.distinct.sublist ((List.filter_sublist).map QuoteRow.id)

/-! ### Covered buckets -/

/-- How many rows of an interval are newer than a row. -/
def newerWithin (S : SourceHistory) (pair : CyclePair) (start stop : Instant) (row : QuoteRow) : ℕ :=
  newerCount QuoteRow.id (S.rows.filter (fun other => other.within pair start stop)) row

/-- Of the rows of an interval the cache holds the newest ones. -/
def Covered (T : CycleTexts) (config : CycleConfig) (S : SourceHistory) (rows : List CachedRow)
    (ns : Namespace) (pair : CyclePair) (day : Day) (start stop : Instant) : Prop :=
  ∀ r ∈ S.rows, r.within pair start stop = true →
    (r.cached T ns day ∈ rows ↔ newerWithin S pair start stop r < config.rowsPerDay)

section Covered

variable {rows rows' : List CachedRow} {store : CacheStore} {source : BucketSource}
variable {ns ns' : Namespace} {pair other : CyclePair} {day day' : Day}
variable {start stop start' horizon : Instant}

/-- Whether a bucket is covered depends on the rows of its interval only. -/
theorem Covered.congr (h : Covered T config S rows ns pair day start stop)
    (hrows : ∀ r ∈ S.rows, r.within pair start stop = true →
      (r.cached T ns day ∈ rows' ↔ r.cached T ns day ∈ rows)) :
    Covered T config S rows' ns pair day start stop :=
  fun r hr hrow => (hrows r hr hrow).trans (h r hr hrow)

/-- **A later beginning.** The rows newer than one of the later interval are of that interval. -/
theorem Covered.later (h : Covered T config S rows ns pair day start stop) (hstart : start ≤ start')
    (horder : InOrderAt S start') :
    Covered T config S rows ns pair day start' stop := by
  intro r hr hrow
  obtain ⟨hvenue, hasset, hle, hlt⟩ := within_iff.mp hrow
  have hwide : r.within pair start stop = true :=
    within_iff.mpr ⟨hvenue, hasset, hstart.trans hle, hlt⟩
  have hfilter : S.rows.filter (fun row => row.within pair start' stop)
      = (S.rows.filter (fun row => row.within pair start stop)).filter
        (fun row => start' ≤ row.observedAt) := by
    rw [List.filter_filter]
    refine List.filter_congr (fun row _ => ?_)
    rw [Bool.eq_iff_iff, Bool.and_eq_true, within_iff, within_iff, decide_eq_true_eq]
    constructor
    · exact fun hr' => ⟨hr'.2.2.1, hr'.1, hr'.2.1, hstart.trans hr'.2.2.1, hr'.2.2.2⟩
    · exact fun hr' => ⟨hr'.2.1, hr'.2.2.1, hr'.1, hr'.2.2.2.2⟩
  have hcount : newerWithin S pair start' stop r = newerWithin S pair start stop r := by
    rw [newerWithin, newerWithin, hfilter]
    refine newerCount_filter_of_upward (decide_eq_true hle) (fun newer hmem hid _ => ?_)
    obtain ⟨hnewer, hin⟩ := List.mem_filter.mp hmem
    obtain ⟨hvenue', hasset', -, -⟩ := within_iff.mp hin
    -- a row from before the new beginning would have arrived earlier
    refine decide_eq_true (not_lt.mp (fun hearly => ?_))
    have hbefore := horder newer hnewer r hr (hvenue'.trans hvenue.symm)
      (hasset'.trans hasset.symm) hearly hle
    omega
  rw [h r hr hwide, hcount]

/-- What `_replace_bucket` selects from a table that is complete up to the end of the bucket. -/
theorem mem_selectBucket (hsource : ReadsTable S source horizon) (hstop : stop ≤ horizon)
    {row : CachedRow} : row ∈ selectBucket T config source ns pair day start stop
      ↔ ∃ r ∈ S.rows, r.within pair start stop = true
        ∧ newerWithin S pair start stop r < config.rowsPerDay ∧ row = r.cached T ns day := by
  obtain ⟨table, rfl, hvisible⟩ := hsource
  have hnewest : ∀ r, r ∈ newestRows QuoteRow.id config.rowsPerDay
        (table.filter (fun row => row.within pair start stop))
      ↔ (r ∈ S.rows ∧ r.within pair start stop = true)
        ∧ newerWithin S pair start stop r < config.rowsPerDay := by
    intro r
    rw [mem_newestRows (hvisible.distinct hstop), (hvisible.within hstop).mem_iff,
      newerCount_perm (hvisible.within hstop), List.mem_filter]
    rfl
  unfold selectBucket
  split_ifs with hopen
  · show row ∈ List.map _ _ ↔ _
    rw [List.mem_map]
    constructor
    · rintro ⟨r, hr, rfl⟩
      obtain ⟨⟨hmem, hin⟩, hcount⟩ := (hnewest r).mp hr
      exact ⟨r, hmem, hin, hcount, rfl⟩
    · rintro ⟨r, hmem, hin, hcount, rfl⟩
      exact ⟨r, (hnewest r).mpr ⟨⟨hmem, hin⟩, hcount⟩, rfl⟩
  · -- an empty interval has no rows, and of no rows at most none is cached
    refine iff_of_false List.not_mem_nil (fun hrow => ?_)
    obtain ⟨r, -, hin, hcount, -⟩ := hrow
    obtain ⟨-, -, hle, hlt⟩ := within_iff.mp hin
    exact hopen ⟨lt_of_le_of_lt hle hlt, Nat.zero_lt_of_lt hcount⟩

/-- The selected rows are different. -/
theorem nodup_selectBucket (hsource : ReadsTable S source horizon) (hstop : stop ≤ horizon) :
    (selectBucket T config source ns pair day start stop).Nodup := by
  obtain ⟨table, rfl, hvisible⟩ := hsource
  unfold selectBucket
  split_ifs
  · refine List.Nodup.of_map CachedRow.sourceId ?_
    show (List.map CachedRow.sourceId (List.map _ _)).Nodup
    rw [List.map_map]
    exact nodup_newestRows (hvisible.distinct hstop)
  · exact List.nodup_nil

/-- The rows after a bucket was replaced. -/
theorem mem_replaceBucket {selected : List CachedRow} {row : CachedRow} :
    row ∈ (store.commit (.replaceBucket ns pair day selected)).rows
      ↔ (row ∈ store.rows ∧ row.inBucket ns pair day = false) ∨ row ∈ selected := by
  simp [CacheStore.commit]

/-- The rows after a namespace was reset. -/
theorem mem_resetNamespace {row : CachedRow} :
    row ∈ (store.commit (.resetNamespace ns)).rows ↔ row ∈ store.rows ∧ row.cacheNamespace ≠ ns := by
  simp [CacheStore.commit]

/-- The rows after old ones were dropped. -/
theorem mem_dropBefore {floor : Instant} {row : CachedRow} :
    row ∈ (store.commit (.dropBefore floor)).rows
      ↔ row ∈ store.rows ∧ ¬ (row.cacheNamespace = .base ∧ row.observedAt < floor) := by
  simp [CacheStore.commit, imp_iff_not_or]

/-- Another bucket is written. The rows of this bucket stay, as those removed and those written
    are of the other one. -/
theorem Covered.replaceBucket (h : Covered T config S store.rows ns pair day start stop)
    (hupper : T.upper pair.2 = pair.2) {selected : List CachedRow}
    (hselected : ∀ row ∈ selected, row.inBucket ns' other day' = true)
    (hother : ¬ (ns = ns' ∧ pair = other ∧ day = day')) :
    Covered T config S (store.commit (.replaceBucket ns' other day' selected)).rows ns pair day
      start stop := by
  refine h.congr (fun r _ hrow => ?_)
  have houtside : (r.cached T ns day).inBucket ns' other day' = false := by
    rw [Bool.eq_false_iff, Ne, cached_inBucket_iff hupper hrow]
    exact hother
  rw [mem_replaceBucket]
  constructor
  · rintro (⟨hmem, -⟩ | hmem)
    · exact hmem
    · rw [hselected _ hmem] at houtside
      cases houtside
  · exact fun hmem => Or.inl ⟨hmem, houtside⟩

/-- **The bucket itself** is covered after it was written from a complete table. -/
theorem covered_replaceBucket (hupper : T.upper pair.2 = pair.2)
    (hsource : ReadsTable S source horizon) (hstop : stop ≤ horizon) :
    Covered T config S (store.commit (.replaceBucket ns pair day
      (selectBucket T config source ns pair day start stop))).rows ns pair day start stop := by
  intro r hr hrow
  have hinside : (r.cached T ns day).inBucket ns pair day = true :=
    (cached_inBucket_iff hupper hrow).mpr ⟨rfl, rfl, rfl⟩
  rw [mem_replaceBucket, hinside, mem_selectBucket hsource hstop]
  constructor
  · rintro (⟨-, hcontra⟩ | ⟨s, hs, -, hcount, heq⟩)
    · cases hcontra
    · rwa [cached_injective S.distinct hr hs heq]
  · exact fun hcount => Or.inr ⟨r, hr, hrow, hcount, rfl⟩

/-- Another namespace is reset. The rows of this namespace stay. -/
theorem Covered.resetNamespace (h : Covered T config S store.rows ns pair day start stop)
    (hother : ns ≠ ns') :
    Covered T config S (store.commit (.resetNamespace ns')).rows ns pair day start stop := by
  refine h.congr (fun r _ _ => ?_)
  rw [mem_resetNamespace]
  exact ⟨fun hmem => hmem.1, fun hmem => ⟨hmem, hother⟩⟩

/-- Rows observed before the interval are dropped. -/
theorem Covered.dropBefore (h : Covered T config S store.rows ns pair day start stop)
    {floor : Instant} (hfloor : floor ≤ start) :
    Covered T config S (store.commit (.dropBefore floor)).rows ns pair day start stop := by
  refine h.congr (fun r _ hrow => ?_)
  rw [mem_dropBefore]
  refine ⟨fun hmem => hmem.1, fun hmem => ⟨hmem, fun hold => ?_⟩⟩
  exact absurd (hold.2.trans_le (hfloor.trans (within_iff.mp hrow).2.2.1)) (lt_irrefl _)

end Covered

/-! ### The days of a target -/

/-- A day before the last one of a target's window is covered in the base namespace. -/
def StableDay (T : CycleTexts) (config : CycleConfig) (S : SourceHistory) (rows : List CachedRow)
    (pair : CyclePair) (day : Day) (completedAt : Instant) : Prop :=
  Covered T config S rows .base pair day (max (longCutoff config completedAt) (dayStart day))
    (dayStart day + dayLength)

/-- The last day of a target's window is covered in a slot. -/
def LastDay (T : CycleTexts) (config : CycleConfig) (S : SourceHistory) (rows : List CachedRow)
    (slot : Namespace) (pair : CyclePair) (completedAt : Instant) : Prop :=
  Covered T config S rows slot pair (boundaryDay config completedAt)
    (boundaryStart config completedAt) (recentCutoff config completedAt)

/-- A stable day serves later targets as well. -/
theorem StableDay.later {rows : List CachedRow} {pair : CyclePair} {day : Day} {t u : Instant}
    (h : StableDay T config S rows pair day t) (htu : t ≤ u)
    (horder : InOrderAt S (longCutoff config u)) : StableDay T config S rows pair day u := by
  have hcutoff : longCutoff config t ≤ longCutoff config u := longCutoff_mono htu
  unfold StableDay at h ⊢
  rcases le_total (longCutoff config u) (dayStart day) with hbefore | hwithin
  · -- the window begins before the day, then and now
    rw [max_eq_right (hcutoff.trans hbefore)] at h
    rwa [max_eq_right hbefore]
  · rw [max_eq_left hwithin]
    exact Covered.later h (max_le hcutoff hwithin) horder

end InefficiencyEngine.CycleHistory
