import InefficiencyEngine.CycleHistory.Exactness

namespace InefficiencyEngine.CycleHistory

open Portfolio Durable

/-!
# Reading the cache

The window of a target has two parts: the days before the last one, which are in the base
namespace, and the last day, which is in the slot of the target.  The rank that the query gives a
row is the one it has in the bucket of its day (`dailyRank_stable`, `dailyRank_last`), so the rows
that are read are the cached rows of those that the query returns (`loadedRows_perm`).
-/

variable {T : CycleTexts} {config : CycleConfig} {S : SourceHistory} {t : Instant}

/-! ### Groups -/

/-- The quotes of a key. -/
theorem get?_groupQuotes (keys : List CycleKey) (quotes : List MarketQuote) (key : CycleKey) :
    ((groupQuotes T keys quotes).get? key).getD []
      = ((quotes.filter (fun quote => keys.contains (quoteKey T quote))).filter
          (fun quote => quoteKey T quote = key)).insertionSort
            (fun a b => a.observedAt ≤ b.observedAt) := by
  rw [← Dict.getD_get?_group]
  set grouped := Dict.group (quoteKey T)
    (quotes.filter (fun quote => keys.contains (quoteKey T quote)))
  have hget : (groupQuotes T keys quotes).get? key = (grouped.get? key).map
      (fun values => values.insertionSort (fun a b => a.observedAt ≤ b.observedAt)) := by
    refine Option.ext (fun values => ?_)
    rw [← Dict.mem_items_iff, groupQuotes, Dict.items_foldl_set, List.mem_map, Option.map_eq_some_iff]
    constructor
    · rintro ⟨item, hitem, heq⟩
      injection heq with hkey hvalues
      rw [← hkey]
      exact ⟨item.2, (Dict.mem_items_iff grouped).mp hitem, hvalues⟩
    · rintro ⟨before, hbefore, hvalues⟩
      exact ⟨(key, before), (Dict.mem_items_iff grouped).mpr hbefore, by rw [hvalues]⟩
  rw [hget]
  cases grouped.get? key <;> rfl

/-- The groups of a permutation are permutations. -/
theorem groupQuotes_perm {keys : List CycleKey} {quotes others : List MarketQuote}
    (h : quotes.Perm others) (key : CycleKey) :
    (((groupQuotes T keys quotes).get? key).getD []).Perm
      (((groupQuotes T keys others).get? key).getD []) := by
  rw [get?_groupQuotes, get?_groupQuotes]
  refine (List.perm_insertionSort _ _).trans (List.Perm.trans ?_ (List.perm_insertionSort _ _).symm)
  exact (h.filter _).filter _

/-- The quotes of a key are in the order of time. -/
theorem groupQuotes_pairwise (keys : List CycleKey) (quotes : List MarketQuote) (key : CycleKey) :
    (((groupQuotes T keys quotes).get? key).getD []).Pairwise
      (fun a b => a.observedAt ≤ b.observedAt) := by
  rw [get?_groupQuotes]
  have htotal : Std.Total (fun a b : MarketQuote => a.observedAt ≤ b.observedAt) :=
    ⟨fun a b => le_total a.observedAt b.observedAt⟩
  have htrans : IsTrans MarketQuote (fun a b => a.observedAt ≤ b.observedAt) :=
    ⟨fun _ _ _ hab hbc => hab.trans hbc⟩
  exact List.pairwise_insertionSort _ _

/-! ### Ranks -/

/-- The rows of the query before they are ranked. -/
def windowRows (config : CycleConfig) (source : List QuoteRow) (pairs : List CyclePair)
    (completedAt : Instant) : List QuoteRow :=
  source.filter (fun row => longCutoff config completedAt ≤ row.observedAt
    && row.observedAt < recentCutoff config completedAt && pairs.contains (row.venue, row.asset))

theorem mem_windowRows {source : List QuoteRow} {pairs : List CyclePair} {row : QuoteRow} :
    row ∈ windowRows config source pairs t ↔ row ∈ source ∧ longCutoff config t ≤ row.observedAt
      ∧ row.observedAt < recentCutoff config t ∧ (row.venue, row.asset) ∈ pairs := by
  simp [windowRows, and_assoc]

theorem mem_compactRows {source : List QuoteRow} {pairs : List CyclePair} {row : QuoteRow} :
    row ∈ compactRows config source pairs t ↔ row ∈ windowRows config source pairs t
      ∧ dailyRank (windowRows config source pairs t) row ≤ config.rowsPerDay := by
  rw [compactRows, List.mem_filter, decide_eq_true_eq]
  rfl

/-- The rank of a row is the one in an interval that is its day's part of the window. -/
theorem dailyRank_eq {pairs : List CyclePair} {row : QuoteRow} {start stop : Instant}
    (hpair : (row.venue, row.asset) ∈ pairs)
    (hday : ∀ u, (longCutoff config t ≤ u ∧ u < recentCutoff config t ∧ dayOf u = dayOf row.observedAt)
      ↔ (start ≤ u ∧ u < stop)) :
    dailyRank (windowRows config S.rows pairs t) row
      = newerWithin S (row.venue, row.asset) start stop row + 1 := by
  have hfilter : (windowRows config S.rows pairs t).filter (fun other => other.venue = row.venue
        && other.asset = row.asset && dayOf other.observedAt = dayOf row.observedAt)
      = S.rows.filter (fun other => other.within (row.venue, row.asset) start stop) := by
    rw [windowRows, List.filter_filter]
    refine List.filter_congr (fun other _ => ?_)
    rw [Bool.eq_iff_iff, within_iff]
    simp only [Bool.and_eq_true, decide_eq_true_eq, List.contains_iff_mem]
    constructor
    · rintro ⟨⟨⟨hvenue, hasset⟩, hsame⟩, ⟨hlong, hrecent⟩, -⟩
      exact ⟨hvenue, hasset, (hday _).mp ⟨hlong, hrecent, hsame⟩⟩
    · rintro ⟨hvenue, hasset, hin⟩
      obtain ⟨hlong, hrecent, hsame⟩ := (hday _).mpr hin
      refine ⟨⟨⟨hvenue, hasset⟩, hsame⟩, ⟨hlong, hrecent⟩, ?_⟩
      rw [hvenue, hasset]
      exact hpair
  rw [dailyRank, hfilter, newerWithin]

/-- On a stable day. A row of a day that is over is ranked among the rows of its whole day, from
    the long cutoff on at most. -/
theorem dailyRank_stable {pairs : List CyclePair} {row : QuoteRow}
    (hpair : (row.venue, row.asset) ∈ pairs) (hday : dayOf row.observedAt < boundaryDay config t) :
    dailyRank (windowRows config S.rows pairs t) row
      = newerWithin S (row.venue, row.asset)
          (max (longCutoff config t) (dayStart (dayOf row.observedAt)))
          (dayStart (dayOf row.observedAt) + dayLength) row + 1 := by
  refine dailyRank_eq hpair (fun u => ?_)
  rw [dayOf_eq_iff, max_le_iff]
  constructor
  · exact fun h => ⟨⟨h.1, h.2.2.1⟩, h.2.2.2⟩
  · rintro ⟨⟨hlong, hstart⟩, hend⟩
    have hrecent : u < recentCutoff config t :=
      hend.trans_le ((dayStart_add_le hday).trans (dayStart_dayOf_le _))
    exact ⟨hlong, hrecent, hstart, hend⟩

/-- On the last day. A row of the day of the boundary is ranked among those before the recent
    cutoff. -/
theorem dailyRank_last {pairs : List CyclePair} {row : QuoteRow}
    (hpair : (row.venue, row.asset) ∈ pairs) (hday : dayOf row.observedAt = boundaryDay config t) :
    dailyRank (windowRows config S.rows pairs t) row
      = newerWithin S (row.venue, row.asset) (boundaryStart config t) (recentCutoff config t) row
        + 1 := by
  refine dailyRank_eq hpair (fun u => ?_)
  rw [hday]
  constructor
  · rintro ⟨hlong, hrecent, hsame⟩
    exact ⟨max_le hlong (dayOf_eq_iff.mp hsame).1, hrecent⟩
  · rintro ⟨hstart, hrecent⟩
    exact ⟨(le_max_left _ _).trans hstart, hrecent, dayOf_last hstart hrecent⟩

/-! ### The rows that are read -/

/-- The cached row that is read for a row of the query. -/
def servedRow (T : CycleTexts) (config : CycleConfig) (target : CycleTarget) (row : QuoteRow) :
    CachedRow :=
  row.cached T (if dayOf row.observedAt < boundaryDay config target.completedAt then .base
    else target.boundaryNamespace) (dayOf row.observedAt)

/-- The rows that are read, as a set. -/
theorem mem_loadedRows {store : CacheStore} {target : CycleTarget} {pairs : List CyclePair}
    {row : CachedRow} : row ∈ loadedRows config store target pairs ↔ row ∈ store.rows
      ∧ (row.venue, row.asset) ∈ pairs
      ∧ ((row.cacheNamespace = .base ∧ longCutoff config target.completedAt ≤ row.observedAt
          ∧ row.observedAt < boundaryStart config target.completedAt)
        ∨ (row.cacheNamespace = target.boundaryNamespace
          ∧ boundaryStart config target.completedAt ≤ row.observedAt
          ∧ row.observedAt < recentCutoff config target.completedAt)) := by
  have hpart : ∀ (ns : Namespace) (start stop : Instant),
      row ∈ (if start < stop then store.rows.filter (fun row => row.within ns pairs start stop)
        else []) ↔ row ∈ store.rows ∧ (row.venue, row.asset) ∈ pairs
          ∧ row.cacheNamespace = ns ∧ start ≤ row.observedAt ∧ row.observedAt < stop := by
    intro ns start stop
    split_ifs with hopen
    · simp only [List.mem_filter, CachedRow.within, Bool.and_eq_true, decide_eq_true_eq,
        List.contains_iff_mem]
      tauto
    · refine iff_of_false List.not_mem_nil (fun h => hopen ?_)
      exact h.2.2.2.1.trans_lt h.2.2.2.2
  unfold loadedRows
  rw [List.mem_append, hpart, hpart]
  tauto

/-- Nothing is read twice. The base rows and those of the boundary lie in different namespaces,
    and a row is in one bucket of its namespace. -/
theorem nodup_loadedRows {store : CacheStore} {target : CycleTarget} {pairs : List CyclePair}
    (h : store.rows.Nodup) (hslot : target.boundaryNamespace ≠ .base) :
    (loadedRows config store target pairs).Nodup := by
  have hpart : ∀ (ns : Namespace) (start stop : Instant),
      (if start < stop then store.rows.filter (fun row => row.within ns pairs start stop)
        else []).Nodup ∧ ∀ row ∈ (if start < stop then
          store.rows.filter (fun row => row.within ns pairs start stop) else []),
        row.cacheNamespace = ns := by
    intro ns start stop
    split_ifs
    · refine ⟨h.sublist List.filter_sublist, fun row hrow => ?_⟩
      have hin := (List.mem_filter.mp hrow).2
      simp only [CachedRow.within, Bool.and_eq_true, decide_eq_true_eq] at hin
      exact hin.1.1.1
    · exact ⟨List.nodup_nil, fun row hrow => (List.not_mem_nil hrow).elim⟩
  unfold loadedRows
  refine List.Nodup.append (hpart _ _ _).1 (hpart _ _ _).1 (fun row hbase hlast => hslot ?_)
  rw [← (hpart _ _ _).2 row hlast, (hpart _ _ _).2 row hbase]

/-- **The rows that are read** are the cached rows of those that the query returns. Neither list
    repeats a row, so it is enough that a row is in one exactly if it is in the other. -/
theorem loadedRows_perm {store : CacheStore} {checkpoint : Checkpoint} {target : CycleTarget}
    {time : Instant} {pairs : List CyclePair}
    (h : CacheInv T config S time store.rows checkpoint.pairCompletedThrough
      checkpoint.activeTarget checkpoint.workingTarget)
    (htarget : checkpoint.activeTarget = some target)
    (hpairs : ∀ pair, pair ∈ pairsOf target.keys ↔ pair ∈ pairs) :
    (loadedRows config store target pairs).Perm
      ((compactRows config S.rows pairs target.completedAt).map (servedRow T config target)) := by
  have hserved := h.certified target htarget
  have hlongest : longCutoff config target.completedAt ≤ boundaryStart config target.completedAt :=
    le_max_left _ _
  have hnodup : ((compactRows config S.rows pairs target.completedAt).map
      (servedRow T config target)).Nodup := by
    refine List.Nodup.of_map CachedRow.sourceId ?_
    rw [List.map_map]
    refine S.distinct.sublist (List.Sublist.map QuoteRow.id ?_)
    exact (List.filter_sublist).trans List.filter_sublist
  refine (List.perm_ext_iff_of_nodup (nodup_loadedRows h.nodup hserved.slot) hnodup).mpr
    (fun row => ?_)
  -- a row of the window is read exactly if its rank is low enough
  have hread : ∀ r ∈ windowRows config S.rows pairs target.completedAt,
      (servedRow T config target r ∈ store.rows
        ↔ dailyRank (windowRows config S.rows pairs target.completedAt) r ≤ config.rowsPerDay) := by
    intro r hr
    obtain ⟨hmem, hlong, hrecent, hpair⟩ := mem_windowRows.mp hr
    have hopen := hlong.trans_lt hrecent
    have hpair' := (hpairs _).mpr hpair
    have hday : dayOf r.observedAt ≤ boundaryDay config target.completedAt := dayOf_mono hrecent.le
    -- stable days are served under the stable namespace, the boundary day under that of the target
    rcases lt_or_eq_of_le hday with hstable | hlast
    · rw [dailyRank_stable hpair hstable, Nat.succ_le_iff, servedRow, if_pos hstable]
      have hfirst : firstDay config target.completedAt ≤ dayOf r.observedAt := dayOf_mono hlong
      refine hserved.stable hopen _ hpair' _ hfirst (Int.le_sub_one_iff.mpr hstable) r hmem ?_
      have hin := dayOf_eq_iff.mp (rfl : dayOf r.observedAt = dayOf r.observedAt)
      exact within_iff.mpr ⟨rfl, rfl, max_le hlong hin.1, hin.2⟩
    · rw [dailyRank_last hpair hlast, Nat.succ_le_iff, servedRow,
        if_neg (not_lt.mpr hlast.ge), hlast]
      refine hserved.last hopen _ hpair' r hmem ?_
      exact within_iff.mpr ⟨rfl, rfl, max_le hlong (dayOf_eq_iff.mp hlast).1, hrecent⟩
  rw [mem_loadedRows, List.mem_map]
  constructor
  -- read: the namespace and the day the query asks for say which row of the source it is
  · rintro ⟨hrow, hpair, hpart⟩
    obtain ⟨r, hr, hupper, heq⟩ := h.placed row hrow
    have hvenue : row.venue = r.venue := by rw [heq]; rfl
    have hasset : row.asset = r.asset := by rw [heq]; exact hupper
    have hobserved : row.observedAt = r.observedAt := by rw [heq]; rfl
    rw [hvenue, hasset] at hpair
    rw [hobserved] at hpart
    have hwindow : r ∈ windowRows config S.rows pairs target.completedAt
        ∧ row = servedRow T config target r := by
      rcases hpart with ⟨hns, hlong, hbefore⟩ | ⟨hns, hafter, hrecent⟩
      · have hstart : r.observedAt < dayStart (boundaryDay config target.completedAt) := by
          rcases lt_max_iff.mp hbefore with hless | hless
          · exact absurd hless (not_lt.mpr hlong)
          · exact hless
        have hrecent := hstart.trans_le (dayStart_dayOf_le (recentCutoff config target.completedAt))
        have hstable : dayOf r.observedAt < boundaryDay config target.completedAt := by
          refine lt_of_not_ge (fun hge => ?_)
          have hlater := dayStart_dayOf_le r.observedAt
          have hmono : dayStart (boundaryDay config target.completedAt)
              ≤ dayStart (dayOf r.observedAt) := Int.mul_le_mul_of_nonneg_right hge (by decide)
          exact absurd (hmono.trans hlater) (not_le.mpr hstart)
        refine ⟨mem_windowRows.mpr ⟨hr, hlong, hrecent, hpair⟩, ?_⟩
        rw [servedRow, if_pos hstable, ← hns]
        exact heq
      · have hlast : dayOf r.observedAt = boundaryDay config target.completedAt :=
          dayOf_last hafter hrecent
        refine ⟨mem_windowRows.mpr ⟨hr, hlongest.trans hafter, hrecent, hpair⟩, ?_⟩
        rw [servedRow, if_neg (not_lt.mpr hlast.ge), ← hns]
        exact heq
    refine ⟨r, mem_compactRows.mpr ⟨hwindow.1, ?_⟩, hwindow.2.symm⟩
    rw [← hread r hwindow.1, ← hwindow.2]
    exact hrow
  -- served: the rank puts the row in the cache, its day in the part of the query that reads it
  · rintro ⟨r, hr, rfl⟩
    obtain ⟨hwindow, hrank⟩ := mem_compactRows.mp hr
    obtain ⟨hmem, hlong, hrecent, hpair⟩ := mem_windowRows.mp hwindow
    have hupper : T.upper r.asset = r.asset := hserved.upper _ ((hpairs _).mpr hpair)
    refine ⟨(hread r hwindow).mpr hrank, ?_, ?_⟩
    · show (r.venue, T.upper r.asset) ∈ pairs
      rw [hupper]
      exact hpair
    · have hday : dayOf r.observedAt ≤ boundaryDay config target.completedAt := dayOf_mono hrecent.le
      rcases lt_or_eq_of_le hday with hstable | hlast
      · refine Or.inl ⟨if_pos hstable, hlong, lt_max_of_lt_right ?_⟩
        exact (dayOf_eq_iff.mp rfl).2.trans_le (dayStart_add_le hstable)
      · exact Or.inr ⟨if_neg (not_lt.mpr hlast.ge), max_le hlong (dayOf_eq_iff.mp hlast).1, hrecent⟩

/-! ### What a read returns -/

/-- What can be read for a snapshot is what the query of its history returns, each key's quotes in
    the order of time, and the history of the target that is served can be read. -/
structure ExactRead (T : CycleTexts) (config : CycleConfig) (source : List QuoteRow)
    (store : CacheStore) (snapshot : ScanSnapshot) : Prop where
  exact : ∀ grouped, load T config store snapshot = some grouped → ∀ key,
    ((grouped.get? key).getD []).Perm
        (((compactCycleHistory T config source snapshot).get? key).getD [])
      ∧ ((grouped.get? key).getD []).Pairwise (fun a b => a.observedAt ≤ b.observedAt)
  readable : ∀ checkpoint target, store.checkpoint? config = some checkpoint →
    checkpoint.activeTarget = some target → target.matchesSnapshot T snapshot = true →
    longCutoff config target.completedAt < recentCutoff config target.completedAt →
    (load T config store snapshot).isSome = true

/-- The target of a read is the snapshot's. -/
theorem matchesSnapshot_iff {target : CycleTarget} {snapshot : ScanSnapshot} :
    target.matchesSnapshot T snapshot = true ↔ target.scanId = snapshot.scanId
      ∧ target.completedAt = snapshot.completedAt
      ∧ sameKeys target.keys (currentKeys T snapshot) = true := by
  simp [CycleTarget.matchesSnapshot, and_assoc]

/-- What a read returns, and of which target. -/
theorem load_eq_some {store : CacheStore} {snapshot : ScanSnapshot}
    {grouped : Dict CycleKey (List MarketQuote)}
    (h : load T config store snapshot = some grouped) :
    ∃ checkpoint target, store.checkpoint? config = some checkpoint
      ∧ checkpoint.activeTarget = some target ∧ target.matchesSnapshot T snapshot = true
      ∧ grouped = if (pairsOf (currentKeys T snapshot)).isEmpty then Dict.empty
        else groupQuotes T (currentKeys T snapshot)
          ((loadedRows config store target (pairsOf (currentKeys T snapshot))).map
            CachedRow.payload) := by
  unfold load at h
  obtain ⟨checkpoint, hcheckpoint, h⟩ := Option.bind_eq_some_iff.mp h
  obtain ⟨target, hactive, h⟩ := Option.bind_eq_some_iff.mp h
  refine ⟨checkpoint, target, hcheckpoint, hactive, ?_⟩
  dsimp only at h
  split_ifs at h with hmatch hempty hmissing
  · injection h with h
    rw [if_pos hempty, h]
    exact ⟨by simpa using hmatch, rfl⟩
  · injection h with h
    rw [if_neg hempty, h]
    exact ⟨by simpa using hmatch, rfl⟩

/-- **Reading is querying.** From a sound store, a history that is returned is the one that the
    compact query would have selected at the snapshot's time. -/
theorem exactRead_of_sound {store : CacheStore} (h : Sound T config S t store)
    (snapshot : ScanSnapshot) : ExactRead T config S.rows store snapshot := by
  constructor
  case exact =>
    intro grouped hload key
    obtain ⟨checkpoint, target, hcheckpoint, hactive, hmatch, rfl⟩ := load_eq_some hload
    obtain ⟨-, htime, hsame⟩ := matchesSnapshot_iff.mp hmatch
    obtain ⟨time, -, hinv⟩ := h checkpoint hcheckpoint
    unfold compactCycleHistory
    dsimp only
    split_ifs with hempty
    · exact ⟨List.Perm.refl _, List.Pairwise.nil⟩
    · refine ⟨groupQuotes_perm ?_ key, groupQuotes_pairwise _ _ key⟩
      have hperm := (loadedRows_perm hinv hactive (fun _ => mem_pairsOf_of_sameKeys hsame)).map
        CachedRow.payload
      rw [List.map_map, htime] at hperm
      exact hperm
  case readable =>
    intro checkpoint target hcheckpoint hactive hmatch hopen
    obtain ⟨time, -, hinv⟩ := h checkpoint hcheckpoint
    have hserved := hinv.certified target hactive
    have hsame := (matchesSnapshot_iff.mp hmatch).2.2
    unfold load
    simp only [hcheckpoint, hactive, hmatch, Option.bind_eq_bind, Option.bind_some, Bool.not_true,
      Bool.false_eq_true, if_false]
    split_ifs with hempty hmissing
    · rfl
    · -- every pair of the served target is recorded through its last stable day
      obtain ⟨pair, hpair, hless⟩ := List.any_eq_true.mp hmissing
      have hthrough := hserved.through hopen pair ((mem_pairsOf_of_sameKeys hsame).mpr hpair)
      exact absurd (of_decide_eq_true hless) (not_lt.mpr hthrough)
    · rfl

/-! ### Runs -/

/-- What a call relies on: its bucket queries read the quote table, which is complete up to the
    cutoff of the snapshot, and what was observed before the window of the snapshot arrived before
    what was observed in it. -/
structure AdvanceCall.Served (call : AdvanceCall) (config : CycleConfig) (S : SourceHistory) :
    Prop where
  complete : ∀ k, ReadsTable S (call.source k) (recentCutoff config call.snapshot.completedAt)
  inOrder : InOrderAt S (longCutoff config call.snapshot.completedAt)

/-- What a call leaves. -/
def advanced (T : CycleTexts) (config : CycleConfig) (store : CacheStore)
    (call : AdvanceCall × Option ℕ) : CacheStore :=
  (advance T config call.1).leaves store call.2

/-- A call keeps the invariant, wherever it ends. -/
theorem sound_advanced {store : CacheStore} {call : AdvanceCall × Option ℕ}
    (h : Sound T config S call.1.snapshot.completedAt store) (hserved : call.1.Served config S) :
    Sound T config S call.1.snapshot.completedAt (advanced T config store call) :=
  Prog.leaves_invariant (fun n =>
    ((spec_advance rfl hserved.inOrder hserved.complete).guarantee store h).keeps h n) call.2

/-- **The invariant holds after every run.** -/
theorem sound_run {calls : List (AdvanceCall × Option ℕ)} {store : CacheStore}
    (h : Sound T config S t store) (hlater : ∀ call ∈ calls, t ≤ call.1.snapshot.completedAt)
    (hforward : calls.Pairwise (fun a b => a.1.snapshot.completedAt ≤ b.1.snapshot.completedAt))
    (hserved : ∀ call ∈ calls, call.1.Served config S) :
    ∃ u, Sound T config S u (run (advanced T config) store calls) := by
  induction calls generalizing t store with
  | nil => exact ⟨t, h⟩
  | cons call rest ih =>
    obtain ⟨hfirst, hrest⟩ := List.pairwise_cons.mp hforward
    have hstep := sound_advanced (h.later (hlater call List.mem_cons_self))
      (hserved call List.mem_cons_self)
    exact ih hstep hfirst hrest (fun other hother => hserved other (List.mem_cons_of_mem _ hother))

/-- **The cache is exact.** From a cache without a valid checkpoint, and for snapshots that come in
    the order of time: after any run of calls that read the complete quote table, each of them
    possibly lost on its way, what can be read for a snapshot is what the query over the quote table
    returns for it, and never the part of a history that is still being built. -/
theorem exactRead_of_run {initial : CacheStore} (hfresh : initial.checkpoint? config = none)
    {calls : List (AdvanceCall × Option ℕ)}
    (hforward : calls.Pairwise (fun a b => a.1.snapshot.completedAt ≤ b.1.snapshot.completedAt))
    (hserved : ∀ call ∈ calls, call.1.Served config S) (snapshot : ScanSnapshot) :
    ExactRead T config S.rows (run (advanced T config) initial calls) snapshot := by
  -- the invariant holds, at the time of the first snapshot or, before any call, at any time
  have hsound : ∃ u, Sound T config S u (run (advanced T config) initial calls) := by
    cases calls with
    | nil => exact ⟨0, sound_of_none hfresh⟩
    | cons call rest =>
      refine sound_run (t := call.1.snapshot.completedAt) (sound_of_none hfresh) ?_ hforward hserved
      intro other hother
      rcases List.mem_cons.mp hother with rfl | hrest
      · exact le_refl _
      · exact (List.pairwise_cons.mp hforward).1 other hrest
  obtain ⟨u, hsound⟩ := hsound
  exact exactRead_of_sound hsound snapshot

/-! ### A run of four calls -/

/-- Texts that are upper case already. -/
def sampleTexts : CycleTexts where
  upper := id
  upper_upper _ := rfl
  contentNumber _ := 0

/-- One row a day, of the day and a half that end half a day before a snapshot. -/
def dailyConfig : CycleConfig where
  rowsPerDay := 1
  requiredHistory := 2 * dayLength
  effectiveHistory := dayLength / 2

/-- A quote of Bitcoin. -/
def sampleQuote (observedAt : Instant) : MarketQuote :=
  ⟨"kraken", "BTC", .spot, "BTC/USD", 100, observedAt⟩

/-- The row of a quote, by its number. -/
def sampleRow (id : ℕ) (observedAt : Instant) : QuoteRow where
  id := id
  venue := "kraken"
  asset := "BTC"
  observedAt := observedAt
  payload := sampleQuote observedAt

/-- Two quotes of the first day of the window, and one of its last day. -/
def sampleHistory : SourceHistory where
  rows := [sampleRow 1 (dayLength + 1), sampleRow 2 (dayLength + 2), sampleRow 3 (2 * dayLength)]
  distinct := by decide

/-- A scan that found a quote. -/
def sampleScan (scanId : String) (completedAt : Instant) : ScanSnapshot where
  scanId := scanId
  completedAt := completedAt
  marketQuotes := [sampleQuote completedAt]
  orderBooks := []

/-- A call that has the time for one bucket. -/
def sampleCall (snapshot : ScanSnapshot) : AdvanceCall where
  snapshot := snapshot
  source _ := .quoteTable sampleHistory.rows
  queryBudget := 1
  visits := 1
  timeLeft := true

def firstScan : ScanSnapshot := sampleScan "first" (3 * dayLength)

def secondScan : ScanSnapshot := sampleScan "second" (3 * dayLength + 2)

/-- The first call is lost between its first bucket and the record of it.  The third call is given
    a newer snapshot and completes the older one, and the fourth serves the newer one. -/
def sampleCalls : List (AdvanceCall × Option ℕ) :=
  [(sampleCall firstScan, some 7), (sampleCall firstScan, none), (sampleCall secondScan, none),
    (sampleCall secondScan, none)]

/-- A cache that was never opened. -/
def emptyCache : CacheStore := ⟨[], none⟩

theorem served_sampleCalls : ∀ call ∈ sampleCalls, call.1.Served dailyConfig sampleHistory := by
  intro call hcall
  have horder : call.1.source = (fun _ => .quoteTable sampleHistory.rows)
      ∧ InOrderAt sampleHistory (longCutoff dailyConfig call.1.snapshot.completedAt) := by
    revert call
    unfold InOrderAt
    simp only [sampleCalls, List.forall_mem_cons]
    exact ⟨⟨rfl, by decide⟩, ⟨rfl, by decide⟩, ⟨rfl, by decide⟩, ⟨rfl, by decide⟩, by simp⟩
  exact ⟨fun k => ⟨sampleHistory.rows, congrFun horder.1 k, List.Perm.refl _⟩, horder.2⟩

/-- The reads after the four calls: the newer snapshot's history is the newest quote of each of its
    two days, and the older snapshot, which is no longer served, has none. -/
theorem exactRead_sampleCalls :
    ExactRead sampleTexts dailyConfig sampleHistory.rows
        (run (advanced sampleTexts dailyConfig) emptyCache sampleCalls) secondScan
      ∧ (load sampleTexts dailyConfig (run (advanced sampleTexts dailyConfig) emptyCache sampleCalls)
          secondScan).map (fun grouped => ((grouped.get? ("kraken", "BTC", .spot)).getD []).map
            MarketQuote.observedAt) = some [dayLength + 2, 2 * dayLength]
      ∧ (load sampleTexts dailyConfig (run (advanced sampleTexts dailyConfig) emptyCache sampleCalls)
          firstScan).isNone = true :=
  ⟨exactRead_of_run rfl (by decide) served_sampleCalls secondScan, by decide +kernel,
    by decide +kernel⟩

end InefficiencyEngine.CycleHistory
