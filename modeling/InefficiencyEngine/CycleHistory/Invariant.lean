import InefficiencyEngine.CycleHistory.Buckets

namespace InefficiencyEngine.CycleHistory

open Portfolio Durable

/-!
# What holds between the checkpoint and the rows

`CacheInv` relates the cached rows to the checkpoint, at the time of the newest target:

* every row is a row of the history, filed under its pair and the day on which it was observed;
* the days up to the one that is recorded for a pair are covered (`built`);
* the target being built has a slot of its own, covered for the pairs it has recorded (`Building`);
* the target being served is covered as a whole (`Certified`).

Each kind of write is shown to keep it, together with the checkpoint that is saved next.
-/

/-- What holds of the target being built. -/
structure Building (T : CycleTexts) (config : CycleConfig) (S : SourceHistory) (time : Instant)
    (rows : List CachedRow) (active : Option CycleTarget) (target : CycleTarget) : Prop where
  time : target.completedAt = time
  slot : target.boundaryNamespace ≠ .base
  apart : ∀ served ∈ active, served.boundaryNamespace ≠ target.boundaryNamespace
  upper : ∀ pair ∈ pairsOf target.keys, T.upper pair.2 = pair.2
  covered : ∀ pair ∈ pairsOf target.keys,
    target.boundaryCutoffs.get? pair = some (recentCutoff config target.completedAt) →
      LastDay T config S rows target.boundaryNamespace pair target.completedAt

/-- What holds of the target being served. -/
structure Certified (T : CycleTexts) (config : CycleConfig) (S : SourceHistory) (time : Instant)
    (rows : List CachedRow) (completed : Dict CyclePair Day) (target : CycleTarget) : Prop where
  time : target.completedAt ≤ time
  slot : target.boundaryNamespace ≠ .base
  upper : ∀ pair ∈ pairsOf target.keys, T.upper pair.2 = pair.2
  through : longCutoff config target.completedAt < recentCutoff config target.completedAt →
    ∀ pair ∈ pairsOf target.keys, stableEndDay config target.completedAt
      ≤ completedDay completed pair (firstDay config target.completedAt - 1)
  stable : longCutoff config target.completedAt < recentCutoff config target.completedAt →
    ∀ pair ∈ pairsOf target.keys, ∀ day, firstDay config target.completedAt ≤ day →
      day ≤ stableEndDay config target.completedAt →
      StableDay T config S rows pair day target.completedAt
  last : longCutoff config target.completedAt < recentCutoff config target.completedAt →
    ∀ pair ∈ pairsOf target.keys,
      LastDay T config S rows target.boundaryNamespace pair target.completedAt

/-- **The cache invariant**, at the time of the newest target. -/
structure CacheInv (T : CycleTexts) (config : CycleConfig) (S : SourceHistory) (time : Instant)
    (rows : List CachedRow) (completed : Dict CyclePair Day) (active working : Option CycleTarget) :
    Prop where
  placed : ∀ row ∈ rows, ∃ r ∈ S.rows, T.upper r.asset = r.asset
    ∧ row = r.cached T row.cacheNamespace (dayOf r.observedAt)
  nodup : rows.Nodup
  built : ∀ pair through, completed.get? pair = some through → T.upper pair.2 = pair.2 →
    ∀ day, firstDay config time ≤ day → day ≤ through → StableDay T config S rows pair day time
  building : ∀ target ∈ working, Building T config S time rows active target
  certified : ∀ target ∈ active, Certified T config S time rows completed target

variable {T : CycleTexts} {config : CycleConfig} {S : SourceHistory} {time after : Instant}
variable {rows rows' : List CachedRow} {store : CacheStore} {completed : Dict CyclePair Day}
variable {active working : Option CycleTarget} {target : CycleTarget}

/-! ### What a write leaves as it is -/

/-- A write to other buckets than those recorded of the last day. -/
theorem Building.frame (h : Building T config S time rows active target)
    (hlast : ∀ pair ∈ pairsOf target.keys,
      target.boundaryCutoffs.get? pair = some (recentCutoff config target.completedAt) →
      LastDay T config S rows target.boundaryNamespace pair target.completedAt →
      LastDay T config S rows' target.boundaryNamespace pair target.completedAt) :
    Building T config S time rows' active target :=
  { h with covered := fun pair hpair hcutoff => hlast pair hpair hcutoff (h.covered pair hpair hcutoff) }

/-- A write to other buckets than those that are served. -/
theorem Certified.frame (h : Certified T config S time rows completed target)
    (hstable : ∀ pair ∈ pairsOf target.keys,
      longCutoff config target.completedAt < recentCutoff config target.completedAt →
      ∀ day, firstDay config target.completedAt ≤ day → day ≤ stableEndDay config target.completedAt →
      StableDay T config S rows pair day target.completedAt →
      StableDay T config S rows' pair day target.completedAt)
    (hlast : ∀ pair ∈ pairsOf target.keys,
      LastDay T config S rows target.boundaryNamespace pair target.completedAt →
      LastDay T config S rows' target.boundaryNamespace pair target.completedAt) :
    Certified T config S time rows' completed target :=
  { h with
    stable := fun hopen pair hpair day hfirst hday =>
      hstable pair hpair hopen day hfirst hday (h.stable hopen pair hpair day hfirst hday)
    last := fun hopen pair hpair => hlast pair hpair (h.last hopen pair hpair) }

/-- The days that are served come before the next one of the pair. -/
theorem Certified.lt_next (h : Certified T config S time rows completed target)
    (hopen : longCutoff config target.completedAt < recentCutoff config target.completedAt)
    {pair : CyclePair} (hpair : pair ∈ pairsOf target.keys) {day next : Day}
    (hnext : ∀ through, completed.get? pair = some through → through < next)
    (hfirst : firstDay config target.completedAt ≤ day)
    (hday : day ≤ stableEndDay config target.completedAt) : day < next := by
  have hthrough := h.through hopen pair hpair
  unfold completedDay at hthrough
  cases hget : completed.get? pair with
  | none =>
    -- then the window has no stable days
    rw [hget, Option.getD_none] at hthrough
    exact absurd (hfirst.trans (hday.trans hthrough)) (not_le.mpr (Int.sub_one_lt_iff.mpr le_rfl))
  | some through =>
    rw [hget, Option.getD_some] at hthrough
    exact (hday.trans hthrough).trans_lt (hnext through hget)

/-- What is served stays served when a later day is recorded. -/
theorem Certified.record (h : Certified T config S time rows completed target) {pair : CyclePair}
    {next : Day} (hnext : ∀ through, completed.get? pair = some through → through < next)
    (hfirst : firstDay config time ≤ next) :
    Certified T config S time rows (completed.set pair next) target := by
  refine { h with through := fun hopen other hother => ?_ }
  have hthrough := h.through hopen other hother
  unfold completedDay at hthrough ⊢
  rw [Dict.get?_set]
  split_ifs with hsame
  · subst hsame
    rw [Option.getD_some]
    cases hget : completed.get? pair with
    | none =>
      have hmono : firstDay config target.completedAt ≤ firstDay config time := firstDay_mono h.time
      rw [hget, Option.getD_none] at hthrough
      calc stableEndDay config target.completedAt
          ≤ firstDay config target.completedAt - 1 := hthrough
        _ ≤ firstDay config target.completedAt := (Int.sub_one_lt_iff.mpr le_rfl).le
        _ ≤ next := hmono.trans hfirst
    | some through =>
      rw [hget, Option.getD_some] at hthrough
      exact hthrough.trans (hnext through hget).le
  · exact hthrough

/-! ### Targets begin -/

/-- An empty cache of a fresh checkpoint. -/
theorem CacheInv.fresh : CacheInv T config S time [] Dict.empty none none where
  placed row hrow := (List.not_mem_nil hrow).elim
  nodup := List.nodup_nil
  built pair through hget := by
    rw [Dict.get?_empty] at hget
    cases hget
  building target htarget := by cases htarget
  certified target htarget := by cases htarget

/-- While nothing is built, time may pass. -/
theorem CacheInv.later (h : CacheInv T config S time rows completed active none)
    (htime : time ≤ after) (horder : InOrderAt S (longCutoff config after)) :
    CacheInv T config S after rows completed active none where
  placed := h.placed
  nodup := h.nodup
  built pair through hget hupper day hfirst hday :=
    (h.built pair through hget hupper day ((firstDay_mono htime).trans hfirst) hday).later htime horder
  building target htarget := by cases htarget
  certified target htarget :=
    { h.certified target htarget with time := (h.certified target htarget).time.trans htime }

/-- The slot that is not served is reset. -/
theorem CacheInv.resetNamespace {slot : Namespace}
    (h : CacheInv T config S time store.rows completed active none) (hslot : slot ≠ .base)
    (hapart : ∀ served ∈ active, served.boundaryNamespace ≠ slot) :
    CacheInv T config S time (store.commit (.resetNamespace slot)).rows completed active none where
  placed row hrow := h.placed row (mem_resetNamespace.mp hrow).1
  nodup := h.nodup.sublist List.filter_sublist
  built pair through hget hupper day hfirst hday :=
    (h.built pair through hget hupper day hfirst hday).resetNamespace hslot.symm
  building target htarget := by cases htarget
  certified target htarget :=
    { h.certified target htarget with
      stable := fun hopen pair hpair day hfirst hday =>
        ((h.certified target htarget).stable hopen pair hpair day hfirst hday).resetNamespace
          hslot.symm
      last := fun hopen pair hpair =>
        ((h.certified target htarget).last hopen pair hpair).resetNamespace (hapart target htarget) }

/-- A new target has nothing of its last day yet. -/
theorem CacheInv.start (h : CacheInv T config S time rows completed active none)
    (htime : target.completedAt = time) (hslot : target.boundaryNamespace ≠ .base)
    (hapart : ∀ served ∈ active, served.boundaryNamespace ≠ target.boundaryNamespace)
    (hupper : ∀ pair ∈ pairsOf target.keys, T.upper pair.2 = pair.2)
    (hcutoffs : target.boundaryCutoffs = Dict.empty) :
    CacheInv T config S time rows completed active (some target) where
  placed := h.placed
  nodup := h.nodup
  built := h.built
  building := by
    intro other hother
    injection hother with hother
    subst hother
    refine ⟨htime, hslot, hapart, hupper, fun pair _ hcutoff => ?_⟩
    rw [hcutoffs, Dict.get?_empty] at hcutoff
    cases hcutoff
  certified := h.certified

/-! ### Buckets are written -/

section Write

variable {source : BucketSource} {ns slot : Namespace} {pair : CyclePair} {day : Day}
variable {start stop horizon : Instant}

/-- The rows of a bucket are filed there. -/
theorem selectBucket_inBucket (hupper : T.upper pair.2 = pair.2)
    (hsource : ReadsTable S source horizon) (hstop : stop ≤ horizon) :
    ∀ row ∈ selectBucket T config source ns pair day start stop,
      row.inBucket ns pair day = true := by
  intro row hrow
  obtain ⟨r, -, hin, -, rfl⟩ := (mem_selectBucket hsource hstop).mp hrow
  exact (cached_inBucket_iff hupper hin).mpr ⟨rfl, rfl, rfl⟩

/-- Rows stay filed under the day on which they were observed. -/
theorem placed_replaceBucket
    (h : ∀ row ∈ store.rows, ∃ r ∈ S.rows, T.upper r.asset = r.asset
      ∧ row = r.cached T row.cacheNamespace (dayOf r.observedAt))
    (hupper : T.upper pair.2 = pair.2) (hsource : ReadsTable S source horizon) (hstop : stop ≤ horizon)
    (hday : ∀ t, start ≤ t → t < stop → dayOf t = day) :
    ∀ row ∈ (store.commit (.replaceBucket ns pair day
        (selectBucket T config source ns pair day start stop))).rows,
      ∃ r ∈ S.rows, T.upper r.asset = r.asset
        ∧ row = r.cached T row.cacheNamespace (dayOf r.observedAt) := by
  intro row hrow
  rcases mem_replaceBucket.mp hrow with ⟨hold, -⟩ | hnew
  · exact h row hold
  · obtain ⟨r, hr, hin, -, rfl⟩ := (mem_selectBucket hsource hstop).mp hnew
    obtain ⟨-, hasset, hle, hlt⟩ := within_iff.mp hin
    refine ⟨r, hr, by rw [hasset, hupper], ?_⟩
    rw [hday r.observedAt hle hlt]
    rfl

/-- Rows stay different. The old rows of the bucket go, and the new ones are different rows of
    the table. -/
theorem nodup_replaceBucket (h : store.rows.Nodup) (hupper : T.upper pair.2 = pair.2)
    (hsource : ReadsTable S source horizon) (hstop : stop ≤ horizon) :
    (store.commit (.replaceBucket ns pair day
      (selectBucket T config source ns pair day start stop))).rows.Nodup := by
  refine List.Nodup.append (h.sublist List.filter_sublist) (nodup_selectBucket hsource hstop) ?_
  intro row hkept hselected
  have hin := selectBucket_inBucket hupper hsource hstop row hselected
  have hout := (List.mem_filter.mp hkept).2
  rw [hin] at hout
  cases hout

/-- The bucket of a stable day, as the loop writes it. -/
def stableWrite (T : CycleTexts) (config : CycleConfig) (source : BucketSource) (time : Instant)
    (pair : CyclePair) (day : Day) : CacheWrite :=
  .replaceBucket .base pair day (selectBucket T config source .base pair day
    (max (longCutoff config time) (dayStart day)) (dayStart day + dayLength))

/-- The bucket of the last day, as the loop writes it. -/
def lastWrite (T : CycleTexts) (config : CycleConfig) (source : BucketSource) (time : Instant)
    (slot : Namespace) (pair : CyclePair) : CacheWrite :=
  .replaceBucket slot pair (boundaryDay config time) (selectBucket T config source slot pair
    (boundaryDay config time) (boundaryStart config time) (recentCutoff config time))

/-- **The next stable day** of a pair is written: every day that was covered still is. The day
    lies behind everything covered so far and in the namespace of the stable days, so it
    replaces no bucket that a reader relies on. -/
theorem CacheInv.writeStable (h : CacheInv T config S time store.rows completed active working)
    (hupper : T.upper pair.2 = pair.2) (hsource : ReadsTable S source horizon)
    (hhorizon : dayStart day + dayLength ≤ horizon)
    (hnext : ∀ through, completed.get? pair = some through → through < day) :
    CacheInv T config S time (store.commit (stableWrite T config source time pair day)).rows completed
      active working := by
  have hselected : ∀ row ∈ selectBucket T config source .base pair day
        (max (longCutoff config time) (dayStart day)) (dayStart day + dayLength),
      row.inBucket .base pair day = true :=
    selectBucket_inBucket hupper hsource hhorizon
  have hdays : ∀ t, max (longCutoff config time) (dayStart day) ≤ t → t < dayStart day + dayLength →
      dayOf t = day :=
    fun t hle hlt => dayOf_eq_iff.mpr ⟨(le_max_right _ _).trans hle, hlt⟩
  constructor
  case placed => exact placed_replaceBucket h.placed hupper hsource hhorizon hdays
  case nodup => exact nodup_replaceBucket h.nodup hupper hsource hhorizon
  -- the other stable days: the one written is later than what this pair has completed
  case built =>
    intro other through hget hother e hge hle
    refine Covered.replaceBucket (h.built other through hget hother e hge hle) hother hselected ?_
    rintro ⟨-, rfl, rfl⟩
    exact absurd hle (not_le.mpr (hnext through hget))
  -- the last days lie in another namespace
  case building =>
    intro target htarget
    have hold := h.building target htarget
    refine hold.frame (fun other hother _ hlast => ?_)
    exact Covered.replaceBucket hlast (hold.upper other hother) hselected
      (fun hsame => hold.slot hsame.1)
  -- and the days that readers are served come before the next one
  case certified =>
    intro target htarget
    have hold := h.certified target htarget
    refine hold.frame (fun other hother hopen e hge hle hstable => ?_) (fun other hother hlast => ?_)
    · refine Covered.replaceBucket hstable (hold.upper other hother) hselected ?_
      rintro ⟨-, rfl, rfl⟩
      exact lt_irrefl e (hold.lt_next hopen hother hnext hge hle)
    · exact Covered.replaceBucket hlast (hold.upper other hother) hselected
        (fun hsame => hold.slot hsame.1)

/-- **The written day is recorded.** -/
theorem CacheInv.recordStable (h : CacheInv T config S time store.rows completed active working)
    (hupper : T.upper pair.2 = pair.2) (hsource : ReadsTable S source horizon)
    (hhorizon : dayStart day + dayLength ≤ horizon) (hfirst : firstDay config time ≤ day)
    (hnext : ∀ through, completed.get? pair = some through → through < day)
    (hgap : ∀ before, firstDay config time ≤ before → before < day →
      ∃ through, completed.get? pair = some through ∧ before ≤ through) :
    CacheInv T config S time (store.commit (stableWrite T config source time pair day)).rows
      (completed.set pair day) active working := by
  have hkept := h.writeStable hupper hsource hhorizon hnext
  refine { hkept with
    built := ?_
    certified := fun target htarget => (hkept.certified target htarget).record hnext hfirst }
  intro other through hget hother e hge hle
  rw [Dict.get?_set] at hget
  split_ifs at hget with hsame
  · subst hsame
    injection hget with hget
    subst hget
    by_cases heq : e = day
    · subst heq
      exact covered_replaceBucket hupper hsource hhorizon
    · -- a day before the written one was recorded already
      obtain ⟨through, hthrough, hle'⟩ := hgap e hge (lt_of_le_of_ne hle heq)
      exact hkept.built pair through hthrough hupper e hge hle'
  · exact hkept.built other through hget hother e hge hle

/-- The instants of the last day. -/
theorem dayOf_last {t : Instant} (hstart : boundaryStart config time ≤ t)
    (hstop : t < recentCutoff config time) : dayOf t = boundaryDay config time := by
  have hge : boundaryDay config time ≤ dayOf t := by
    have hle := dayOf_mono ((le_max_right _ _).trans hstart)
    rwa [(dayOf_eq_iff.mpr ⟨le_refl _, Int.lt_add_of_pos_right _ (by decide)⟩ :
      dayOf (dayStart (boundaryDay config time)) = boundaryDay config time)] at hle
  exact le_antisymm (dayOf_mono hstop.le) hge

/-- **The last day** of a pair is written to the slot of the target being built. The slot of the
    target being built is not the one that readers are served from, so what is served stays as
    it is until the promotion. -/
theorem CacheInv.writeLast
    (h : CacheInv T config S time store.rows completed active (some target))
    (hpair : pair ∈ pairsOf target.keys) (hsource : ReadsTable S source horizon)
    (hhorizon : recentCutoff config time ≤ horizon)
    (hmissing : target.boundaryCutoffs.get? pair ≠ some (recentCutoff config time)) :
    CacheInv T config S time
      (store.commit (lastWrite T config source time target.boundaryNamespace pair)).rows completed
      active (some target) := by
  have hbuild := h.building target rfl
  have hupper := hbuild.upper pair hpair
  have hselected : ∀ row ∈ selectBucket T config source target.boundaryNamespace pair
        (boundaryDay config time) (boundaryStart config time) (recentCutoff config time),
      row.inBucket target.boundaryNamespace pair (boundaryDay config time) = true :=
    selectBucket_inBucket hupper hsource hhorizon
  constructor
  case placed =>
    exact placed_replaceBucket h.placed hupper hsource hhorizon (fun t hle hlt => dayOf_last hle hlt)
  case nodup => exact nodup_replaceBucket h.nodup hupper hsource hhorizon
  -- the stable days lie in the other namespace
  case built =>
    intro other through hget hother e hge hle
    exact Covered.replaceBucket (h.built other through hget hother e hge hle) hother hselected
      (fun hsame => hbuild.slot hsame.1.symm)
  -- of the target being built, only this pair's last day changes, and it was missing
  case building =>
    intro target' htarget'
    injection htarget' with htarget'
    subst htarget'
    refine hbuild.frame (fun other hother hcutoff hlast => ?_)
    refine Covered.replaceBucket hlast (hbuild.upper other hother) hselected ?_
    rintro ⟨-, rfl, -⟩
    rw [hbuild.time] at hcutoff
    exact hmissing hcutoff
  -- what readers are served lies in the other slot
  case certified =>
    intro served hserved
    have hold := h.certified served hserved
    refine hold.frame (fun other hother _ e _ _ hstable => ?_) (fun other hother hlast => ?_)
    · exact Covered.replaceBucket hstable (hold.upper other hother) hselected
        (fun hsame => hbuild.slot hsame.1.symm)
    · exact Covered.replaceBucket hlast (hold.upper other hother) hselected
        (fun hsame => hbuild.apart served hserved hsame.1)

/-- **The last day is recorded.** -/
theorem CacheInv.recordLast
    (h : CacheInv T config S time store.rows completed active (some target))
    (hpair : pair ∈ pairsOf target.keys) (hsource : ReadsTable S source horizon)
    (hhorizon : recentCutoff config time ≤ horizon)
    (hmissing : target.boundaryCutoffs.get? pair ≠ some (recentCutoff config time)) {stop : Instant} :
    CacheInv T config S time
      (store.commit (lastWrite T config source time target.boundaryNamespace pair)).rows completed
      active (some { target with boundaryCutoffs := target.boundaryCutoffs.set pair stop }) := by
  have hkept := h.writeLast hpair hsource hhorizon hmissing
  have hbuild := hkept.building target rfl
  refine { hkept with building := ?_ }
  intro target' htarget'
  injection htarget' with htarget'
  subst htarget'
  refine ⟨hbuild.time, hbuild.slot, hbuild.apart, hbuild.upper, fun other hother hcutoff => ?_⟩
  by_cases hsame : pair = other
  · subst hsame
    show LastDay T config S _ target.boundaryNamespace pair target.completedAt
    rw [hbuild.time]
    exact covered_replaceBucket (hbuild.upper pair hpair) hsource hhorizon
  · rw [Dict.get?_set_of_ne _ _ hsame] at hcutoff
    exact hbuild.covered other hother hcutoff

end Write

/-! ### Targets are promoted -/

/-- **Promotion.** A target whose days are all recorded is certified. -/
theorem CacheInv.promote (h : CacheInv T config S time rows completed active (some target))
    (hcomplete : longCutoff config target.completedAt < recentCutoff config target.completedAt →
      ∀ pair ∈ pairsOf target.keys,
        stableEndDay config target.completedAt
            ≤ completedDay completed pair (firstDay config target.completedAt - 1)
          ∧ target.boundaryCutoffs.get? pair = some (recentCutoff config target.completedAt))
    {promoted : CycleTarget} (hpromoted : promoted = { target with boundaryCutoffs := Dict.empty }) :
    CacheInv T config S time rows completed (some promoted) none where
  placed := h.placed
  nodup := h.nodup
  built := h.built
  building other hother := by cases hother
  certified other hother := by
    injection hother with hother
    subst hother
    subst hpromoted
    have hbuild := h.building target rfl
    refine ⟨hbuild.time.le, hbuild.slot, hbuild.upper, ?_, ?_, ?_⟩
    · exact fun hopen pair hpair => (hcomplete hopen pair hpair).1
    · intro hopen pair hpair day hfirst hday
      have hthrough := (hcomplete hopen pair hpair).1
      unfold completedDay at hthrough
      cases hget : completed.get? pair with
      | none =>
        -- there are no stable days
        rw [hget, Option.getD_none] at hthrough
        exact absurd (hfirst.trans (hday.trans hthrough)) (not_le.mpr (Int.sub_one_lt_iff.mpr le_rfl))
      | some through =>
        rw [hget, Option.getD_some] at hthrough
        have hstable := h.built pair through hget (hbuild.upper pair hpair) day
          (by rw [← hbuild.time]; exact hfirst) (hday.trans hthrough)
        rwa [← hbuild.time] at hstable
    · exact fun hopen pair hpair => hbuild.covered pair hpair (hcomplete hopen pair hpair).2

/-- **Retention.** Rows from before the window of the served target are not needed. -/
theorem CacheInv.dropBefore {floor : Instant}
    (h : CacheInv T config S time store.rows completed active none)
    (hfloor : floor ≤ longCutoff config time)
    (hserved : ∀ served ∈ active, floor ≤ longCutoff config served.completedAt) :
    CacheInv T config S time (store.commit (.dropBefore floor)).rows completed active none where
  placed row hrow := h.placed row (mem_dropBefore.mp hrow).1
  nodup := h.nodup.sublist List.filter_sublist
  built pair through hget hupper day hfirst hday :=
    Covered.dropBefore (h.built pair through hget hupper day hfirst hday)
      (hfloor.trans (le_max_left _ _))
  building target htarget := by cases htarget
  certified target htarget :=
    (h.certified target htarget).frame
      (fun _ _ _ _ _ _ hstable =>
        Covered.dropBefore hstable ((hserved target htarget).trans (le_max_left _ _)))
      (fun _ _ hlast =>
        Covered.dropBefore hlast ((hserved target htarget).trans (le_max_left _ _)))

end InefficiencyEngine.CycleHistory
