import InefficiencyEngine.CycleHistory.Invariant
import InefficiencyEngine.Lib.Accumulate
import Mathlib.Data.List.Dedup

namespace InefficiencyEngine.CycleHistory

open Portfolio Durable

/-!
# The cached history is the queried one

`advance` is called again and again, each call for the snapshot of its scan.  It may end anywhere:
its time budget is used up, its query budget is, or the process is lost between two writes.  The
invariant of the cache holds after every write (`spec_advance`), so it holds after any sequence of
such calls (`sound_run`).  What can be read from a cache with the invariant is what the query of
`_compact_cycle_history` would return (`exactRead_of_sound`).
-/

variable {T : CycleTexts} {config : CycleConfig} {S : SourceHistory} {t : Instant}

/-! ### Keys and pairs -/

theorem mem_pairsOf {keys : List CycleKey} {pair : CyclePair} :
    pair ∈ pairsOf keys ↔ ∃ key ∈ keys, (key.1, key.2.1) = pair := by
  rw [pairsOf, List.mem_insertionSort, List.mem_dedup, List.mem_map]

/-- The assets of a snapshot's keys are in upper case. -/
theorem upper_of_mem_currentKeys {snapshot : ScanSnapshot} :
    ∀ pair ∈ pairsOf (currentKeys T snapshot), T.upper pair.2 = pair.2 := by
  intro pair hpair
  obtain ⟨key, hkey, rfl⟩ := mem_pairsOf.mp hpair
  rw [currentKeys, List.mem_dedup, List.mem_map] at hkey
  obtain ⟨quote, -, rfl⟩ := hkey
  exact T.upper_upper quote.asset

/-- Equal sets of keys have the same pairs. -/
theorem mem_pairsOf_of_sameKeys {keys others : List CycleKey} (h : sameKeys keys others = true)
    {pair : CyclePair} : pair ∈ pairsOf keys ↔ pair ∈ pairsOf others := by
  rw [sameKeys, Bool.and_eq_true, List.all_eq_true, List.all_eq_true] at h
  rw [mem_pairsOf, mem_pairsOf]
  constructor
  · rintro ⟨key, hkey, heq⟩
    exact ⟨key, List.contains_iff_mem.mp (h.1 key hkey), heq⟩
  · rintro ⟨key, hkey, heq⟩
    exact ⟨key, List.contains_iff_mem.mp (h.2 key hkey), heq⟩

/-- The slot of a new target is a slot, and not the one that is served. -/
theorem inactiveBoundaryNamespace_apart (active : Option CycleTarget) :
    inactiveBoundaryNamespace active ≠ .base
      ∧ ∀ served ∈ active, served.boundaryNamespace ≠ inactiveBoundaryNamespace active := by
  unfold inactiveBoundaryNamespace
  constructor
  · split_ifs <;> decide
  · rintro served rfl
    rw [Option.any_some]
    split_ifs with hslot
    · rw [of_decide_eq_true hslot]
      decide
    · exact fun heq => hslot (decide_eq_true heq)

/-! ### Between two calls -/

/-- The invariant holds of a store with a valid checkpoint. -/
def Sound (T : CycleTexts) (config : CycleConfig) (S : SourceHistory) (t : Instant)
    (store : CacheStore) : Prop :=
  ∀ checkpoint, store.checkpoint? config = some checkpoint → ∃ time ≤ t,
    CacheInv T config S time store.rows checkpoint.pairCompletedThrough checkpoint.activeTarget
      checkpoint.workingTarget

/-- The store has this checkpoint, and the invariant holds. -/
def SoundAt (T : CycleTexts) (config : CycleConfig) (S : SourceHistory) (t : Instant)
    (checkpoint : Checkpoint) (store : CacheStore) : Prop :=
  store.checkpoint? config = some checkpoint ∧ ∃ time ≤ t,
    CacheInv T config S time store.rows checkpoint.pairCompletedThrough checkpoint.activeTarget
      checkpoint.workingTarget

theorem SoundAt.sound {checkpoint : Checkpoint} {store : CacheStore}
    (h : SoundAt T config S t checkpoint store) : Sound T config S t store := by
  intro other hother
  obtain ⟨hcheckpoint, hinv⟩ := h
  rw [hcheckpoint] at hother
  injection hother with hother
  exact hother ▸ hinv

theorem sound_of_none {store : CacheStore} (h : store.checkpoint? config = none) :
    Sound T config S t store := by
  intro checkpoint hcheckpoint
  rw [h] at hcheckpoint
  cases hcheckpoint

theorem Sound.later {store : CacheStore} {u : Instant} (h : Sound T config S t store)
    (htu : t ≤ u) : Sound T config S u store := by
  intro checkpoint hcheckpoint
  obtain ⟨time, htime, hinv⟩ := h checkpoint hcheckpoint
  exact ⟨time, htime.trans htu, hinv⟩

theorem valid_of_checkpoint? {store : CacheStore} {checkpoint : Checkpoint}
    (h : store.checkpoint? config = some checkpoint) : checkpoint.valid config = true :=
  (Option.filter_eq_some_iff.mp h).2

theorem checkpoint?_saveCheckpoint {store : CacheStore} {checkpoint : Checkpoint}
    (h : checkpoint.valid config = true) :
    (store.commit (.saveCheckpoint checkpoint)).checkpoint? config = some checkpoint :=
  Option.filter_eq_some_iff.mpr ⟨rfl, h⟩

/-! ### Opening the checkpoint -/

/-- Without a valid checkpoint any namespace may be reset. -/
theorem spec_resetNamespace {P : Namespace → Prop} (ns : Namespace) :
    Prog.Spec (fun store => store.checkpoint? config = none
        ∧ ∀ row ∈ store.rows, P row.cacheNamespace)
      (Prog.write (.resetNamespace ns) : CacheProg Unit) (Along.Keeps (Sound T config S t))
      (fun _ store => store.checkpoint? config = none
        ∧ ∀ row ∈ store.rows, P row.cacheNamespace ∧ row.cacheNamespace ≠ ns) := by
  refine Prog.spec_write_at (fun store hstore => ⟨sound_of_none hstore.1, hstore.1, ?_⟩)
  intro row hrow
  obtain ⟨hmem, hne⟩ := mem_resetNamespace.mp hrow
  exact ⟨hstore.2 row hmem, hne⟩

theorem spec_openCheckpoint :
    Prog.Spec (Sound T config S t) (openCheckpoint config) (Along.Keeps (Sound T config S t))
      (SoundAt T config S t) := by
  unfold openCheckpoint
  refine Prog.spec_get_bind (fun store hstore => ?_)
  cases hcheckpoint : store.checkpoint? config with
  -- a valid checkpoint is taken as it is
  | some checkpoint =>
    refine (Prog.spec_pure checkpoint).pre (fun s hs => ?_)
    subst hs
    exact ⟨hcheckpoint, hstore checkpoint hcheckpoint⟩
  -- without one the namespaces are cleared, and the fresh checkpoint starts on no rows
  | none =>
    refine (Prog.spec_bind (spec_resetNamespace (P := fun _ => True) .base) (fun _ =>
      Prog.spec_bind (spec_resetNamespace (P := fun ns => True ∧ ns ≠ .base) .slotA) (fun _ =>
      Prog.spec_bind (spec_resetNamespace (P := fun ns => (True ∧ ns ≠ .base) ∧ ns ≠ .slotA) .slotB)
        (fun _ =>
      Prog.spec_bind (Q := fun _ => SoundAt T config S t (freshCheckpoint config)) ?_
        (fun _ => Prog.spec_pure (freshCheckpoint config)))))).pre ?_
    · refine Prog.spec_write_at (fun s hs => ?_)
      have hempty : s.rows = [] := by
        refine List.eq_nil_iff_forall_not_mem.mpr (fun row hrow => ?_)
        obtain ⟨⟨⟨-, hbase⟩, hslotA⟩, hslotB⟩ := hs.2 row hrow
        cases hns : row.cacheNamespace with
        | base => exact hbase hns
        | slotA => exact hslotA hns
        | slotB => exact hslotB hns
      have hvalid : (freshCheckpoint config).valid config = true := by
        simp [Checkpoint.valid, freshCheckpoint]
      have hat : SoundAt T config S t (freshCheckpoint config)
          (s.commit (.saveCheckpoint (freshCheckpoint config))) := by
        refine ⟨checkpoint?_saveCheckpoint hvalid, t, le_refl t, ?_⟩
        show CacheInv T config S t s.rows _ _ _
        rw [hempty]
        exact CacheInv.fresh
      exact ⟨hat.sound, hat⟩
    · rintro s rfl
      exact ⟨hcheckpoint, fun _ _ => trivial⟩

/-! ### A new target -/

theorem spec_startWorkingTarget {call : AdvanceCall} (hcall : call.snapshot.completedAt = t)
    (horder : InOrderAt S (longCutoff config t)) (checkpoint : Checkpoint) :
    Prog.Spec (SoundAt T config S t checkpoint) (startWorkingTarget T call checkpoint)
      (Along.Keeps (Sound T config S t)) (SoundAt T config S t) := by
  unfold startWorkingTarget
  split_ifs with hstart
  -- no target is being built: the inactive slot is cleared before the new target is saved
  · have hnone : checkpoint.workingTarget = none :=
      Option.isNone_iff_eq_none.mp ((Bool.and_eq_true _ _).mp hstart).1
    obtain ⟨hslot, hapart⟩ := inactiveBoundaryNamespace_apart checkpoint.activeTarget
    refine Prog.spec_bind (Q := fun _ => SoundAt T config S t checkpoint) ?_ (fun _ =>
      Prog.spec_bind (Q := fun _ => SoundAt T config S t { checkpoint with
        nextPairIndex := 0
        workingTarget := some (targetFromSnapshot T call.snapshot
          (inactiveBoundaryNamespace checkpoint.activeTarget)) }) ?_ (fun _ => Prog.spec_pure _))
    · refine Prog.spec_write_at (fun store hstore => ?_)
      obtain ⟨hcheckpoint, time, htime, hinv⟩ := hstore
      have hat : SoundAt T config S t checkpoint (store.commit (.resetNamespace
          (inactiveBoundaryNamespace checkpoint.activeTarget))) := by
        refine ⟨hcheckpoint, time, htime, ?_⟩
        rw [hnone] at hinv ⊢
        exact hinv.resetNamespace hslot hapart
      exact ⟨hat.sound, hat⟩
    · refine Prog.spec_write_at (fun store hstore => ?_)
      obtain ⟨hcheckpoint, time, htime, hinv⟩ := hstore
      rw [hnone] at hinv
      have hvalid : checkpoint.valid config = true := valid_of_checkpoint? hcheckpoint
      have hat : SoundAt T config S t _ (store.commit (.saveCheckpoint { checkpoint with
          nextPairIndex := 0
          workingTarget := some (targetFromSnapshot T call.snapshot
            (inactiveBoundaryNamespace checkpoint.activeTarget)) })) :=
        ⟨checkpoint?_saveCheckpoint hvalid, t, le_refl t,
          (hinv.later htime horder).start hcall hslot hapart upper_of_mem_currentKeys rfl⟩
      exact ⟨hat.sound, hat⟩
  -- one is being built already, and the call goes on with it
  · exact Prog.spec_pure checkpoint

/-! ### The loop -/

private theorem next_day_of {first completed day : ℤ}
    (h : max first (max (first - 1) completed + 1) = day) :
    first ≤ day ∧ completed < day ∧ ∀ before, first ≤ before → before < day → before ≤ completed := by
  rw [max_def, max_def] at h
  split_ifs at h <;> exact ⟨by omega, by omega, fun before _ _ => by omega⟩

/-- The stable day a pair needs next follows the recorded one, or is the first of the window. -/
theorem nextBucket_stable {target : CycleTarget} {state : BuildState} {pair : CyclePair} {day : Day}
    (h : nextBucket config target state pair = .stable day) :
    firstDay config target.completedAt ≤ day ∧ day ≤ stableEndDay config target.completedAt
      ∧ (∀ through, state.completed.get? pair = some through → through < day)
      ∧ ∀ before, firstDay config target.completedAt ≤ before → before < day →
        ∃ through, state.completed.get? pair = some through ∧ before ≤ through := by
  unfold nextBucket at h
  dsimp only at h
  split_ifs at h with hstable
  injection h with h
  obtain ⟨hfirst, hnext, hgap⟩ := next_day_of h
  unfold completedDay at hnext hgap
  refine ⟨hfirst, h ▸ hstable, fun through hget => ?_, fun before hge hlt => ?_⟩
  · rwa [hget, Option.getD_some] at hnext
  · have hle := hgap before hge hlt
    cases hget : state.completed.get? pair with
    | none =>
      rw [hget, Option.getD_none] at hle
      exact absurd (hge.trans hle) (not_le.mpr (Int.sub_one_lt_iff.mpr le_rfl))
    | some through =>
      rw [hget, Option.getD_some] at hle
      exact ⟨through, rfl, hle⟩

theorem nextBucket_boundary {target : CycleTarget} {state : BuildState} {pair : CyclePair}
    (h : nextBucket config target state pair = .boundary) :
    state.boundaryCutoffs.get? pair ≠ some (recentCutoff config target.completedAt) := by
  unfold nextBucket at h
  dsimp only at h
  split_ifs at h with hstable hmissing
  exact hmissing

/-- A stable day ends by the cutoff of its target. -/
theorem stable_end_le {day : Day} {time : Instant} (h : day ≤ stableEndDay config time) :
    dayStart day + dayLength ≤ recentCutoff config time :=
  (dayStart_add_le (Int.le_sub_one_iff.mp h)).trans (dayStart_dayOf_le _)

/-- While a target is built: the checkpoint has the progress of the loop, and the invariant holds. -/
structure BuildingAt (T : CycleTexts) (config : CycleConfig) (S : SourceHistory)
    (checkpoint : Checkpoint) (target : CycleTarget) (state : BuildState) (store : CacheStore) :
    Prop where
  saved : ∃ saved, store.checkpoint? config = some saved
    ∧ saved.pairCompletedThrough = state.completed ∧ saved.activeTarget = checkpoint.activeTarget
    ∧ saved.workingTarget = some { target with boundaryCutoffs := state.boundaryCutoffs }
  inv : CacheInv T config S target.completedAt store.rows state.completed checkpoint.activeTarget
    (some { target with boundaryCutoffs := state.boundaryCutoffs })

theorem BuildingAt.sound {checkpoint : Checkpoint} {target : CycleTarget} {state : BuildState}
    {store : CacheStore} (h : BuildingAt T config S checkpoint target state store)
    (htime : target.completedAt ≤ t) : Sound T config S t store := by
  intro other hother
  obtain ⟨saved, hsaved, hcompleted, hactive, hworking⟩ := h.saved
  rw [hsaved] at hother
  injection hother with hother
  subst hother
  refine ⟨target.completedAt, htime, ?_⟩
  rw [hcompleted, hactive, hworking]
  exact h.inv

section Loop

variable {call : AdvanceCall} {checkpoint : Checkpoint} {target : CycleTarget}

/-- A bucket is written, and then the progress saved. -/
theorem spec_writeBucket {state next : BuildState} {w : CacheWrite}
    (hvalid : checkpoint.valid config = true) (htime : target.completedAt ≤ t)
    (hkeeps : ∀ store : CacheStore, (store.commit w).checkpoint? config = store.checkpoint? config)
    (hwrite : ∀ store, BuildingAt T config S checkpoint target state store →
      CacheInv T config S target.completedAt (store.commit w).rows state.completed
          checkpoint.activeTarget (some { target with boundaryCutoffs := state.boundaryCutoffs })
        ∧ CacheInv T config S target.completedAt (store.commit w).rows next.completed
          checkpoint.activeTarget (some { target with boundaryCutoffs := next.boundaryCutoffs }))
    {rest : Unit → CacheProg BuildState} {Q : BuildState → CacheStore → Prop}
    (hrest : Prog.Spec (BuildingAt T config S checkpoint target next) (rest ())
      (Along.Keeps (Sound T config S t)) Q) :
    Prog.Spec (BuildingAt T config S checkpoint target state)
      (Prog.write w >>= fun _ => Prog.write (.saveCheckpoint (checkpoint.withProgress target next))
        >>= rest) (Along.Keeps (Sound T config S t)) Q := by
  refine Prog.spec_bind (Q := fun _ store => BuildingAt T config S checkpoint target state store
    ∧ CacheInv T config S target.completedAt store.rows next.completed checkpoint.activeTarget
      (some { target with boundaryCutoffs := next.boundaryCutoffs })) ?_ (fun _ =>
    Prog.spec_bind (Q := fun _ => BuildingAt T config S checkpoint target next) ?_
      (fun _ => hrest))
  -- the bucket is written: the saved progress is still that of the state before
  · refine Prog.spec_write_at (fun store hstore => ?_)
    obtain ⟨hbefore, hafter⟩ := hwrite store hstore
    have hat : BuildingAt T config S checkpoint target state (store.commit w) := by
      obtain ⟨saved, hsaved, hprogress⟩ := hstore.saved
      exact ⟨⟨saved, (hkeeps store).trans hsaved, hprogress⟩, hbefore⟩
    exact ⟨hat.sound htime, hat, hafter⟩
  -- the progress is saved: the rows already agree with the state after
  · refine Prog.spec_write_at (fun store hstore => ?_)
    have hat : BuildingAt T config S checkpoint target next
        (store.commit (.saveCheckpoint (checkpoint.withProgress target next))) :=
      ⟨⟨_, checkpoint?_saveCheckpoint hvalid, rfl, rfl, rfl⟩, hstore.2⟩
    exact ⟨hat.sound htime, hat⟩

/-- **The loop** keeps the invariant at each of its writes. A stable day and a last day go to
    buckets that the invariant leaves free for them, and turning to the next pair writes
    nothing. -/
theorem spec_buildBuckets (hvalid : checkpoint.valid config = true)
    (htime : target.completedAt ≤ t)
    (hsource : ∀ k, ReadsTable S (call.source k) (recentCutoff config t)) :
    ∀ visits state, Prog.Spec (BuildingAt T config S checkpoint target state)
      (buildBuckets T config call checkpoint target (pairsOf target.keys) visits state)
      (Along.Keeps (Sound T config S t)) (BuildingAt T config S checkpoint target) := by
  intro visits
  induction visits with
  | zero => exact fun state => Prog.spec_pure state
  | succ visits ih =>
    intro state
    rw [buildBuckets]
    split_ifs with hstop
    · exact Prog.spec_pure state
    · split
      · exact Prog.spec_pure state
      · rename_i pair hpair
        have hmem : pair ∈ pairsOf target.keys := List.mem_of_getElem? hpair
        have hcutoff : recentCutoff config target.completedAt ≤ recentCutoff config t :=
          recentCutoff_mono htime
        dsimp only
        split
        -- the next stable day: its end is behind the cutoff of the source that was read
        · rename_i day hnext
          obtain ⟨hfirst, hday, hafter, hgap⟩ := nextBucket_stable hnext
          refine spec_writeBucket hvalid htime (fun _ => rfl) (fun store hstore => ?_) (ih _)
          have hupper := (hstore.inv.building _ rfl).upper pair hmem
          have hhorizon := (stable_end_le hday).trans hcutoff
          exact ⟨hstore.inv.writeStable hupper (hsource _) hhorizon hafter,
            hstore.inv.recordStable hupper (hsource _) hhorizon hfirst hafter hgap⟩
        -- the last day: the pair had no boundary at this cutoff
        · rename_i hnext
          have hmissing := nextBucket_boundary hnext
          refine spec_writeBucket hvalid htime (fun _ => rfl) (fun store hstore => ?_) (ih _)
          exact ⟨hstore.inv.writeLast hmem (hsource _) hcutoff hmissing,
            hstore.inv.recordLast hmem (hsource _) hcutoff hmissing⟩
        · exact (ih _).pre (fun store hstore => ⟨hstore.saved, hstore.inv⟩)

/-- **The promotion** of a target all of whose days are recorded. The checkpoint is saved first
    and old rows are dropped afterwards; a call lost in between leaves more rows than needed,
    which no read returns. -/
theorem spec_promote {state : BuildState} (hvalid : checkpoint.valid config = true)
    (htime : target.completedAt ≤ t)
    (hcomplete : longCutoff config target.completedAt < recentCutoff config target.completedAt →
      ∀ pair ∈ pairsOf target.keys,
        stableEndDay config target.completedAt
            ≤ completedDay state.completed pair (firstDay config target.completedAt - 1)
          ∧ state.boundaryCutoffs.get? pair = some (recentCutoff config target.completedAt)) :
    Prog.Spec (BuildingAt T config S checkpoint target state)
      (promote config call checkpoint target state) (Along.Keeps (Sound T config S t))
      (fun _ _ => True) := by
  have hsound : ∀ store : CacheStore, ∀ saved : Checkpoint,
      store.checkpoint? config = some saved → CacheInv T config S target.completedAt store.rows
        saved.pairCompletedThrough saved.activeTarget saved.workingTarget →
      Sound T config S t store :=
    fun store saved hsaved hinv => SoundAt.sound ⟨hsaved, target.completedAt, htime, hinv⟩
  unfold promote
  refine Prog.spec_bind (Q := fun _ store => (∃ saved, store.checkpoint? config = some saved
      ∧ saved.pairCompletedThrough = state.completed
      ∧ saved.activeTarget = some { target with boundaryCutoffs := Dict.empty }
      ∧ saved.workingTarget = none) ∧ CacheInv T config S target.completedAt store.rows
        state.completed (some { target with boundaryCutoffs := Dict.empty }) none) ?_ (fun _ =>
    Prog.spec_bind (Q := fun _ _ => True) ?_
      (fun _ => Prog.spec_pure (Q := fun _ _ => True) _))
  -- the checkpoint with the target as the active one
  · refine Prog.spec_write_at (fun store hstore => ?_)
    have hinv := hstore.inv.promote hcomplete rfl
    exact ⟨hsound _ _ (checkpoint?_saveCheckpoint hvalid) hinv,
      ⟨_, checkpoint?_saveCheckpoint hvalid, rfl, rfl, rfl⟩, hinv⟩
  -- the rows before the retention floor are dropped, which the new target does not ask for
  · refine Prog.spec_writeOption_at (fun _ _ _ => trivial) (fun w hw store hstore => ?_)
    obtain ⟨⟨saved, hsaved, hcompleted, hactive, hworking⟩, hinv⟩ := hstore
    split_ifs at hw
    · injection hw with hw
      subst hw
      have hfloor : longCutoff config target.completedAt - retentionSafety
          ≤ longCutoff config target.completedAt :=
        Int.sub_le_self _ (by decide)
      have hdropped := hinv.dropBefore hfloor (fun served hserved => by
        injection hserved with hserved
        subst hserved
        exact hfloor)
      refine ⟨hsound _ saved hsaved ?_, trivial⟩
      rw [hcompleted, hactive, hworking]
      exact hdropped
    · cases hw

/-- Working on a target. Whatever buckets a call builds and wherever it is cut off, the store
    stays sound. -/
theorem spec_buildTarget (hvalid : checkpoint.valid config = true)
    (hworking : checkpoint.workingTarget = some target)
    (hsource : ∀ k, ReadsTable S (call.source k) (recentCutoff config t)) :
    Prog.Spec (SoundAt T config S t checkpoint) (buildTarget T config call checkpoint target)
      (Along.Keeps (Sound T config S t)) (fun _ _ => True) := by
  refine Prog.spec_of_forall (fun store₀ hstore₀ => ?_)
  obtain ⟨hcheckpoint, time, htime, hinv⟩ := hstore₀
  rw [hworking] at hinv
  -- the invariant is at the time of the target
  have hsame : target.completedAt = time := (hinv.building target rfl).time
  subst hsame
  unfold buildTarget
  dsimp only
  set start : BuildState :=
    { completed := checkpoint.pairCompletedThrough
      boundaryCutoffs := target.boundaryCutoffs
      pairIndex := if (pairsOf target.keys).isEmpty then 0
        else checkpoint.nextPairIndex % (pairsOf target.keys).length
      bucketQueries := 0
      idleVisits := 0 }
  have hbegin : BuildingAt T config S checkpoint target start store₀ :=
    ⟨⟨checkpoint, hcheckpoint, rfl, rfl, hworking⟩, hinv⟩
  have hfinish : ∀ state, Prog.Spec (BuildingAt T config S checkpoint target state)
      (if (target.trivial config || state.complete config target) = true then
        promote config call checkpoint target state
      else return reportOf checkpoint.activeTarget false false state.bucketQueries)
      (Along.Keeps (Sound T config S t)) (fun _ _ => True) := by
    intro state
    split_ifs with hcomplete
    · refine spec_promote hvalid htime (fun hopen pair hpair => ?_)
      rcases (Bool.or_eq_true _ _).mp hcomplete with htrivial | hall
      · -- a trivial target has an empty window or no pairs
        rcases (Bool.or_eq_true _ _).mp htrivial with hclosed | hnone
        · exact absurd hopen (not_lt.mpr (of_decide_eq_true hclosed))
        · rw [List.isEmpty_iff.mp hnone] at hpair
          exact (List.not_mem_nil hpair).elim
      · have hrecorded := (Bool.and_eq_true _ _).mp (List.all_eq_true.mp hall pair hpair)
        exact ⟨of_decide_eq_true hrecorded.1, of_decide_eq_true hrecorded.2⟩
    · exact (Prog.spec_pure _).pre (fun _ _ => trivial)
  split_ifs with htrivial
  · refine Prog.spec_bind (Q := BuildingAt T config S checkpoint target) ?_ hfinish
    refine (Prog.spec_pure start).pre (fun s hs => ?_)
    subst hs
    exact hbegin
  · refine Prog.spec_bind (Q := BuildingAt T config S checkpoint target) ?_ hfinish
    refine (spec_buildBuckets hvalid htime hsource call.visits start).pre (fun s hs => ?_)
    subst hs
    exact hbegin

/-- **One call** of `advance`, which may end after any of its writes. -/
theorem spec_advance (hcall : call.snapshot.completedAt = t)
    (horder : InOrderAt S (longCutoff config t))
    (hsource : ∀ k, ReadsTable S (call.source k) (recentCutoff config t)) :
    Prog.Spec (Sound T config S t) (advance T config call) (Along.Keeps (Sound T config S t))
      (fun _ _ => True) := by
  unfold advance
  refine Prog.spec_bind spec_openCheckpoint (fun checkpoint =>
    Prog.spec_bind (spec_startWorkingTarget hcall horder checkpoint) (fun checkpoint' => ?_))
  refine Prog.spec_of_forall (fun store₀ hstore₀ => ?_)
  have hvalid := valid_of_checkpoint? hstore₀.1
  split
  · exact (Prog.spec_pure _).pre (fun _ _ => trivial)
  · rename_i target hworking
    refine (spec_buildTarget hvalid hworking hsource).pre (fun s hs => ?_)
    subst hs
    exact hstore₀

end Loop

end InefficiencyEngine.CycleHistory
