import InefficiencyEngine.CycleHistory.ExactReads

namespace InefficiencyEngine.CycleHistory

open Portfolio Durable

/-!
# A target that is being built is served in the end

The target stays the same while newer snapshots come in, and every bucket that is written is
recorded.  `missing` counts the buckets that a target still needs.  No call raises it, also not one
that is lost; a call that is given the time to look at each pair lowers it or promotes the target.

A window without a stable day is left out: there a pair that was last recorded long ago counts as
incomplete and still has no bucket to build.
-/

variable {T : CycleTexts} {config : CycleConfig}

/-! ### Missing buckets -/

/-- How many buckets of a pair a target needs. -/
def missingOf (config : CycleConfig) (target : CycleTarget) (completed : Dict CyclePair Day)
    (cutoffs : Dict CyclePair Instant) (pair : CyclePair) : ℕ :=
  (stableEndDay config target.completedAt
      - max (firstDay config target.completedAt - 1)
        (completedDay completed pair (firstDay config target.completedAt - 1))).toNat
    + if cutoffs.get? pair = some (recentCutoff config target.completedAt) then 0 else 1

/-- How many buckets a target needs. -/
def missing (config : CycleConfig) (target : CycleTarget) (completed : Dict CyclePair Day)
    (cutoffs : Dict CyclePair Instant) : ℕ :=
  ((pairsOf target.keys).map (missingOf config target completed cutoffs)).sum

theorem nodup_pairsOf (keys : List CycleKey) : (pairsOf keys).Nodup :=
  (List.perm_insertionSort _ _).nodup_iff.mpr (List.nodup_dedup _)

/-- A sum in which one summand gets smaller by one. -/
theorem sum_map_of_succ {α : Type} {xs : List α} (hxs : xs.Nodup) {x : α} (hx : x ∈ xs)
    {f g : α → ℕ} (hsucc : f x = g x + 1) (hsame : ∀ y ∈ xs, y ≠ x → f y = g y) :
    (xs.map f).sum = (xs.map g).sum + 1 := by
  obtain ⟨before, after, rfl⟩ := List.append_of_mem hx
  have hnot := (List.nodup_middle.mp hxs).notMem
  have hbefore : before.map f = before.map g := by
    refine List.map_congr_left (fun y hy => hsame y (List.mem_append_left _ hy) ?_)
    rintro rfl
    exact hnot (List.mem_append_left _ hy)
  have hafter : after.map f = after.map g := by
    refine List.map_congr_left (fun y hy =>
      hsame y (List.mem_append_right _ (List.mem_cons_of_mem _ hy)) ?_)
    rintro rfl
    exact hnot (List.mem_append_right _ hy)
  simp only [List.map_append, List.map_cons, List.sum_append, List.sum_cons, hbefore, hafter, hsucc]
  omega

section Pair

variable {target : CycleTarget} {state : BuildState} {pair : CyclePair} {day : Day}

private theorem toNat_next {first completed last day : ℤ}
    (h : max first (max (first - 1) completed + 1) = day) (hlast : day ≤ last) :
    (last - max (first - 1) completed).toNat = (last - max (first - 1) day).toNat + 1 := by
  rw [max_def, max_def] at h
  rw [max_def, max_def]
  split_ifs at h ⊢ <;> omega

private theorem toNat_none {first completed last : ℤ}
    (h : ¬ max first (max (first - 1) completed + 1) ≤ last) :
    (last - max (first - 1) completed).toNat = 0 := by
  rw [max_def, max_def] at h
  rw [max_def]
  split_ifs at h ⊢ <;> omega

private theorem le_of_toNat {first completed last : ℤ} (hfirst : first ≤ last)
    (h : (last - max (first - 1) completed).toNat = 0) : last ≤ completed := by
  rw [max_def] at h
  split_ifs at h <;> omega

/-- A stable day that is written is one bucket less. -/
theorem missingOf_stable (h : nextBucket config target state pair = .stable day) :
    missingOf config target state.completed state.boundaryCutoffs pair
      = missingOf config target (state.completed.set pair day) state.boundaryCutoffs pair + 1 := by
  unfold nextBucket at h
  dsimp only at h
  split_ifs at h with hstable
  injection h with h
  have hnext := toNat_next h (h ▸ hstable)
  unfold missingOf
  have hset : completedDay (state.completed.set pair day) pair
      (firstDay config target.completedAt - 1) = day := by
    rw [completedDay, Dict.get?_set_self, Option.getD_some]
  rw [hset, hnext]
  omega

/-- The last day that is written is one bucket less, and then the pair needs none. -/
theorem missingOf_boundary (h : nextBucket config target state pair = .boundary) :
    missingOf config target state.completed state.boundaryCutoffs pair
      = missingOf config target state.completed
          (state.boundaryCutoffs.set pair (recentCutoff config target.completedAt)) pair + 1 := by
  have hmissing := nextBucket_boundary h
  unfold missingOf
  rw [if_neg hmissing, if_pos (Dict.get?_set_self _ _ _)]

/-- A pair with nothing to do needs no bucket. -/
theorem missingOf_nothing (h : nextBucket config target state pair = .nothing) :
    missingOf config target state.completed state.boundaryCutoffs pair = 0 := by
  unfold nextBucket at h
  dsimp only at h
  split_ifs at h with hstable hcutoff
  have hnone := toNat_none hstable
  unfold missingOf
  rw [hnone, if_pos (not_not.mp hcutoff)]

/-- A target with a stable day that needs no bucket is complete. -/
theorem complete_of_missing (hwindow : firstDay config target.completedAt
      ≤ stableEndDay config target.completedAt)
    (h : missing config target state.completed state.boundaryCutoffs = 0) :
    state.complete config target = true := by
  refine List.all_eq_true.mpr (fun pair hpair => ?_)
  have hzero : missingOf config target state.completed state.boundaryCutoffs pair = 0 :=
    List.sum_eq_zero_iff_forall_eq_nat.mp h _ (List.mem_map_of_mem hpair)
  unfold missingOf at hzero
  obtain ⟨hdays, hlast⟩ := Nat.add_eq_zero_iff.mp hzero
  rw [Bool.and_eq_true, decide_eq_true_eq, decide_eq_true_eq]
  refine ⟨le_of_toNat hwindow hdays, ?_⟩
  by_contra hcutoff
  rw [if_neg hcutoff] at hlast
  cases hlast

end Pair

/-! ### The loop -/

/-- The checkpoint has the progress of the loop. -/
def SavedAt (config : CycleConfig) (target : CycleTarget) (state : BuildState)
    (store : CacheStore) : Prop :=
  ∃ saved, store.checkpoint? config = some saved ∧ saved.pairCompletedThrough = state.completed
    ∧ saved.workingTarget = some { target with boundaryCutoffs := state.boundaryCutoffs }

/-- The target is being built and needs at most so many buckets. -/
def Pending (config : CycleConfig) (target : CycleTarget) (m : ℕ) (store : CacheStore) : Prop :=
  ∃ saved cutoffs, store.checkpoint? config = some saved
    ∧ saved.workingTarget = some { target with boundaryCutoffs := cutoffs }
    ∧ missing config target saved.pairCompletedThrough cutoffs ≤ m

/-- The target is served, and none is being built. -/
def Promoted (config : CycleConfig) (target : CycleTarget) (store : CacheStore) : Prop :=
  ∃ saved, store.checkpoint? config = some saved
    ∧ saved.activeTarget = some { target with boundaryCutoffs := Dict.empty }
    ∧ saved.workingTarget = none

/-- What no write of a call undoes. -/
def Advancing (config : CycleConfig) (target : CycleTarget) (m : ℕ) (store : CacheStore) : Prop :=
  Pending config target m store ∨ Promoted config target store

/-- The pairs visited since the last write have nothing to do. -/
def IdleVisits (config : CycleConfig) (target : CycleTarget) (state : BuildState) : Prop :=
  ∃ start, state.pairIndex = (start + state.idleVisits) % (pairsOf target.keys).length
    ∧ ∀ k < state.idleVisits, ∀ pair,
      (pairsOf target.keys)[(start + k) % (pairsOf target.keys).length]? = some pair →
      nextBucket config target state pair = .nothing

/-- After as many idle visits as there are pairs nothing is missing. -/
theorem IdleVisits.missing_eq_zero {target : CycleTarget} {state : BuildState}
    (h : IdleVisits config target state)
    (hall : (pairsOf target.keys).length ≤ state.idleVisits) :
    missing config target state.completed state.boundaryCutoffs = 0 := by
  obtain ⟨start, -, hidle⟩ := h
  refine List.sum_eq_zero_iff_forall_eq_nat.mpr (fun count hcount => ?_)
  obtain ⟨pair, hpair, rfl⟩ := List.mem_map.mp hcount
  obtain ⟨i, hi, hget⟩ := List.getElem_of_mem hpair
  set n := (pairsOf target.keys).length
  -- the visit of the pair at `i`
  have hvisit : (start + (i + (n - start % n)) % n) % n = i := by
    have hlt : start % n < n := Nat.mod_lt _ (Nat.zero_lt_of_lt hi)
    calc (start + (i + (n - start % n)) % n) % n
        = (start % n + (i + (n - start % n))) % n := by
          rw [Nat.add_mod_mod, ← Nat.mod_add_mod]
      _ = (i + n) % n := by
          congr 1
          omega
      _ = i := by rw [Nat.add_mod_right, Nat.mod_eq_of_lt hi]
  have hoffset : (i + (n - start % n)) % n < n := Nat.mod_lt _ (Nat.zero_lt_of_lt hi)
  refine missingOf_nothing (hidle _ (hoffset.trans_le hall) pair ?_)
  rw [hvisit, List.getElem?_eq_getElem hi, hget]

section Loop

variable {call : AdvanceCall} {checkpoint : Checkpoint} {target : CycleTarget} {m : ℕ}

theorem SavedAt.advancing {state : BuildState} {store : CacheStore}
    (h : SavedAt config target state store)
    (hm : missing config target state.completed state.boundaryCutoffs ≤ m) :
    Advancing config target m store := by
  obtain ⟨saved, hsaved, hcompleted, hworking⟩ := h
  exact Or.inl ⟨saved, state.boundaryCutoffs, hsaved, hworking, hcompleted ▸ hm⟩

/-- A bucket is written and recorded: one less is missing. -/
theorem spec_recordBucket {state next : BuildState} {w : CacheWrite}
    (hvalid : checkpoint.valid config = true)
    (hkeeps : ∀ store : CacheStore, (store.commit w).checkpoint? config = store.checkpoint? config)
    (hm : missing config target state.completed state.boundaryCutoffs ≤ m)
    (hless : missing config target state.completed state.boundaryCutoffs
      = missing config target next.completed next.boundaryCutoffs + 1)
    {rest : Unit → CacheProg BuildState} {Q : BuildState → CacheStore → Prop}
    (hrest : Prog.Spec (SavedAt config target next) (rest ())
      (Along.Keeps (Advancing config target m)) Q) :
    Prog.Spec (SavedAt config target state)
      (Prog.write w >>= fun _ => Prog.write (.saveCheckpoint (checkpoint.withProgress target next))
        >>= rest) (Along.Keeps (Advancing config target m)) Q := by
  refine Prog.spec_bind (Q := fun _ => SavedAt config target state) ?_ (fun _ =>
    Prog.spec_bind (Q := fun _ => SavedAt config target next) ?_ (fun _ => hrest))
  · refine Prog.spec_write_at (fun store hstore => ?_)
    obtain ⟨saved, hsaved, hprogress⟩ := hstore
    have hat : SavedAt config target state (store.commit w) :=
      ⟨saved, (hkeeps store).trans hsaved, hprogress⟩
    exact ⟨hat.advancing hm, hat⟩
  · refine Prog.spec_write_at (fun store _ => ?_)
    have hat : SavedAt config target next
        (store.commit (.saveCheckpoint (checkpoint.withProgress target next))) :=
      ⟨_, checkpoint?_saveCheckpoint hvalid, rfl, rfl⟩
    exact ⟨hat.advancing (by omega), hat⟩

/-- A stable day that is recorded is one bucket less of the target. -/
theorem missing_stable {state : BuildState} {pair : CyclePair} {day : Day}
    (hpair : pair ∈ pairsOf target.keys) (h : nextBucket config target state pair = .stable day) :
    missing config target state.completed state.boundaryCutoffs
      = missing config target (state.completed.set pair day) state.boundaryCutoffs + 1 := by
  refine sum_map_of_succ (nodup_pairsOf _) hpair (missingOf_stable h) (fun other _ hne => ?_)
  unfold missingOf completedDay
  rw [Dict.get?_set_of_ne _ _ (Ne.symm hne)]

/-- The last day that is recorded is one bucket less of the target. -/
theorem missing_boundary {state : BuildState} {pair : CyclePair}
    (hpair : pair ∈ pairsOf target.keys) (h : nextBucket config target state pair = .boundary) :
    missing config target state.completed state.boundaryCutoffs
      = missing config target state.completed (state.boundaryCutoffs.set pair
          (recentCutoff config target.completedAt)) + 1 := by
  refine sum_map_of_succ (nodup_pairsOf _) hpair (missingOf_boundary h) (fun other _ hne => ?_)
  unfold missingOf
  rw [Dict.get?_set_of_ne _ _ (Ne.symm hne)]

/-- A loop that has pairs always finds one at its index. -/
theorem IdleVisits.missing_eq_zero_of_none {state : BuildState} (h : IdleVisits config target state)
    (hnone : (pairsOf target.keys)[state.pairIndex]? = none) :
    missing config target state.completed state.boundaryCutoffs = 0 := by
  obtain ⟨start, hindex, -⟩ := h
  have hbeyond := List.getElem?_eq_none_iff.mp hnone
  rw [hindex] at hbeyond
  have hempty : (pairsOf target.keys).length = 0 := by
    by_contra hne
    exact absurd hbeyond (not_le.mpr (Nat.mod_lt _ (Nat.pos_of_ne_zero hne)))
  rw [missing, List.length_eq_zero_iff.mp hempty]
  rfl

/-- A visit that finds nothing to do is one more idle visit. -/
theorem IdleVisits.turn {state : BuildState} {pair : CyclePair}
    (h : IdleVisits config target state)
    (hpair : (pairsOf target.keys)[state.pairIndex]? = some pair)
    (hnext : nextBucket config target state pair = .nothing) :
    IdleVisits config target { state with
      pairIndex := (state.pairIndex + 1) % (pairsOf target.keys).length
      idleVisits := state.idleVisits + 1 } := by
  obtain ⟨start, hindex, hvisited⟩ := h
  refine ⟨start, ?_, fun k hk other hother => ?_⟩
  · show (state.pairIndex + 1) % _ = (start + (state.idleVisits + 1)) % _
    rw [hindex, Nat.mod_add_mod, Nat.add_assoc]
  · rcases Nat.lt_succ_iff_lt_or_eq.mp hk with hbefore | hlast
    · exact hvisited k hbefore other hother
    · -- the pair that was just looked at
      rw [hlast, ← hindex, hpair] at hother
      injection hother with hother
      exact hother ▸ hnext

/-- What the loop, entered with this state and so many visits, leaves of the target: no more buckets
    are missing, and fewer or none, if it may look at each pair and make a query. -/
structure LoopProgress (config : CycleConfig) (call : AdvanceCall) (target : CycleTarget)
    (visits : ℕ) (state final : BuildState) (store : CacheStore) : Prop where
  saved : SavedAt config target final store
  le : missing config target final.completed final.boundaryCutoffs
    ≤ missing config target state.completed state.boundaryCutoffs
  progress : state.bucketQueries < call.bucketQueryBudget → IdleVisits config target state →
    (pairsOf target.keys).length ≤ state.idleVisits + visits →
    missing config target final.completed final.boundaryCutoffs = 0
      ∨ missing config target final.completed final.boundaryCutoffs
        < missing config target state.completed state.boundaryCutoffs

/-- The loop ends where it was entered, because nothing is missing. -/
theorem LoopProgress.stay {visits : ℕ} {state : BuildState} {store : CacheStore}
    (hsaved : SavedAt config target state store)
    (hzero : state.bucketQueries < call.bucketQueryBudget → IdleVisits config target state →
      (pairsOf target.keys).length ≤ state.idleVisits + visits →
      missing config target state.completed state.boundaryCutoffs = 0) :
    LoopProgress config call target visits state state store :=
  ⟨hsaved, le_refl _, fun hbudget hidle hall => Or.inl (hzero hbudget hidle hall)⟩

/-- The loop goes on after a bucket was recorded. -/
theorem LoopProgress.record {visits rest : ℕ} {state next final : BuildState} {store : CacheStore}
    (h : LoopProgress config call target rest next final store)
    (hless : missing config target state.completed state.boundaryCutoffs
      = missing config target next.completed next.boundaryCutoffs + 1) :
    LoopProgress config call target visits state final store := by
  have hlt : missing config target final.completed final.boundaryCutoffs
      < missing config target state.completed state.boundaryCutoffs := by
    have hle := h.le
    omega
  exact ⟨h.saved, hlt.le, fun _ _ _ => Or.inr hlt⟩

/-- The loop goes on after a visit that found nothing to do. -/
theorem LoopProgress.turn {visits : ℕ} {state final : BuildState} {pair : CyclePair}
    {store : CacheStore} (hpair : (pairsOf target.keys)[state.pairIndex]? = some pair)
    (hnext : nextBucket config target state pair = .nothing)
    (h : LoopProgress config call target visits { state with
      pairIndex := (state.pairIndex + 1) % (pairsOf target.keys).length
      idleVisits := state.idleVisits + 1 } final store) :
    LoopProgress config call target (visits + 1) state final store := by
  refine ⟨h.saved, h.le, fun hbudget hidle hall => ?_⟩
  refine h.progress hbudget (hidle.turn hpair hnext) ?_
  show _ ≤ state.idleVisits + 1 + visits
  omega

/-- **The loop** never makes more buckets missing.  When it may look at each pair once and make
    a query, it writes a bucket, or none is missing. A visit either writes a bucket, which
    lowers the number of those missing, or turns to the next pair; after a full turn without a
    bucket none is missing. -/
theorem spec_buildBuckets_progress (hvalid : checkpoint.valid config = true) :
    ∀ visits state, missing config target state.completed state.boundaryCutoffs ≤ m →
      Prog.Spec (SavedAt config target state)
        (buildBuckets T config call checkpoint target (pairsOf target.keys) visits state)
        (Along.Keeps (Advancing config target m))
        (LoopProgress config call target visits state) := by
  intro visits
  induction visits with
  | zero =>
    intro state hm
    refine (Prog.spec_pure state).pre (fun store hsaved => LoopProgress.stay hsaved ?_)
    exact fun _ hidle hall => hidle.missing_eq_zero hall
  | succ visits ih =>
    intro state hm
    rw [buildBuckets]
    -- the budget is spent or the loop is idle: nothing is written
    split_ifs with hstop
    · refine (Prog.spec_pure state).pre (fun store hsaved => LoopProgress.stay hsaved ?_)
      intro hbudget hidle _
      rcases hstop with hspent | hall
      · exact absurd hspent (not_le.mpr hbudget)
      · exact hidle.missing_eq_zero hall
    · split
      · rename_i hnone
        refine (Prog.spec_pure state).pre (fun store hsaved => LoopProgress.stay hsaved ?_)
        exact fun _ hidle _ => hidle.missing_eq_zero_of_none hnone
      · rename_i pair hpair
        have hmem : pair ∈ pairsOf target.keys := List.mem_of_getElem? hpair
        dsimp only
        split
        -- a stable day of the pair is missing
        · rename_i day hnext
          have hless := missing_stable hmem hnext
          refine spec_recordBucket hvalid (fun _ => rfl) hm ?_ ?_
          · exact hless
          · exact Prog.Spec.conseq (ih _ ((Nat.le_of_succ_le hless.ge).trans hm))
              (fun _ _ hloop => hloop.record hless)
        -- its boundary day is missing
        · rename_i hnext
          have hless := missing_boundary hmem hnext
          refine spec_recordBucket hvalid (fun _ => rfl) hm ?_ ?_
          · exact hless
          · exact Prog.Spec.conseq (ih _ ((Nat.le_of_succ_le hless.ge).trans hm))
              (fun _ _ hloop => hloop.record hless)
        -- the pair is complete: the loop turns to the next one
        · rename_i hnext
          have hturned := ih { state with
            pairIndex := (state.pairIndex + 1) % (pairsOf target.keys).length
            idleVisits := state.idleVisits + 1 } hm
          exact hturned.weaken (fun _ hsaved => hsaved) (fun _ _ hkeeps => hkeeps)
            (fun _ _ hloop => hloop.turn hpair hnext)

/-! ### Calls -/

/-- A call that has the time to look at each pair of a target, and is not lost. -/
def Attends (target : CycleTarget) (call : AdvanceCall × Option ℕ) : Bool :=
  call.2.isNone && (pairsOf target.keys).length ≤ call.1.visits

theorem one_le_bucketQueryBudget : 0 < call.bucketQueryBudget := by
  have hone : (1 : ℤ) ≤ max 1 (min 256 call.queryBudget) := le_max_left _ _
  unfold AdvanceCall.bucketQueryBudget
  omega

/-- A promotion is a promotion, whether or not old rows are dropped afterwards. -/
theorem spec_promote_promoted {state : BuildState} (hvalid : checkpoint.valid config = true) :
    Prog.Spec (fun _ => True) (promote config call checkpoint target state)
      (Along.Keeps (Advancing config target m)) (fun _ => Promoted config target) := by
  unfold promote
  refine Prog.spec_bind (Q := fun _ => Promoted config target) ?_ (fun _ =>
    Prog.spec_bind (Q := fun _ => Promoted config target) ?_ (fun _ =>
      Prog.spec_pure (Q := fun _ => Promoted config target) _))
  · refine Prog.spec_write_at (fun store _ => ?_)
    have hat : Promoted config target (store.commit (.saveCheckpoint { checkpoint with
        pairCompletedThrough := state.completed
        nextPairIndex := 0
        activeTarget := some { target with boundaryCutoffs := Dict.empty }
        workingTarget := none })) :=
      ⟨_, checkpoint?_saveCheckpoint hvalid, rfl, rfl⟩
    exact ⟨Or.inr hat, hat⟩
  · refine Prog.spec_writeOption_at (fun _ _ hstore => hstore) (fun w hw store hstore => ?_)
    split_ifs at hw
    · injection hw with hw
      subst hw
      exact ⟨Or.inr hstore, hstore⟩
    · cases hw

/-- What a call leaves of a target: it is served, or it needs no more buckets than before, and
    fewer, if the call looked at each pair. -/
def Progressed (config : CycleConfig) (call : AdvanceCall) (target : CycleTarget) (m : ℕ)
    (store : CacheStore) : Prop :=
  Promoted config target store ∨ Pending config target m store
    ∧ ((pairsOf target.keys).length ≤ call.visits →
      ∃ n, 0 < n ∧ n < m ∧ Pending config target n store)

/-- **Working on a target.** The buckets a call builds lower what is missing, and the last of
    them promotes the target. -/
theorem spec_buildTarget_progress (hvalid : checkpoint.valid config = true)
    (hwindow : firstDay config target.completedAt ≤ stableEndDay config target.completedAt)
    (hworking : checkpoint.workingTarget = some target)
    (hm : missing config target checkpoint.pairCompletedThrough target.boundaryCutoffs ≤ m) :
    Prog.Spec (fun store => store.checkpoint? config = some checkpoint)
      (buildTarget T config call checkpoint target) (Along.Keeps (Advancing config target m))
      (fun _ => Progressed config call target m) := by
  have hpromote : ∀ state, Prog.Spec (fun _ => True) (promote config call checkpoint target state)
      (Along.Keeps (Advancing config target m)) (fun _ => Progressed config call target m) :=
    fun state => (spec_promote_promoted hvalid).conseq (fun _ _ hstore => Or.inl hstore)
  unfold buildTarget
  dsimp only
  set start : BuildState :=
    { completed := checkpoint.pairCompletedThrough
      boundaryCutoffs := target.boundaryCutoffs
      pairIndex := if (pairsOf target.keys).isEmpty then 0
        else checkpoint.nextPairIndex % (pairsOf target.keys).length
      bucketQueries := 0
      idleVisits := 0 } with hstart
  split_ifs with htrivial
  · refine Prog.spec_bind (Prog.spec_pure (Q := fun _ _ => True) start |>.pre (fun _ _ => trivial))
      (fun state => ?_)
    simp only [htrivial, Bool.true_or, if_true]
    exact hpromote state
  · have hpairs : (pairsOf target.keys).isEmpty = false := by
      rw [CycleTarget.trivial, Bool.not_eq_true, Bool.or_eq_false_iff] at htrivial
      exact htrivial.2
    refine Prog.spec_bind ((spec_buildBuckets_progress hvalid call.visits start hm).pre
      (fun store hstore => ⟨checkpoint, hstore, rfl, hworking⟩)) (fun state => ?_)
    simp only [htrivial, Bool.false_or]
    split_ifs with hcomplete
    · exact (hpromote state).pre (fun _ _ => trivial)
    · refine (Prog.spec_pure _).pre (fun store hstore => ?_)
      obtain ⟨⟨saved, hcheckpoint, hcompleted, hsame⟩, hle, hprogress⟩ := hstore
      have hleft : ∀ n, missing config target state.completed state.boundaryCutoffs ≤ n →
          Pending config target n store :=
        fun n hn => ⟨saved, state.boundaryCutoffs, hcheckpoint, hsame, hcompleted ▸ hn⟩
      refine Or.inr ⟨hleft m (hle.trans hm), fun hvisits => ?_⟩
      -- what is not complete has a bucket missing
      have hpos : missing config target state.completed state.boundaryCutoffs ≠ 0 :=
        fun hzero => hcomplete (complete_of_missing hwindow hzero)
      have hidle : IdleVisits config target start := by
        refine ⟨checkpoint.nextPairIndex, ?_, fun k hk => absurd hk (Nat.not_lt_zero k)⟩
        simp only [hstart, hpairs, Bool.false_eq_true, if_false, Nat.add_zero]
      rcases hprogress one_le_bucketQueryBudget hidle (by rwa [Nat.zero_add]) with hzero | hlt
      · exact absurd hzero hpos
      · exact ⟨_, Nat.pos_of_ne_zero hpos, hlt.trans_le hm, hleft _ (le_refl _)⟩

/-- **One call** while the target is being built. -/
theorem spec_advance_progress (hwindow : firstDay config target.completedAt
      ≤ stableEndDay config target.completedAt) :
    Prog.Spec (Pending config target m) (advance T config call)
      (Along.Keeps (Advancing config target m)) (fun _ => Progressed config call target m) := by
  refine Prog.spec_of_forall (fun store₀ hstore₀ => ?_)
  obtain ⟨checkpoint, cutoffs, hcheckpoint, hworking, hm⟩ := hstore₀
  -- the checkpoint is opened, and no other target is started
  have hopen : Prog.Spec (fun store => store = store₀) (openCheckpoint config)
      (Along.Keeps (Advancing config target m))
      (fun opened store => store = store₀ ∧ opened = checkpoint) := by
    unfold openCheckpoint
    refine Prog.spec_get_bind (fun store hstore => ?_)
    subst hstore
    rw [hcheckpoint]
    exact (Prog.spec_pure (Q := fun opened s => s = store ∧ opened = checkpoint) checkpoint).pre
      (fun s hs => ⟨hs, rfl⟩)
  have hstart : startWorkingTarget T call checkpoint = (pure checkpoint : CacheProg Checkpoint) := by
    rw [startWorkingTarget, hworking]
    rfl
  unfold advance
  refine Prog.spec_bind hopen (fun opened => Prog.spec_of_fact (fun hopened => ?_))
  subst hopened
  rw [hstart]
  refine Prog.spec_bind (Prog.spec_pure (Q := fun started store => store = store₀
    ∧ started = opened) opened |>.pre (fun s hs => ⟨hs, rfl⟩)) (fun started =>
      Prog.spec_of_fact (fun hstarted => ?_))
  subst hstarted
  rw [hworking]
  have hbuild : Prog.Spec (fun store => store.checkpoint? config = some started)
      (buildTarget T config call started { target with boundaryCutoffs := cutoffs })
      (Along.Keeps (Advancing config { target with boundaryCutoffs := cutoffs } m))
      (fun _ => Progressed config call { target with boundaryCutoffs := cutoffs } m) :=
    spec_buildTarget_progress (valid_of_checkpoint? hcheckpoint) hwindow hworking hm
  refine hbuild.pre (fun store hstore => ?_)
  rw [hstore]
  exact hcheckpoint

end Loop

/-! ### Runs -/

/-- A call always ends, unless it is lost. The bucket loop is bounded by its visits, and every
    other step of a call is a finite sequence of writes. -/
theorem returns_advance (call : AdvanceCall) : Prog.Returns (advance T config call) := by
  have hloop : ∀ checkpoint target pairs visits state,
      Prog.Returns (buildBuckets T config call checkpoint target pairs visits state) := by
    intro checkpoint target pairs visits
    induction visits with
    | zero => exact fun state => Prog.returns_pure state
    | succ visits ih =>
      intro state
      rw [buildBuckets]
      split_ifs
      · exact Prog.returns_pure state
      · split
        · exact Prog.returns_pure state
        · dsimp only
          split
          · exact Prog.returns_bind (Prog.returns_write _) (fun _ =>
              Prog.returns_bind (Prog.returns_write _) (fun _ => ih _))
          · exact Prog.returns_bind (Prog.returns_write _) (fun _ =>
              Prog.returns_bind (Prog.returns_write _) (fun _ => ih _))
          · exact ih _
  -- both ways of finishing a target end in a report
  have hbuild : ∀ checkpoint target,
      Prog.Returns (buildTarget T config call checkpoint target) := by
    intro checkpoint target
    have hfinish : ∀ state : BuildState, Prog.Returns
        (if (target.trivial config || state.complete config target) = true then
          promote config call checkpoint target state
        else return reportOf checkpoint.activeTarget false false state.bucketQueries) := by
      intro state
      split_ifs
      · exact Prog.returns_bind (Prog.returns_write _) (fun _ =>
          Prog.returns_bind (Prog.returns_writeOption _) (fun _ => Prog.returns_pure _))
      · exact Prog.returns_pure _
    unfold buildTarget
    dsimp only
    generalize (if (pairsOf target.keys).isEmpty then 0
      else checkpoint.nextPairIndex % (pairsOf target.keys).length) = index
    split_ifs
    · exact Prog.returns_bind (Prog.returns_pure _) hfinish
    · exact Prog.returns_bind (hloop _ _ _ _ _) hfinish
  unfold advance
  -- the three phases of a call: the checkpoint, the working target and its buckets
  refine Prog.returns_bind ?_ (fun checkpoint => Prog.returns_bind ?_ (fun started => ?_))
  · unfold openCheckpoint
    refine Prog.returns_bind Prog.returns_get (fun store => ?_)
    split
    · exact Prog.returns_pure _
    · exact Prog.returns_bind (Prog.returns_write _) (fun _ =>
        Prog.returns_bind (Prog.returns_write _) (fun _ =>
        Prog.returns_bind (Prog.returns_write _) (fun _ =>
        Prog.returns_bind (Prog.returns_write _) (fun _ => Prog.returns_pure _))))
  · unfold startWorkingTarget
    split_ifs
    · exact Prog.returns_bind (Prog.returns_write _) (fun _ =>
        Prog.returns_bind (Prog.returns_write _) (fun _ => Prog.returns_pure _))
    · exact Prog.returns_pure _
  · split
    · exact Prog.returns_pure _
    · exact hbuild _ _

/-- A cache whose target has no bucket yet. -/
def begunCache : CacheStore where
  rows := []
  checkpoint := some { freshCheckpoint dailyConfig with
    workingTarget := some (targetFromSnapshot sampleTexts firstScan .slotA) }

end InefficiencyEngine.CycleHistory
