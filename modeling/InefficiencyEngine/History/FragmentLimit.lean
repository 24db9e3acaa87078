import InefficiencyEngine.History.Calls
import InefficiencyEngine.History.Sample
import InefficiencyEngine.Lib.Fuel

namespace InefficiencyEngine.History

open Portfolio Durable Prog

/-!
# The fragment limit of a history

A history is opened with a limit on the partitions of a group.  An append to a group that has
reached the limit compacts the group and calls itself.  A compaction leaves one partition, and
does nothing for a group that has only one: with a limit of at least two the second call finds
room, with the limit one it finds none and calls itself for ever.
-/

/-- The exception of a function that calls itself too often. -/
def recursionError : Raised := .external "RecursionError"

/-- `max(0, int(max_partition_files_per_group))`. -/
def fragmentLimit (maxPartitionFilesPerGroup : ℤ) : ℕ := maxPartitionFilesPerGroup.toNat

/-- A group has as many partitions as the limit allows; there is no limit if it is 0. -/
def HistoryWorld.Full (R : HistoryRuntime) (limit : ℕ) (w : HistoryWorld) (key : GroupKey) : Prop :=
  0 < limit ∧ limit ≤ (w.groupParts R key).length

instance (R : HistoryRuntime) (limit : ℕ) (w : HistoryWorld) (key : GroupKey) :
    Decidable (w.Full R limit key) :=
  inferInstanceAs (Decidable (0 < limit ∧ limit ≤ (w.groupParts R key).length))

section Operations

variable (R : HistoryRuntime) (op : Operation) (limit : ℕ)

/-- `_append_partition` and `_append_coarse_partition` of a history with a fragment limit; the
    function calls itself at most `depth` times. -/
def appendPartitionWithin (layout : Layout) (key : GroupKey) (records : List HistoryRecord) :
    ℕ → ℕ → HistoryProg (ℕ × ℕ)
  | 0, _ => Prog.lift (.error recursionError)
  | depth + 1, i => do
    op.attempt i .lock
    let w ← Prog.get
    if w.Full R limit key then
      let _ ← compactPartitionGroup R op key i
      appendPartitionWithin layout key records depth (i + 1)
    else
      appendAccepted R op layout key records i

/-- Append the records of one group to what was written before. -/
def appendGroupWithin (layout : Layout) (depth : ℕ) (progress : ℕ × ℕ)
    (item : GroupKey × List HistoryRecord) : HistoryProg (ℕ × ℕ) := do
  let (written, next) ← appendPartitionWithin R op limit layout item.1 item.2 depth progress.2
  pure (progress.1 + written, next)

/-- `append_records` of a history with a fragment limit. -/
def appendRecordsWithin (layout : Layout) (records : List HistoryRecord) (depth : ℕ) :
    HistoryProg ℕ :=
  if records.any (fun record => record.lineage = "") then
    Prog.lift (.error (.valueError "market history lineage_hash is required"))
  else do
    let (written, _) ← (layout.grouped R records).items.foldlM
      (appendGroupWithin R op limit layout depth) (0, 0)
    pure written

end Operations

section Default

variable {R : HistoryRuntime} {op : Operation} {layout : Layout}

/-- A history that is opened without a limit of its own has the default one. -/
theorem appendPartition_eq_within (key : GroupKey) (records : List HistoryRecord) (depth i : ℕ) :
    appendPartition R op layout key records depth i
      = appendPartitionWithin R op maxPartitionFilesPerGroup layout key records depth i := by
  induction depth generalizing i with
  | zero => rfl
  | succ depth ih =>
    have hfull : ∀ w : HistoryWorld, w.Full R maxPartitionFilesPerGroup key
        ↔ maxPartitionFilesPerGroup ≤ (w.groupParts R key).length :=
      fun w => and_iff_right (by decide)
    simp only [appendPartition, appendPartitionWithin, ih, hfull]

theorem appendRecords_eq_within (records : List HistoryRecord) :
    appendRecords R op layout records
      = appendRecordsWithin R op maxPartitionFilesPerGroup layout records recursionLimit := by
  have hgroup : appendGroup R op layout
      = appendGroupWithin R op maxPartitionFilesPerGroup layout recursionLimit := by
    funext progress item
    rw [appendGroup, appendGroupWithin, appendPartition_eq_within]
  rw [appendRecords, appendRecordsWithin, hgroup]

end Default

/-! ### What an append does to a root, whatever the limit -/

section Spec

variable {R : HistoryRuntime} {op : Operation} {limit depth i : ℕ} {layout : Layout}
variable {key : GroupKey} {records : List HistoryRecord} {rows : List (GroupKey × HistoryRow)}
variable {w : HistoryWorld}

/-- A group has no partition exactly if the root holds no row of it. -/
theorem HistoryWorld.Holds.groupParts_eq_nil_iff {run : ℕ} (h : w.Holds R run i rows) :
    w.groupParts R key = [] ↔ ∀ item ∈ rows, item.1 ≠ key := by
  constructor
  · rintro hnil item hitem rfl
    obtain ⟨p, hp, row, -, rfl⟩ := HistoryWorld.mem_perRow.mp (h.rows.mem_iff.mpr hitem)
    have hpart : p ∈ w.groupParts R p.group := HistoryWorld.mem_groupParts.mpr ⟨hp, rfl⟩
    rw [hnil] at hpart
    cases hpart
  · intro hrows
    refine List.eq_nil_iff_forall_not_mem.mpr (fun p hp => ?_)
    obtain ⟨hp, hkey⟩ := HistoryWorld.mem_groupParts.mp hp
    obtain ⟨row, hrow⟩ := List.exists_mem_of_ne_nil _ (h.sound.describes hp).2.nonempty
    exact hrows (p.group, row)
      (h.rows.mem_iff.mp (HistoryWorld.mem_perRow.mpr ⟨p, hp, row, hrow, rfl⟩)) hkey

/-- What a write may add does not matter for its safety. -/
theorem SafeStep.any {A : GroupKey × HistoryRow → Prop} {run : ℕ} {block : List HistoryWrite}
    (h : SafeStep R run A w block) : SafeStep R run (fun _ => True) w block := by
  obtain ⟨write, added, rfl, hwrite, -⟩ := h
  exact ⟨write, added, rfl, hwrite, fun _ _ => trivial⟩

/-- An append to one group makes safe writes only and adds rows of its records; it raises if a
    step does, or when it has called itself too often. -/
theorem exits_appendPartitionWithin (hkey : ∀ record ∈ records, layout.group R record = key) :
    Exits (fun w => w.Holds R op.run i rows)
      (appendPartitionWithin R op limit layout key records depth i)
      (SafeStep R op.run (FromRecords R layout records))
      (fun result w => ∃ added, Added R layout op.run records rows result.1 result.2 w added)
      (fun e _ => op.Faulty ∨ e = recursionError) := by
  induction depth generalizing i with
  | zero => exact exits_raise _ (fun _ _ => Or.inr rfl)
  | succ depth ih =>
    rw [appendPartitionWithin]
    refine exits_bind (exits_attempt i _ (fun _ _ hfaulty _ => Or.inl hfaulty)) (fun _ => ?_)
    refine exits_get_bind (fun w hw => ?_)
    by_cases hfull : w.Full R limit key
    · rw [if_pos hfull]
      have hcompact : Exits (fun s => s = w) (compactPartitionGroup R op key i)
          (SafeStep R op.run (FromRecords R layout records))
          (fun _ s => s.Holds R op.run (i + 1) rows)
          (fun e _ => op.Faulty ∨ e = recursionError) :=
        (exits_compactPartitionGroup key).weaken (fun s hs => hs ▸ hw) (fun _ _ hG => hG)
          (fun _ _ hQ => hQ.1) (fun _ _ hfaulty => Or.inl hfaulty)
      exact exits_bind hcompact (fun _ => ih)
    · rw [if_neg hfull]
      exact (exits_appendAccepted hkey).weaken (fun s hs => hs ▸ hw) (fun _ _ hG => hG)
        (fun _ _ hQ => hQ.2) (fun _ _ hfaulty => Or.inl hfaulty)

/-- One group of a batch: what it adds comes on top of what was there. -/
theorem exits_appendGroupWithin {item : GroupKey × List HistoryRecord}
    (hitem : item ∈ (layout.grouped R records).items) (progress : ℕ × ℕ) :
    Exits (fun w => w.Holds R op.run progress.2 rows)
      (appendGroupWithin R op limit layout depth progress item)
      (SafeStep R op.run fun _ => True)
      (fun result w => ∃ added, w.Holds R op.run result.2 (rows ++ added)
        ∧ ∀ row ∈ added, row.1 = item.1)
      (fun e _ => op.Faulty ∨ e = recursionError) := by
  have hgroup : ∀ record ∈ item.2, layout.group R record = item.1 :=
    fun record hrecord => ((Dict.of_mem_items_group hitem).2 record hrecord).2
  unfold appendGroupWithin
  refine exits_bind ((exits_appendPartitionWithin hgroup).weaken (fun _ hw => hw) (fun _ _ hG => hG.any)
    (fun _ _ hQ => hQ) (fun _ _ hE => hE)) (fun result => ?_)
  obtain ⟨written, next⟩ := result
  refine (exits_pure (Q := fun (result : ℕ × ℕ) (s : HistoryWorld) =>
    ∃ added, s.Holds R op.run result.2 (rows ++ added) ∧ ∀ row ∈ added, row.1 = item.1)
      (progress.1 + written, next)).pre ?_
  rintro s ⟨added, hadded⟩
  refine ⟨added, hadded.holds, fun row hrow => ?_⟩
  obtain ⟨record, hrecord, -, hkey, -⟩ := hadded.fromRecords row hrow
  exact hkey.trans (hgroup record hrecord)

variable (op) in
/-- A whole append makes safe writes only. -/
theorem spec_appendRecordsWithin :
    Spec (fun w => w.Holds R op.run 0 rows) (appendRecordsWithin R op limit layout records depth)
      (SafeStep R op.run fun _ => True) (fun _ w => ∃ i more, w.Holds R op.run i more) := by
  unfold appendRecordsWithin
  split
  · exact spec_raise _
  have hloop : Spec (fun w => ∃ more, w.Holds R op.run 0 more)
      ((layout.grouped R records).items.foldlM (appendGroupWithin R op limit layout depth) (0, 0))
      (SafeStep R op.run fun _ => True)
      (fun (result : ℕ × ℕ) w => ∃ more, w.Holds R op.run result.2 more) :=
    spec_foldlM (J := fun _ (progress : ℕ × ℕ) (w : HistoryWorld) =>
        ∃ more, w.Holds R op.run progress.2 more)
      (fun seen item rest progress hitems => by
        refine spec_of_forall (fun s hs => ?_)
        obtain ⟨more, hs⟩ := hs
        have hitem : item ∈ (layout.grouped R records).items :=
          hitems ▸ List.mem_append_right _ List.mem_cons_self
        exact (exits_appendGroupWithin hitem progress).toSpec.weaken (fun s' hs' => hs' ▸ hs)
          (fun _ _ hG => hG) (fun _ _ ⟨added, hadded, _⟩ => ⟨more ++ added, hadded⟩)) (0, 0)
  refine spec_bind (hloop.pre (fun w hw => ⟨rows, hw⟩)) (fun result => ?_)
  obtain ⟨written, next⟩ := result
  exact (spec_pure (Q := fun _ (w : HistoryWorld) => ∃ i more, w.Holds R op.run i more)
    written).pre (fun w hw => ⟨next, hw⟩)

end Spec

/-! ### Sequences of calls -/

/-- A call on a history that is opened with some limit, what goes wrong in it, and after how many
    writes it stops, if it does. -/
structure LimitedAction where
  maxPartitionFilesPerGroup : ℤ
  call : HistoryCall
  faults : Faults
  stop : Option ℕ

/-- The program of a call. -/
def LimitedAction.prog (R : HistoryRuntime) (action : LimitedAction) (run : ℕ) : HistoryProg ℕ :=
  match action.call with
  | .append layout records => appendRecordsWithin R ⟨run, action.faults⟩
      (fragmentLimit action.maxPartitionFilesPerGroup) layout records recursionLimit
  | call => call.prog R ⟨run, action.faults⟩

/-- What a call leaves, wherever it stops. -/
def limitedStep (R : HistoryRuntime) (state : HistoryState) (action : LimitedAction) :
    HistoryState where
  started := state.started + 1
  world := (action.prog R state.started).leaves state.world action.stop

section Runs

variable {R : HistoryRuntime} {rows : List (GroupKey × HistoryRow)}

variable (R rows) in
/-- Every call makes safe writes only. -/
theorem LimitedAction.spec_prog (action : LimitedAction) (run : ℕ) :
    ∃ Q, Spec (fun w => w.Holds R run 0 rows) (action.prog R run)
      (SafeStep R run fun _ => True) Q := by
  obtain ⟨value, call, faults, stop⟩ := action
  cases call with
  | append layout records =>
    exact ⟨_, spec_appendRecordsWithin ⟨run, faults⟩⟩
  | compact key => exact ⟨_, (exits_call R ⟨run, faults⟩ rows (.compact key)).toSpec.weaken
      (fun _ hw => hw) (fun _ _ hG => hG.any) (fun _ _ hQ => hQ)⟩
  | reap => exact ⟨_, (exits_call R ⟨run, faults⟩ rows .reap).toSpec.weaken
      (fun _ hw => hw) (fun _ _ hG => hG.any) (fun _ _ hQ => hQ)⟩

/-- Any calls, wherever they stop, leave a root that holds some rows. -/
theorem holds_of_limitedRun (R : HistoryRuntime) (actions : List LimitedAction) :
    ∃ rows, (run (limitedStep R) .initial actions).world.Holds R
      (run (limitedStep R) .initial actions).started 0 rows := by
  refine foldl_invariant (P := fun _ (state : HistoryState) =>
    ∃ rows, state.world.Holds R state.started 0 rows) ?_ actions ?_
  · rintro _ state action ⟨rows, h⟩
    obtain ⟨Q, hspec⟩ := LimitedAction.spec_prog R rows action state.started
    show ∃ rows, ((action.prog R state.started).leaves state.world action.stop).Holds R _ 0 rows
    cases action.stop with
    | none =>
      obtain ⟨added, hadded, -⟩ := h.crash hspec ((action.prog R state.started) state.world).1.length
      rw [List.take_length] at hadded
      exact ⟨_, hadded⟩
    | some n =>
      obtain ⟨added, hadded, -⟩ := h.crash hspec n
      exact ⟨_, hadded⟩
  · exact ⟨[], HistoryWorld.sound_empty R, fun p hp => (by cases hp), List.Perm.refl _⟩

end Runs

/-! ### When an append ends -/

/-- The append returns or raises after finitely many calls of itself, whatever goes wrong. -/
def AppendEnds (R : HistoryRuntime) (run limit : ℕ) (layout : Layout)
    (records : List HistoryRecord) (w : HistoryWorld) : Prop :=
  ∀ faults, Ends recursionError
    (fun depth => appendRecordsWithin R ⟨run, faults⟩ limit layout records depth) w

/-- When the limit sends the append of a group through a compaction and back to itself, the group
    has room. -/
def CompactionMakesRoom (R : HistoryRuntime) (run limit : ℕ) (layout : Layout)
    (records : List HistoryRecord) (w : HistoryWorld) : Prop :=
  ∀ record ∈ (HistoryCall.append layout records).batch, ∀ faults i compacted,
    w.Full R limit (layout.group R record) →
    (compactPartitionGroup R ⟨run, faults⟩ (layout.group R record) i w).2 = .ok compacted →
    ¬ ((compactPartitionGroup R ⟨run, faults⟩ (layout.group R record) i).final w).Full R limit
      (layout.group R record)

/-- No group of the batch has a partition. -/
def NewGroups (R : HistoryRuntime) (layout : Layout) (records : List HistoryRecord)
    (w : HistoryWorld) : Prop :=
  ∀ record ∈ (HistoryCall.append layout records).batch,
    w.groupParts R (layout.group R record) = []

section Ends

variable {R : HistoryRuntime} {op : Operation} {limit i : ℕ} {layout : Layout} {key : GroupKey}
variable {records : List HistoryRecord} {rows : List (GroupKey × HistoryRow)} {w : HistoryWorld}

theorem avoids_attempt (i : ℕ) (point : StepPoint) : Avoids recursionError (op.attempt i point) := by
  refine avoids_lift ?_
  split
  · decide
  · exact fun h => by cases h

theorem avoids_reapFiles (paths : List FilePath) :
    Avoids recursionError (reapFiles op i paths) := by
  induction paths with
  | nil => exact avoids_pure _
  | cons path rest ih =>
    rw [reapFiles]
    refine avoids_bind (avoids_attempt i _) (fun _ => avoids_bind avoids_get (fun w => ?_))
    split
    · exact avoids_bind (avoids_write _) (fun _ => ih)
    · split
      · exact ih
      · exact avoids_bind (avoids_write _) (fun _ => avoids_bind ih (fun _ => avoids_pure _))

theorem avoids_reapCompactionGarbage : Avoids recursionError (reapCompactionGarbage op i) := by
  refine avoids_bind (avoids_attempt i _) (fun _ => avoids_bind avoids_get (fun w => ?_))
  refine avoids_bind (avoids_reapFiles _) (fun cleared => ?_)
  split
  · exact avoids_pure _
  · exact avoids_bind (avoids_attempt i _) (fun _ =>
      avoids_bind (avoids_write _) (fun _ => avoids_pure _))

theorem avoids_verifiedRows (part : Partition) :
    Avoids recursionError (Prog.lift (verifiedRows R w part) : HistoryProg _) := by
  refine avoids_lift ?_
  unfold verifiedRows
  split
  · exact fun h => by cases h
  · split_ifs <;> exact fun h => by cases h

theorem avoids_rewriteParts (target : FilePath) (parts : List Partition) (written : List HistoryRow) :
    Avoids recursionError (rewriteParts R op i target parts written) := by
  induction parts generalizing written with
  | nil => exact avoids_pure _
  | cons part rest ih =>
    rw [rewriteParts]
    refine avoids_bind (avoids_attempt i _) (fun _ => avoids_bind avoids_get (fun w => ?_))
    exact avoids_bind (avoids_verifiedRows part) (fun rows =>
      avoids_bind (avoids_write _) (fun _ => ih _))

theorem avoids_switchParts (target : FilePath) (parts : List Partition) :
    Avoids recursionError (switchParts R op i key target parts) := by
  refine avoids_bind (avoids_rewriteParts target parts []) (fun rows => ?_)
  split
  · exact avoids_lift (fun h => by cases h)
  refine avoids_bind (avoids_attempt i _) (fun _ => avoids_bind (avoids_write _) (fun _ => ?_))
  refine avoids_bind (avoids_attempt i _) (fun _ => avoids_bind avoids_get (fun w => ?_))
  dsimp only
  split
  · exact avoids_lift (fun h => by cases h)
  · exact avoids_bind (avoids_attempt i _) (fun _ => avoids_write _)

/-- A compaction does not call itself. -/
theorem avoids_compactPartitionGroup (key : GroupKey) (i : ℕ) :
    Avoids recursionError (compactPartitionGroup R op key i) := by
  refine avoids_bind (avoids_attempt i _) (fun _ => avoids_bind avoids_get (fun w => ?_))
  split
  · exact avoids_bind (avoids_onError (avoids_switchParts _ _)) (fun _ =>
      avoids_bind avoids_reapCompactionGarbage (fun _ => avoids_pure _))
  · exact avoids_pure _

/-- Storing the accepted records does not call itself. -/
theorem avoids_appendAccepted (key : GroupKey) (records : List HistoryRecord) (i : ℕ) :
    Avoids recursionError (appendAccepted R op layout key records i) := by
  refine avoids_bind avoids_get (fun w => ?_)
  dsimp only
  split
  · exact avoids_pure _
  refine avoids_bind (avoids_onError ?_) (fun _ => avoids_pure _)
  refine avoids_bind (avoids_attempt i _) (fun _ => avoids_bind (avoids_write _) (fun _ => ?_))
  refine avoids_bind (avoids_attempt i _) (fun _ => avoids_bind (avoids_write _) (fun _ => ?_))
  refine avoids_bind (avoids_attempt i _) (fun _ => avoids_bind (avoids_attempt i _) (fun _ => ?_))
  exact avoids_write _

variable (op) in
/-- A compaction that returns leaves the group at most one partition, so it makes room for any
    limit but one. -/
theorem HistoryWorld.Holds.room_after_compaction (h : w.Holds R op.run i rows)
    (hlimit : limit ≠ 1) {compacted : Bool}
    (hres : (compactPartitionGroup R op key i w).2 = .ok compacted) :
    ((compactPartitionGroup R op key i).final w).Holds R op.run (i + 1) rows
      ∧ ¬ ((compactPartitionGroup R op key i).final w).Full R limit key := by
  have hcompact : Exits (fun w => w.Holds R op.run i rows) (compactPartitionGroup R op key i)
      (SafeStep R op.run fun _ => True)
      (fun _ w => w.Holds R op.run (i + 1) rows ∧ (w.groupParts R key).length ≤ 1)
      (fun _ _ => op.Faulty) := exits_compactPartitionGroup key
  obtain ⟨hholds, hfew⟩ := hcompact.post w compacted h hres
  refine ⟨hholds, fun hfull => ?_⟩
  obtain ⟨hpos, hle⟩ := hfull
  omega

/-- With room in the group the function does not call itself. -/
theorem ends_of_not_full (hroom : ¬ w.Full R limit key) :
    Ends recursionError
      (fun depth => appendPartitionWithin R op limit layout key records depth i) w := by
  refine Ends.of_succ ?_
  simp only [appendPartitionWithin]
  refine Ends.bind ((avoids_attempt i _).ends w) (fun ws a ha => ?_)
  have hws : ws = [] := (congrArg Prod.fst (ha.unique (settles_const _ w)))
  rw [hws]
  refine ends_bind_of_ok (m := Prog.get) rfl ?_
  show Ends recursionError (fun depth => if w.Full R limit key then _ else _) w
  simp only [if_neg hroom]
  exact (avoids_appendAccepted key records i).ends w

/-- **Two calls are enough** for any limit but one. -/
theorem HistoryWorld.Holds.ends_appendPartitionWithin (h : w.Holds R op.run i rows)
    (hlimit : limit ≠ 1) :
    Ends recursionError
      (fun depth => appendPartitionWithin R op limit layout key records depth i) w := by
  by_cases hfull : w.Full R limit key
  · refine Ends.of_succ ?_
    simp only [appendPartitionWithin]
    refine Ends.bind ((avoids_attempt i _).ends w) (fun ws a ha => ?_)
    have hws : ws = [] := (congrArg Prod.fst (ha.unique (settles_const _ w)))
    rw [hws]
    refine ends_bind_of_ok (m := Prog.get) rfl ?_
    show Ends recursionError (fun depth => if w.Full R limit key then _ else _) w
    simp only [if_pos hfull]
    refine Ends.bind ((avoids_compactPartitionGroup key i).ends w) (fun ws compacted hc => ?_)
    have hrun : compactPartitionGroup R op key i w = (ws, .ok compacted) :=
      (settles_const _ w).unique hc
    have hfinal : commitAll w ws = (compactPartitionGroup R op key i).final w := by
      rw [Prog.final, hrun]
    rw [hfinal]
    exact ends_of_not_full (h.room_after_compaction op hlimit (congrArg Prod.snd hrun)).2
  · exact ends_of_not_full hfull

variable (op) in
/-- A loop over groups ends if the limit is not one, or no group has a row. The loop appends the
    groups in turn, each of which recurses only while its group is full; with a limit of one a
    group that has a row is full for ever. -/
theorem HistoryWorld.Holds.ends_foldlM {items : List (GroupKey × List HistoryRecord)}
    (hitems : ∀ item ∈ items, item ∈ (layout.grouped R records).items)
    (hnodup : (items.map Prod.fst).Nodup)
    (hnew : limit = 1 → ∀ item ∈ items, ∀ row ∈ rows, row.1 ≠ item.1) (progress : ℕ × ℕ)
    (h : w.Holds R op.run progress.2 rows) :
    Ends recursionError (fun depth =>
      items.foldlM (appendGroupWithin R op limit layout depth) progress) w := by
  induction items generalizing progress rows w with
  | nil => exact ends_const (fun heq => by cases heq)
  | cons item rest ih =>
    have hitem : item ∈ (layout.grouped R records).items := hitems item List.mem_cons_self
    have hpartition : Ends recursionError (fun depth =>
        appendPartitionWithin R op limit layout item.1 item.2 depth progress.2) w := by
      -- with the limit one the group must be empty, and then it is not full
      by_cases hlimit : limit = 1
      · refine ends_of_not_full (fun hfull => ?_)
        have hnil : w.groupParts R item.1 = [] :=
          h.groupParts_eq_nil_iff.mpr (hnew hlimit item List.mem_cons_self)
        have hle := hfull.2
        rw [hnil, List.length_nil] at hle
        have hpos := hfull.1
        omega
      · exact h.ends_appendPartitionWithin hlimit
    have hgroup : Ends recursionError
        (fun depth => appendGroupWithin R op limit layout depth progress item) w :=
      Ends.bind hpartition (fun ws result _ => ends_const (fun heq => by cases heq))
    simp only [List.foldlM_cons]
    refine Ends.bind hgroup (fun ws result hres => ?_)
    obtain ⟨added, hadded, hkeys⟩ :=
      hres.post (fun depth => (exits_appendGroupWithin hitem progress).toSpec) h
    rw [List.map_cons, List.nodup_cons] at hnodup
    refine ih (fun other hother => hitems other (List.mem_cons_of_mem _ hother)) hnodup.2
      (fun hlimit other hother row hrow => ?_) result hadded
    -- the groups behind have no row before, and the rows just added are of another group
    rcases List.mem_append.mp hrow with hrow | hrow
    · exact hnew hlimit other (List.mem_cons_of_mem _ hother) row hrow
    · intro heq
      rw [hkeys row hrow] at heq
      exact hnodup.1 (heq ▸ List.mem_map_of_mem hother)

/-- The groups of a batch that is not refused. -/
theorem NewGroups.iff_of_not_refused
    (hrefused : ¬ records.any (fun record => record.lineage = "") = true) :
    NewGroups R layout records w
      ↔ ∀ item ∈ (layout.grouped R records).items, w.groupParts R item.1 = [] := by
  have hbatch : (HistoryCall.append layout records).batch = records := by
    rw [HistoryCall.batch_append, if_neg hrefused]
  rw [NewGroups, hbatch]
  constructor
  · intro h item hitem
    obtain ⟨hne, hkeys⟩ := Dict.of_mem_items_group hitem
    obtain ⟨record, hrecord⟩ := List.exists_mem_of_ne_nil _ hne
    rw [← (hkeys record hrecord).2]
    exact h record (hkeys record hrecord).1
  · intro h record hrecord
    obtain ⟨item, hitem, hkey, -⟩ := Dict.exists_mem_items_group (layout.group R) hrecord
    rw [← hkey]
    exact h item hitem

/-- An append ends for any limit but one, and for a batch of new groups. -/
theorem HistoryWorld.Holds.appendEnds {run : ℕ} (h : w.Holds R run 0 rows)
    (hnew : limit = 1 → NewGroups R layout records w) : AppendEnds R run limit layout records w := by
  intro faults
  unfold appendRecordsWithin
  split
  · exact ends_const (fun heq => by cases heq)
  rename_i hrefused
  have hnone : limit = 1 → ∀ item ∈ (layout.grouped R records).items, ∀ row ∈ rows,
      row.1 ≠ item.1 := by
    intro hlimit item hitem
    have hnil := (NewGroups.iff_of_not_refused hrefused).mp (hnew hlimit) item hitem
    exact h.groupParts_eq_nil_iff.mp hnil
  have hloop := HistoryWorld.Holds.ends_foldlM ⟨run, faults⟩ (fun _ hmem => hmem)
    (layout.grouped R records).nodup_keys hnone (0, 0) h
  exact Ends.bind hloop (fun ws result _ => ends_const (fun heq => by cases heq))

/-- A step of an operation in which nothing goes wrong. -/
theorem attempt_of_clean (hclean : ¬ op.Faulty) (i : ℕ) (point : StepPoint) (w : HistoryWorld) :
    op.attempt i point w = ([], .ok ()) := by
  have hraises : ¬ op.faults.raises i point = true := fun hraises => hclean ⟨i, point, hraises⟩
  rw [Operation.attempt, if_neg hraises]
  rfl

/-- **The limit one.** An append to a group with a partition calls itself for ever, unless
    something goes wrong. -/
theorem HistoryWorld.Holds.stuck_appendPartitionWithin (h : w.Holds R op.run i rows)
    (hclean : ¬ op.Faulty) (hrow : ∃ item ∈ rows, item.1 = key) (depth : ℕ) :
    (appendPartitionWithin R op 1 layout key records depth i w).2 = .error recursionError := by
  induction depth generalizing i w with
  | zero => rfl
  | succ depth ih =>
    have hparts : w.groupParts R key ≠ [] := by
      rw [Ne, h.groupParts_eq_nil_iff]
      obtain ⟨item, hitem, hkey⟩ := hrow
      exact fun hnone => hnone item hitem hkey
    have hfull : w.Full R 1 key := ⟨Nat.one_pos, List.length_pos_iff.mpr hparts⟩
    have hcompact : Exits (fun w => w.Holds R op.run i rows) (compactPartitionGroup R op key i)
        (SafeStep R op.run fun _ => True)
        (fun _ w => w.Holds R op.run (i + 1) rows ∧ (w.groupParts R key).length ≤ 1)
        (fun _ _ => op.Faulty) := exits_compactPartitionGroup key
    rw [appendPartitionWithin, run_bind_of_silent (attempt_of_clean hclean i _ w),
      run_bind_of_silent (m := Prog.get) rfl, if_pos hfull]
    cases hres : compactPartitionGroup R op key i w with
    | mk ws result =>
      cases result with
      | error e => exact absurd (hcompact.raised w e h (congrArg Prod.snd hres)) hclean
      | ok compacted =>
        rw [run_bind_of_ok hres]
        have hpost := (hcompact.post w compacted h (congrArg Prod.snd hres)).1
        rw [Prog.final, hres] at hpost
        exact ih hpost

variable (op) in
/-- A loop over groups of which one is stuck does not get past it. -/
theorem HistoryWorld.Holds.stuck_foldlM {items : List (GroupKey × List HistoryRecord)}
    (hclean : ¬ op.Faulty) (hitems : ∀ item ∈ items, item ∈ (layout.grouped R records).items)
    (hstuck : ∃ item ∈ items, ∃ row ∈ rows, row.1 = item.1) (depth : ℕ) (progress : ℕ × ℕ)
    (h : w.Holds R op.run progress.2 rows) :
    (items.foldlM (appendGroupWithin R op 1 layout depth) progress w).2
      = .error recursionError := by
  induction items generalizing progress rows w with
  | nil =>
    obtain ⟨item, hitem, -⟩ := hstuck
    cases hitem
  | cons item rest ih =>
    have hgroup : Exits (fun w => w.Holds R op.run progress.2 rows)
        (appendGroupWithin R op 1 layout depth progress item) (SafeStep R op.run fun _ => True)
        (fun result w => ∃ added, w.Holds R op.run result.2 (rows ++ added)
          ∧ ∀ row ∈ added, row.1 = item.1)
        (fun e _ => op.Faulty ∨ e = recursionError) :=
      exits_appendGroupWithin (hitems item List.mem_cons_self) progress
    rw [List.foldlM_cons]
    cases hres : appendGroupWithin R op 1 layout depth progress item w with
    | mk ws result =>
      have hsnd := congrArg Prod.snd hres
      cases result with
      | error e =>
        have he : e = recursionError := (hgroup.raised w e h hsnd).resolve_left hclean
        show (Prog.bind _ _ w).2 = _
        rw [Prog.bind, hres, he]
      | ok result =>
        rw [run_bind_of_ok hres]
        obtain ⟨added, hadded, -⟩ := hgroup.post w result h hsnd
        rw [Prog.final, hres] at hadded
        refine ih (fun other hother => hitems other (List.mem_cons_of_mem _ hother)) ?_ result hadded
        obtain ⟨other, hother, row, hrow, hkey⟩ := hstuck
        rcases List.mem_cons.mp hother with rfl | hother
        · -- the stuck group itself has not ended normally
          have hpart : (appendPartitionWithin R op 1 layout other.1 other.2 depth progress.2 w).2
              = .error recursionError :=
            h.stuck_appendPartitionWithin hclean ⟨row, hrow, hkey⟩ depth
          have herror : (appendGroupWithin R op 1 layout depth progress other w).2
              = .error recursionError := by
            show (Prog.bind _ _ w).2 = _
            rw [Prog.bind, hpart]
          rw [hres] at herror
          cases herror
        · exact ⟨other, hother, row, List.mem_append_left _ hrow, hkey⟩

/-- An append to a full group of a history with the limit one does not end, if nothing goes
    wrong. -/
theorem HistoryWorld.Holds.not_appendEnds {run : ℕ} (h : w.Holds R run 0 rows)
    (hnew : ¬ NewGroups R layout records w) : ¬ AppendEnds R run 1 layout records w := by
  intro hends
  obtain ⟨r, ⟨n, hn⟩, hne⟩ := hends Faults.none
  by_cases hrefused : records.any (fun record => record.lineage = "") = true
  · refine hnew (fun record hrecord => ?_)
    rw [HistoryCall.batch_append, if_pos hrefused] at hrecord
    cases hrecord
  rw [NewGroups.iff_of_not_refused hrefused] at hnew
  push Not at hnew
  obtain ⟨item, hitem, hparts⟩ := hnew
  rw [Ne, h.groupParts_eq_nil_iff] at hparts
  push Not at hparts
  have hclean : ¬ Operation.Faulty ⟨run, Faults.none⟩ := fun ⟨_, _, hraises⟩ => by cases hraises
  have hloop := HistoryWorld.Holds.stuck_foldlM ⟨run, Faults.none⟩ hclean
    (fun _ hmem => hmem) ⟨item, hitem, hparts⟩ n (0, 0) h
  refine hne ?_
  rw [← hn n (Nat.le_refl n)]
  show (appendRecordsWithin R ⟨run, Faults.none⟩ 1 layout records n w).2 = _
  rw [appendRecordsWithin, if_neg hrefused]
  show (Prog.bind _ _ w).2 = _
  rw [Prog.bind, hloop]

/-- **Appending ends**, after any calls with any limits, and every compaction the limit asks for
    makes room, if and only if the limit is not one or no group of the batch has a partition. -/
theorem appendEnds_iff (R : HistoryRuntime) (actions : List LimitedAction)
    (maxPartitionFilesPerGroup : ℤ) (layout : Layout) (records : List HistoryRecord) :
    let state := run (limitedStep R) .initial actions
    let limit := fragmentLimit maxPartitionFilesPerGroup
    (AppendEnds R state.started limit layout records state.world
        ∧ CompactionMakesRoom R state.started limit layout records state.world)
      ↔ (limit = 1 → NewGroups R layout records state.world) := by
  dsimp only
  obtain ⟨rows, h⟩ := holds_of_limitedRun R actions
  generalize run (limitedStep R) .initial actions = state at h
  generalize fragmentLimit maxPartitionFilesPerGroup = limit
  constructor
  · rintro ⟨hends, -⟩ rfl
    by_contra hnew
    exact h.not_appendEnds hnew hends
  · refine fun hnew => ⟨h.appendEnds hnew, fun record hrecord faults i compacted hfull hres => ?_⟩
    by_cases hlimit : limit = 1
    · have hle := hfull.2
      rw [hnew hlimit record hrecord, List.length_nil] at hle
      have hpos := hfull.1
      omega
    · have hat : state.world.Holds R state.started i rows :=
        ⟨h.sound, h.named.mono (Nat.zero_le i), h.rows⟩
      exact (HistoryWorld.Holds.room_after_compaction ⟨state.started, faults⟩ hat hlimit hres).2

end Ends

/-! ### A second append -/

/-- One quote of bitcoin. -/
def bitcoinBatch : List HistoryRecord := [⟨some 1, "lineage", bitcoinQuote 0⟩]

/-- The quote is appended to an empty root that is opened with the limit one. -/
def firstAppend : LimitedAction := ⟨1, .append .fine bitcoinBatch, Faults.none, none⟩

/-- The second append of the quote finds the group at its limit of one fragment, after
    every compaction as before, and calls itself for ever. -/
theorem not_appendEnds_secondAppend :
    ¬ AppendEnds .sample 1 (fragmentLimit 1) .fine bitcoinBatch
      (run (limitedStep .sample) .initial [firstAppend]).world := by
  obtain ⟨rows, h⟩ := holds_of_limitedRun .sample [firstAppend]
  refine h.not_appendEnds (fun hnew => ?_)
  have hnil := hnew ⟨some 1, "lineage", bitcoinQuote 0⟩ List.mem_cons_self
  have hlength : ((run (limitedStep .sample) .initial [firstAppend]).world.groupParts .sample
      (Layout.fine.group .sample ⟨some 1, "lineage", bitcoinQuote 0⟩)).length = 1 := by
    decide +kernel
  rw [hnil] at hlength
  cases hlength

end InefficiencyEngine.History
