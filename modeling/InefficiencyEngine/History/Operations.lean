import InefficiencyEngine.History.Invariant

namespace InefficiencyEngine.History

open Portfolio Durable Prog

/-!
# What an operation leaves

Every write of an operation is a safe one, whatever goes wrong, so the invariant of the root
holds wherever the operation stops.  An operation that ends normally leaves the rows it should:
reaping and compacting those that were there, an append these and one row for each lineage that
was not stored.  An operation raises only when one of its steps does.
-/

variable {R : HistoryRuntime} {op : Operation} {w w₀ : HistoryWorld}

/-- One of the steps raises. -/
def Operation.Faulty (op : Operation) : Prop := ∃ i point, op.faults.raises i point = true

/-- A safe write that adds only rows with `A`. -/
def SafeStep (R : HistoryRuntime) (run : ℕ) (A : GroupKey × HistoryRow → Prop) (w : HistoryWorld)
    (block : List HistoryWrite) : Prop :=
  ∃ write added, block = [write] ∧ w.Safe R run write added ∧ ∀ item ∈ added, A item

variable {A : GroupKey × HistoryRow → Prop} {run i : ℕ}

/-- A safe write without new rows is one of any operation. -/
theorem SafeStep.of_quiet {write : HistoryWrite} (h : w.Safe R run write []) :
    SafeStep R run A w [write] :=
  ⟨write, [], rfl, h, fun _ hitem => by cases hitem⟩

/-! ### Before the commit -/

/-- Two worlds with the same tables and the same listed files. -/
structure HistoryWorld.Frozen (w₀ w : HistoryWorld) : Prop where
  partitions : w.manifest.partitions = w₀.manifest.partitions
  lineages : w.manifest.lineages = w₀.manifest.lineages
  files : ∀ p ∈ w₀.manifest.partitions, w.files p.path = w₀.files p.path

namespace HistoryWorld.Frozen

theorem refl (w₀ : HistoryWorld) : w₀.Frozen w₀ := ⟨rfl, rfl, fun _ _ => rfl⟩

theorem sound (hw : w₀.Frozen w) (h : w₀.Sound R) : w.Sound R ∧ w.groupedRows = w₀.groupedRows :=
  h.congr hw.partitions hw.lineages hw.files

theorem listed_iff (hw : w₀.Frozen w) (path : FilePath) : w.listed path ↔ w₀.listed path := by
  rw [HistoryWorld.listed, HistoryWorld.listed, hw.partitions]

variable {path : FilePath}

theorem put (hw : w₀.Frozen w) (hpath : ¬ w₀.listed path) (rows : List HistoryRow) :
    w₀.Frozen (commit w (HistoryWrite.put path rows)) := by
  refine ⟨hw.partitions, hw.lineages, fun p hp => ?_⟩
  rw [← hw.files p hp]
  exact Function.update_of_ne (HistoryWorld.ne_of_not_listed hpath hp) _ _

theorem unlink (hw : w₀.Frozen w) (hpath : ¬ w₀.listed path) :
    w₀.Frozen (commit w (HistoryWrite.unlink path)) := by
  refine ⟨hw.partitions, hw.lineages, fun p hp => ?_⟩
  rw [← hw.files p hp]
  exact Function.update_of_ne (HistoryWorld.ne_of_not_listed hpath hp) _ _

theorem rename (hw : w₀.Frozen w) {source : FilePath} (hsource : ¬ w₀.listed source)
    (hpath : ¬ w₀.listed path) : w₀.Frozen (commit w (HistoryWrite.rename source path)) := by
  refine ⟨hw.partitions, hw.lineages, fun p hp => ?_⟩
  rw [← hw.files p hp]
  show Function.update (Function.update w.files path _) source none p.path = _
  rw [Function.update_of_ne (HistoryWorld.ne_of_not_listed hsource hp),
    Function.update_of_ne (HistoryWorld.ne_of_not_listed hpath hp)]

end HistoryWorld.Frozen

/-- A listed path is visible. -/
theorem HistoryWorld.Sound.not_listed_temporary (h : w.Sound R) (path : FilePath) :
    ¬ w.listed path.temporary := by
  rintro ⟨p, hp, heq⟩
  have hvisible := (h.describes hp).2.visible
  rw [heq] at hvisible
  cases hvisible

/-- A published file has the rows of the temporary one. -/
theorem files_rename {target : FilePath} {rows : List HistoryRow} (hvisible : target.isHidden = false)
    (hfile : w.files target.temporary = some rows) :
    (commit w (HistoryWrite.rename target.temporary target) : HistoryWorld).files target
      = some rows := by
  have hne : target ≠ target.temporary := fun heq => by
    rw [heq] at hvisible
    cases hvisible
  show Function.update (Function.update w.files target _) target.temporary none target = _
  rw [Function.update_of_ne hne, Function.update_self, hfile]

section Quiet

variable {E : Raised → HistoryWorld → Prop}

/-- A step that raises leaves the store. -/
theorem exits_attempt {P : HistoryWorld → Prop} {G : HistoryWorld → List HistoryWrite → Prop}
    (i : ℕ) (point : StepPoint) (hE : ∀ w e, op.Faulty → P w → E e w) :
    Exits P (op.attempt i point) G (fun _ => P) E := by
  refine (exits_lift _ (fun w e hw he => ?_)).conseq (fun _ w hw => hw.1)
  refine hE w e ⟨i, point, ?_⟩ hw
  by_contra hraises
  rw [if_neg hraises] at he
  cases he

/-- A file can be deleted if it is not listed. -/
theorem exits_remove {path : FilePath} (hpath : ¬ w₀.listed path) :
    Exits w₀.Frozen (op.remove path) (SafeStep R run A) (fun _ => w₀.Frozen) E := by
  refine ⟨⟨fun w hw => ?_, fun w _ hw _ => ?_⟩, fun _ _ _ he => by cases he⟩
  · show Along _ w ((if op.faults.unlinkFails path then none
      else some (HistoryWrite.unlink path)).toList)
    split
    · exact Along.nil w
    · exact Along.single (SafeStep.of_quiet (.unlink path (by rwa [hw.listed_iff])))
  · show w₀.Frozen (commitAll w ((if op.faults.unlinkFails path then none
      else some (HistoryWrite.unlink path)).toList))
    split
    · exact hw
    · exact hw.unlink hpath

/-- The temporary and the final file of a path that is not listed can be deleted. -/
theorem exits_discard {path : FilePath} (h : w₀.Sound R) (hpath : ¬ w₀.listed path) :
    Exits w₀.Frozen (op.discard path) (SafeStep R run A) (fun _ => w₀.Frozen) E :=
  exits_bind (exits_remove (h.not_listed_temporary path)) (fun _ => exits_remove hpath)

/-- What raises before its commit deletes its files, and so leaves the tables and the listed
    files. -/
theorem exits_discarding {P : HistoryWorld → Prop} {m : HistoryProg Unit}
    {Q : Unit → HistoryWorld → Prop} {path : FilePath} (h : w₀.Sound R)
    (hpath : ¬ w₀.listed path)
    (hm : Exits P m (SafeStep R run A) Q (fun _ w => op.Faulty ∧ w₀.Frozen w)) :
    Exits P (onError m (op.discard path)) (SafeStep R run A) Q (fun _ _ => op.Faulty) := by
  have hdiscard : Exits w₀.Frozen (op.discard path) (SafeStep R run A) (fun _ => w₀.Frozen)
      (fun _ _ => True) := exits_discard h hpath
  refine exits_onError (φ := fun _ => op.Faulty) hm (fun _ => ?_) (fun _ _ he => he.1)
  exact hdiscard.toSpec.weaken (fun s hs => hs.2) (fun _ _ hG => hG) (fun _ _ _ => trivial)

/-- The loop of a reaping deletes files that are not listed. -/
theorem exits_reapFiles (paths : List FilePath) :
    Exits w₀.Frozen (reapFiles op i paths) (SafeStep R run A) (fun _ => w₀.Frozen)
      (fun _ _ => op.Faulty) := by
  induction paths with
  | nil => exact (exits_pure (Q := fun _ => w₀.Frozen) []).conseq (fun _ _ hw => hw)
  | cons path rest ih =>
    rw [reapFiles]
    refine exits_bind (exits_attempt i _ (fun _ _ hfaulty _ => hfaulty)) (fun _ => ?_)
    refine exits_get_bind (fun w hw => ?_)
    refine Exits.pre ?_ (fun s hs => hs ▸ hw)
    by_cases hlisted : w.manifest.partitions.any (fun p => p.path = path)
    · rw [if_pos hlisted]
      refine exits_bind (Q := fun _ => w₀.Frozen) ?_ (fun _ => ih)
      exact (exits_write _).pre (fun s hs =>
        ⟨SafeStep.of_quiet (.clearGarbage [path]), hs.partitions, hs.lineages, hs.files⟩)
    · rw [if_neg hlisted]
      split
      · exact ih
      · have hpath : ¬ w₀.listed path := by
          rw [← hw.listed_iff]
          rintro ⟨p, hp, heq⟩
          exact hlisted (List.any_eq_true.mpr ⟨p, hp, by simpa using heq⟩)
        refine exits_bind (Q := fun _ => w₀.Frozen) ?_ (fun _ => ?_)
        · exact (exits_write _).pre (fun s hs =>
            ⟨SafeStep.of_quiet (.unlink path (by rwa [hs.listed_iff])), hs.unlink hpath⟩)
        · exact exits_bind ih (fun cleared => exits_pure (Q := fun _ => w₀.Frozen) _)

/-- **Reaping** changes neither the tables nor a listed file. -/
theorem exits_reapCompactionGarbage :
    Exits w₀.Frozen (reapCompactionGarbage op i) (SafeStep R run A) (fun _ => w₀.Frozen)
      (fun _ _ => op.Faulty) := by
  refine exits_bind (exits_attempt i _ (fun _ _ hfaulty _ => hfaulty)) (fun _ => ?_)
  refine exits_get_bind (fun w hw => ?_)
  refine Exits.pre ?_ (fun s hs => hs ▸ hw)
  refine exits_bind (exits_reapFiles _) (fun cleared => ?_)
  split
  · exact exits_pure (Q := fun _ => w₀.Frozen) 0
  · refine exits_bind (exits_attempt i _ (fun _ _ hfaulty _ => hfaulty)) (fun _ => ?_)
    refine exits_bind (Q := fun _ => w₀.Frozen) ?_ (fun _ => exits_pure (Q := fun _ => w₀.Frozen) _)
    exact (exits_write _).pre (fun s hs =>
      ⟨SafeStep.of_quiet (.clearGarbage cleared), hs.partitions, hs.lineages, hs.files⟩)

end Quiet

/-! ### Compacting -/

/-- The earliest of the parts' earliest times is that of all rows. -/
theorem earliest_flatMap {α : Type} {parts : List α} {stamp : α → Instant}
    {times : α → List Instant} (hne : parts ≠ []) (htimes : ∀ p ∈ parts, times p ≠ [])
    (hstamp : ∀ p ∈ parts, stamp p = earliest (times p)) :
    earliest (parts.map stamp) = earliest (parts.flatMap times) := by
  obtain ⟨first, hfirst⟩ := List.exists_mem_of_ne_nil parts hne
  obtain ⟨time, htime⟩ := List.exists_mem_of_ne_nil _ (htimes first hfirst)
  have hall : parts.flatMap times ≠ [] :=
    List.ne_nil_of_mem (List.mem_flatMap.mpr ⟨first, hfirst, htime⟩)
  refine (isLeast_earliest (by simpa using hne)).unique ⟨?_, ?_⟩
  · obtain ⟨p, hp, hmem⟩ := List.mem_flatMap.mp (isLeast_earliest hall).1
    have hle := (isLeast_earliest (htimes p hp)).2 hmem
    have hge := (isLeast_earliest hall).2
      (List.mem_flatMap.mpr ⟨p, hp, (isLeast_earliest (htimes p hp)).1⟩)
    exact List.mem_map.mpr ⟨p, hp, (hstamp p hp).trans (le_antisymm hle hge)⟩
  · intro t ht
    obtain ⟨p, hp, rfl⟩ := List.mem_map.mp ht
    rw [hstamp p hp]
    exact (isLeast_earliest hall).2
      (List.mem_flatMap.mpr ⟨p, hp, (isLeast_earliest (htimes p hp)).1⟩)

/-- The latest of the parts' latest times is that of all rows. -/
theorem latest_flatMap {α : Type} {parts : List α} {stamp : α → Instant}
    {times : α → List Instant} (hne : parts ≠ []) (htimes : ∀ p ∈ parts, times p ≠ [])
    (hstamp : ∀ p ∈ parts, stamp p = latest (times p)) :
    latest (parts.map stamp) = latest (parts.flatMap times) := by
  obtain ⟨first, hfirst⟩ := List.exists_mem_of_ne_nil parts hne
  obtain ⟨time, htime⟩ := List.exists_mem_of_ne_nil _ (htimes first hfirst)
  have hall : parts.flatMap times ≠ [] :=
    List.ne_nil_of_mem (List.mem_flatMap.mpr ⟨first, hfirst, htime⟩)
  refine (isGreatest_latest (by simpa using hne)).unique ⟨?_, ?_⟩
  · obtain ⟨p, hp, hmem⟩ := List.mem_flatMap.mp (isGreatest_latest hall).1
    have hge := (isGreatest_latest (htimes p hp)).2 hmem
    have hle := (isGreatest_latest hall).2
      (List.mem_flatMap.mpr ⟨p, hp, (isGreatest_latest (htimes p hp)).1⟩)
    exact List.mem_map.mpr ⟨p, hp, (hstamp p hp).trans (le_antisymm hle hge)⟩
  · intro t ht
    obtain ⟨p, hp, rfl⟩ := List.mem_map.mp ht
    rw [hstamp p hp]
    exact (isGreatest_latest hall).2
      (List.mem_flatMap.mpr ⟨p, hp, (isGreatest_latest (htimes p hp)).1⟩)

theorem HistoryWorld.mem_groupParts {key : GroupKey} {p : Partition} :
    p ∈ w.groupParts R key ↔ p ∈ w.manifest.partitions ∧ p.group = key := by
  rw [HistoryWorld.groupParts, List.mem_insertionSort, List.mem_filter, decide_eq_true_iff]

/-- The files of a sound root pass the checks of a compaction. -/
theorem HistoryWorld.Sound.verifiedRows_eq (h : w.Sound R) {part : Partition}
    (hpart : part ∈ w.manifest.partitions) : verifiedRows R w part = .ok (w.rowsAt part) := by
  obtain ⟨hfile, hdescribes⟩ := h.describes hpart
  rw [verifiedRows, hfile]
  dsimp only
  rw [if_neg (by simpa using hdescribes.checksum.symm),
    if_neg (by simpa using hdescribes.rowCount.symm)]

section Compact

variable {target : FilePath} {parts : List Partition}

/-- The copying loop writes the rows of the parts to the temporary file. The parts are read one
    after another and the file is rewritten with all rows so far, so after a crash it has the
    rows of the parts read before. -/
theorem exits_rewriteParts (h : w₀.Sound R) (hparts : ∀ p ∈ parts, p ∈ w₀.manifest.partitions)
    (written : List HistoryRow) :
    Exits (fun w => w₀.Frozen w ∧ (parts = [] → w.files target.temporary = some written))
      (rewriteParts R op i target parts written) (SafeStep R run A)
      (fun rows w => w₀.Frozen w ∧ w.files target.temporary = some rows
        ∧ rows = written ++ parts.flatMap w₀.rowsAt)
      (fun _ w => op.Faulty ∧ w₀.Frozen w) := by
  induction parts generalizing written with
  | nil => exact (exits_pure written).pre (fun w hw => ⟨hw.1, hw.2 rfl, by simp⟩)
  | cons part rest ih =>
    have hpart : part ∈ w₀.manifest.partitions := hparts part List.mem_cons_self
    rw [rewriteParts]
    refine exits_bind (Q := fun _ => w₀.Frozen) ?_ (fun _ => ?_)
    · exact (exits_attempt i _ (fun w e hfaulty hw => ⟨hfaulty, hw⟩)).pre (fun w hw => hw.1)
    refine exits_get_bind (fun w hw => ?_)
    -- the part is listed and described, so the verification of its rows passes
    have hrows : verifiedRows R w part = .ok (w₀.rowsAt part) := by
      have hsound := (hw.sound h).1
      rw [hsound.verifiedRows_eq (by rwa [hw.partitions]), HistoryWorld.rowsAt, hw.files part hpart]
      rfl
    refine Exits.pre ?_ (fun s hs => hs ▸ hw)
    rw [hrows]
    refine exits_bind (exits_lift (P := w₀.Frozen) _ (fun _ _ _ he => by cases he)) (fun rows => ?_)
    refine Exits.pre ?_ (P := fun s => w₀.Frozen s ∧ rows = w₀.rowsAt part)
      (fun s hs => ⟨hs.1, by injection hs.2 with hs; exact hs.symm⟩)
    -- the rows are appended to the temporary file, which nothing lists
    refine exits_bind (Q := fun _ s => w₀.Frozen s
      ∧ s.files target.temporary = some (written ++ w₀.rowsAt part) ∧ rows = w₀.rowsAt part) ?_ ?_
    · refine (exits_write _).pre (fun s hs => ?_)
      have hpath := h.not_listed_temporary target
      refine ⟨SafeStep.of_quiet (.put _ _ (by rwa [hs.1.listed_iff])), hs.1.put hpath _, ?_, hs.2⟩
      rw [hs.2]
      exact Function.update_self _ _ _
    · intro _
      refine exits_of_forall (fun s hs => ?_)
      obtain ⟨hfrozen, htemporary, rfl⟩ := hs
      refine ((ih (fun p hp => hparts p (List.mem_cons_of_mem _ hp)) _).pre
        (fun s' hs' => ?_)).conseq (fun rows s' hpost => ?_)
      · subst hs'
        exact ⟨hfrozen, fun _ => htemporary⟩
      · obtain ⟨hfrozen', htemporary', hrows'⟩ := hpost
        exact ⟨hfrozen', htemporary', by rw [hrows', List.flatMap_cons, List.append_assoc]⟩

/-- The parts of a group with its compacted file describe it. -/
theorem HistoryWorld.Sound.describes_compacted (h : w.Sound R) {key : GroupKey}
    (hparts : ∀ p ∈ parts, p ∈ w.manifest.partitions ∧ p.group = key) (hne : parts ≠ [])
    (hvisible : target.isHidden = false) :
    (compactedPartition R key target parts (parts.flatMap w.rowsAt)).Describes R
      (parts.flatMap w.rowsAt) := by
  have hdescribes : ∀ p ∈ parts, p.Describes R (w.rowsAt p) :=
    fun p hp => (h.describes (hparts p hp).1).2
  have htimes : ∀ p ∈ parts, (w.rowsAt p).map HistoryRow.observedAt ≠ [] :=
    fun p hp => by simpa using (hdescribes p hp).nonempty
  refine ⟨hvisible, ?_, ?_, ?_, ?_, rfl, ?_⟩
  · obtain ⟨first, hfirst⟩ := List.exists_mem_of_ne_nil parts hne
    obtain ⟨row, hrow⟩ := List.exists_mem_of_ne_nil _ (hdescribes first hfirst).nonempty
    exact List.ne_nil_of_mem (List.mem_flatMap.mpr ⟨first, hfirst, hrow⟩)
  · rw [List.map_flatMap]
    exact earliest_flatMap hne htimes (fun p hp => (hdescribes p hp).minimum)
  · rw [List.map_flatMap]
    exact latest_flatMap hne htimes (fun p hp => (hdescribes p hp).maximum)
  · show (parts.map Partition.rowCount).sum = _
    rw [List.length_flatMap]
    exact congrArg List.sum (List.map_congr_left (fun p hp => (hdescribes p hp).rowCount))
  · intro row hrow
    obtain ⟨p, hp, hrow⟩ := List.mem_flatMap.mp hrow
    have hbelongs := (hdescribes p hp).belongs row hrow
    rwa [(hparts p hp).2] at hbelongs

/-- Among the listed partitions, those of a group are those with a path of the group. -/
theorem HistoryWorld.Sound.path_mem_groupParts (h : w.Sound R) {key : GroupKey} {p : Partition}
    (hp : p ∈ w.manifest.partitions) :
    p.path ∈ (w.groupParts R key).map Partition.path ↔ p.group = key := by
  constructor
  · intro hmem
    obtain ⟨q, hq, heq⟩ := List.mem_map.mp hmem
    obtain ⟨hq, hkey⟩ := HistoryWorld.mem_groupParts.mp hq
    rw [← List.inj_on_of_nodup_map h.paths hq hp heq]
    exact hkey
  · exact fun hkey => List.mem_map_of_mem (HistoryWorld.mem_groupParts.mpr ⟨hp, hkey⟩)

/-- The rows of a group are those of the partitions with its paths. -/
theorem HistoryWorld.Sound.perm_groupParts (h : w.Sound R) (key : GroupKey) :
    (w.manifest.partitions.filter (fun p => p.path ∈ (w.groupParts R key).map Partition.path)).Perm
      (w.groupParts R key) := by
  have hfilter : w.manifest.partitions.filter
        (fun p => p.path ∈ (w.groupParts R key).map Partition.path)
      = w.manifest.partitions.filter (fun p => p.group = key) :=
    List.filter_congr (fun p hp => decide_eq_decide.mpr (h.path_mem_groupParts hp))
  rw [hfilter]
  exact (List.perm_insertionSort _ _).symm

/-- As many lineages point at the files of a group as its partitions count rows. -/
theorem HistoryWorld.Sound.length_lineages (h : w.Sound R) (key : GroupKey) {target : FilePath}
    (htarget : ¬ w.listed target) :
    (w.manifest.lineages.filter
        (fun row => row.path ∈ target :: (w.groupParts R key).map Partition.path)).length
      = ((w.groupParts R key).map Partition.rowCount).sum := by
  -- of the rows listed, those under a path of the group are the rows of its partitions
  have hfilter : (w.perRow (fun p row => row.lineageRow p.path)).filter
        (fun row => row.path ∈ target :: (w.groupParts R key).map Partition.path)
      = (w.manifest.partitions.filter
          (fun p => p.path ∈ (w.groupParts R key).map Partition.path)).flatMap
            (fun p => (w.rowsAt p).map (·.lineageRow p.path)) := by
    rw [HistoryWorld.perRow, List.filter_flatMap, flatMap_filter]
    refine List.flatMap_congr (fun p hp => ?_)
    -- the new file is not listed, so no old row points at it
    have hne : p.path ≠ target := HistoryWorld.ne_of_not_listed htarget hp
    by_cases hmem : p.path ∈ (w.groupParts R key).map Partition.path
    · rw [if_pos (by simpa using hmem)]
      refine List.filter_eq_self.mpr (fun row hrow => ?_)
      obtain ⟨row, -, rfl⟩ := List.mem_map.mp hrow
      exact decide_eq_true (List.mem_cons_of_mem _ hmem)
    · rw [if_neg (by simpa using hmem)]
      refine List.filter_eq_nil_iff.mpr (fun row hrow => ?_)
      obtain ⟨row, -, rfl⟩ := List.mem_map.mp hrow
      rw [decide_eq_true_iff, List.mem_cons, not_or]
      exact ⟨hne, hmem⟩
  rw [(h.lineages.filter _).length_eq, hfilter, List.length_flatMap,
    ((h.perm_groupParts key).map _).sum_eq]
  -- each partition counts the rows of its file
  refine congrArg List.sum (List.map_congr_left (fun p hp => ?_))
  rw [List.length_map, (h.describes (HistoryWorld.mem_groupParts.mp hp).1).2.rowCount]

/-- **Compaction**, up to its commit: the partitions of the group are replaced by one that holds
    the same rows. Up to that commit the store is frozen: the new file is written under a
    temporary name, renamed and checked against the counts and the lineages of the old ones. -/
theorem exits_switchParts (h : w₀.Sound R) {key : GroupKey} (hne : w₀.groupParts R key ≠ [])
    {target : FilePath} (hname : target.name.uuid = R.uuid4 op.run i)
    (hvisible : target.isHidden = false) (htarget : ¬ w₀.listed target) :
    Exits w₀.Frozen (switchParts R op i key target (w₀.groupParts R key)) (SafeStep R op.run A)
      (fun _ w => w.Sound R ∧ w.groupedRows.Perm w₀.groupedRows
        ∧ w.manifest.partitions = w₀.manifest.partitions.filter (fun p => p.group ≠ key)
          ++ [compactedPartition R key target (w₀.groupParts R key)
            ((w₀.groupParts R key).flatMap w₀.rowsAt)])
      (fun _ w => op.Faulty ∧ w₀.Frozen w) := by
  have hparts : ∀ p ∈ w₀.groupParts R key, p ∈ w₀.manifest.partitions ∧ p.group = key :=
    fun p hp => HistoryWorld.mem_groupParts.mp hp
  generalize hrowsDef : (w₀.groupParts R key).flatMap w₀.rowsAt = copied
  have hcount : copied.length = ((w₀.groupParts R key).map Partition.rowCount).sum := by
    rw [← hrowsDef, List.length_flatMap]
    exact congrArg List.sum
      (List.map_congr_left (fun p hp => (h.describes (hparts p hp).1).2.rowCount.symm))
  -- the rows of the old files are copied in their order into the temporary file
  unfold switchParts
  refine exits_bind (((exits_rewriteParts h (fun p hp => (hparts p hp).1) []).pre
    (fun w hw => ⟨hw, fun hnil => absurd hnil hne⟩))) (fun rows => ?_)
  refine Exits.pre (P := fun w => (w₀.Frozen w ∧ w.files target.temporary = some copied)
    ∧ rows = copied) ?_ (fun w hw => ⟨⟨hw.1, ?_⟩, ?_⟩)
  rotate_left
  · rw [hw.2.1, hw.2.2, List.nil_append, hrowsDef]
  · rw [hw.2.2, List.nil_append, hrowsDef]
  refine exits_of_forall (fun w₁ hw₁ => ?_)
  obtain ⟨hw₁, rfl⟩ := hw₁
  refine Exits.pre ?_ (fun s hs => hs ▸ hw₁)
  dsimp only
  -- the row count of the copy is checked, and is right
  rw [if_neg (not_not.mpr hcount)]
  refine exits_bind (exits_attempt i _ (fun w e hfaulty hw => ⟨hfaulty, hw.1⟩)) (fun _ => ?_)
  -- the finished file is published under its own name
  refine exits_bind (Q := fun _ w => w₀.Frozen w ∧ w.files target = some rows) ?_ (fun _ => ?_)
  · have htemporary := h.not_listed_temporary target
    exact (exits_write _).pre (fun w hw => ⟨SafeStep.of_quiet (.rename _ _
      (by rwa [hw.1.listed_iff]) (by rwa [hw.1.listed_iff])),
      hw.1.rename htemporary htarget, files_rename hvisible hw.2⟩)
  refine exits_bind (exits_attempt i _ (fun w e hfaulty hw => ⟨hfaulty, hw.1⟩)) (fun _ => ?_)
  -- the lineages of the published file are those of the group
  refine exits_get_bind (fun w₂ hw₂ => ?_)
  refine Exits.pre ?_ (fun s hs => hs ▸ hw₂)
  rw [hw₂.1.lineages, h.length_lineages key htarget, if_neg (not_not.mpr rfl)]
  refine exits_bind (exits_attempt i _ (fun w e hfaulty hw => ⟨hfaulty, hw.1⟩)) (fun _ => ?_)
  refine (exits_write _).pre (fun w hw => ?_)
  obtain ⟨hfrozen, hfile⟩ := hw
  have hsound := hfrozen.sound h
  -- the commit is safe: the new partition describes the copied rows and takes the old ones' place
  have hsafe : w.Safe R op.run (.switchPartitions
      (compactedPartition R key target (w₀.groupParts R key) rows)
      ((w₀.groupParts R key).map Partition.path)) [] := by
    refine .switchPartitions _ _ rows ⟨i, hname⟩ (by rwa [hfrozen.listed_iff]) ?_ hfile ?_ ?_ ?_
    · intro hmem
      obtain ⟨p, hp, heq⟩ := List.mem_map.mp hmem
      exact htarget ⟨p, (hparts p hp).1, heq⟩
    · rw [← hrowsDef]
      exact h.describes_compacted hparts hne hvisible
    · intro q hq hmem
      rw [hfrozen.partitions] at hq
      exact (h.path_mem_groupParts hq).mp hmem
    · have hrowsAt : ∀ p ∈ w₀.manifest.partitions, w.rowsAt p = w₀.rowsAt p := by
        intro p hp
        rw [HistoryWorld.rowsAt, hfrozen.files p hp]
        rfl
      rw [hfrozen.partitions,
        List.flatMap_congr (fun p hp => hrowsAt p (List.mem_of_mem_filter hp)), ← hrowsDef]
      exact (h.perm_groupParts key).flatMap_right w₀.rowsAt
  obtain ⟨hafter, hrowsAfter⟩ := hsafe.sound hsound.1
  refine ⟨SafeStep.of_quiet hsafe, hafter, ?_, ?_⟩
  · rw [List.append_nil, hsound.2] at hrowsAfter
    exact hrowsAfter
  -- of the manifest the other groups' partitions remain, followed by the new one
  · show (w.manifest.partitions ++ [_]).filter _ = _
    rw [hfrozen.partitions, List.filter_append]
    congr 1
    · refine List.filter_congr (fun p hp => ?_)
      exact decide_eq_decide.mpr (not_congr (h.path_mem_groupParts hp))
    · refine List.filter_eq_self.mpr (fun p hp => ?_)
      rw [List.mem_singleton.mp hp, decide_eq_true_iff]
      intro hmem
      obtain ⟨q, hq, heq⟩ := List.mem_map.mp hmem
      exact htarget ⟨q, (hparts q hq).1, heq⟩

end Compact

/-! ### What a root holds -/

/-- The names of the listed files were drawn before the `i`-th one of operation `run`. -/
def HistoryWorld.Named (R : HistoryRuntime) (run i : ℕ) (w : HistoryWorld) : Prop :=
  ∀ p ∈ w.manifest.partitions, ∃ r j, p.path.name.uuid = R.uuid4 r j ∧ (r < run ∨ (r = run ∧ j < i))

/-- A sound root that holds some rows. -/
structure HistoryWorld.Holds (R : HistoryRuntime) (run i : ℕ) (rows : List (GroupKey × HistoryRow))
    (w : HistoryWorld) : Prop where
  sound : w.Sound R
  named : w.Named R run i
  rows : w.groupedRows.Perm rows

variable {rows : List (GroupKey × HistoryRow)}

theorem HistoryWorld.Holds.frozen (h : w₀.Holds R run i rows) (hw : w₀.Frozen w) :
    w.Holds R run i rows := by
  obtain ⟨hsound, hrows⟩ := hw.sound h.sound
  refine ⟨hsound, fun p hp => h.named p ?_, hrows ▸ h.rows⟩
  rwa [← hw.partitions]

/-- A name that is still to be drawn is not listed. -/
theorem HistoryWorld.Named.not_listed (h : w.Named R run i) {path : FilePath}
    (hname : path.name.uuid = R.uuid4 run i) : ¬ w.listed path := by
  rintro ⟨p, hp, rfl⟩
  obtain ⟨r, j, heq, hlt⟩ := h p hp
  obtain ⟨rfl, rfl⟩ := R.uuid4_injective (heq.symm.trans hname)
  omega

theorem HistoryWorld.Named.mono {j : ℕ} (h : w.Named R run i) (hij : i ≤ j) : w.Named R run j := by
  intro p hp
  obtain ⟨r, k, heq, hlt⟩ := h p hp
  exact ⟨r, k, heq, by omega⟩

/-- **Compaction** keeps what a root holds, and leaves the group at most one partition. A group
    of at most one partition is left as it is; of more partitions one new file is written before
    the manifest switches to it, and the old files are reaped afterwards. -/
theorem exits_compactPartitionGroup (key : GroupKey) :
    Exits (fun w => w.Holds R op.run i rows) (compactPartitionGroup R op key i)
      (SafeStep R op.run A)
      (fun _ w => w.Holds R op.run (i + 1) rows ∧ (w.groupParts R key).length ≤ 1)
      (fun _ _ => op.Faulty) := by
  unfold compactPartitionGroup
  refine exits_bind (exits_attempt i _ (fun _ _ hfaulty _ => hfaulty)) (fun _ => ?_)
  refine exits_get_bind (fun w hw => ?_)
  -- nothing to compact
  have hkept : (w.groupParts R key).length ≤ 1 →
      Exits (fun s => s = w) (pure false : HistoryProg Bool) (SafeStep R op.run A)
        (fun _ s => s.Holds R op.run (i + 1) rows ∧ (s.groupParts R key).length ≤ 1)
        (fun _ _ => op.Faulty) := by
    intro hfew
    refine (exits_pure (Q := fun _ (s : HistoryWorld) => s.Holds R op.run (i + 1) rows
      ∧ (s.groupParts R key).length ≤ 1) false).pre (fun s hs => ?_)
    subst hs
    exact ⟨⟨hw.sound, hw.named.mono (Nat.le_succ i), hw.rows⟩, hfew⟩
  cases hparts : w.groupParts R key with
  | nil => exact hkept (by simp [hparts])
  | cons first rest =>
    cases rest with
    | nil => exact hkept (by simp [hparts])
    -- two partitions or more: the switch leaves the group the new one alone
    | cons second rest =>
      dsimp only
      rw [← hparts]
      have hne : w.groupParts R key ≠ [] := by simp [hparts]
      have htarget : ¬ w.listed ⟨first.path.directory, .compact (R.uuid4 op.run i), false⟩ :=
        hw.named.not_listed rfl
      have hswitch := exits_discarding hw.sound htarget
        (exits_switchParts (A := A) hw.sound hne rfl rfl htarget)
      refine exits_bind (hswitch.pre (fun s hs => hs ▸ HistoryWorld.Frozen.refl w)) (fun _ => ?_)
      refine exits_of_forall (fun w₁ hw₁ => ?_)
      obtain ⟨hsound, hrows, hpartitions⟩ := hw₁
      have hholds : w₁.Holds R op.run (i + 1) rows := by
        refine ⟨hsound, fun p hp => ?_, hrows.trans hw.rows⟩
        rw [hpartitions, List.mem_append] at hp
        rcases hp with hp | hp
        · exact hw.named.mono (Nat.le_succ i) p (List.mem_of_mem_filter hp)
        · rw [List.mem_singleton.mp hp]
          exact ⟨op.run, i, rfl, Or.inr ⟨rfl, Nat.lt_succ_self i⟩⟩
      have hfew : (w₁.groupParts R key).length ≤ 1 := by
        rw [HistoryWorld.groupParts, List.length_insertionSort, hpartitions, List.filter_append,
          List.filter_filter, List.filter_eq_nil_iff.mpr (fun p _ => by simp), List.nil_append]
        exact List.length_filter_le _ _
      -- the reaping touches no listed file
      have hreap : Exits w₁.Frozen (reapCompactionGarbage op i) (SafeStep R op.run A)
          (fun _ => w₁.Frozen) (fun _ _ => op.Faulty) := exits_reapCompactionGarbage
      refine exits_bind (hreap.pre (fun s hs => hs ▸ HistoryWorld.Frozen.refl w₁)) (fun _ => ?_)
      refine (exits_pure (Q := fun _ (s : HistoryWorld) => s.Holds R op.run (i + 1) rows
        ∧ (s.groupParts R key).length ≤ 1) true).pre (fun s hs => ⟨hholds.frozen hs, ?_⟩)
      rwa [HistoryWorld.groupParts, hs.partitions]

end InefficiencyEngine.History
