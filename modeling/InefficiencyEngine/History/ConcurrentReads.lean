import InefficiencyEngine.History.CrashRuns
import InefficiencyEngine.History.Sample
import InefficiencyEngine.Lib.Numbered
import Mathlib.Algebra.Order.BigOperators.Group.List
import Mathlib.Data.List.Induction

namespace InefficiencyEngine.History

open Portfolio Durable Prog

/-!
# Ranges read while other processes write

`range` looks partitions up in the manifest and then opens their files one by one.  Between the
lookup and each of the reads, other processes may append, compact and reap; appends and
compactions hold the lock of the manifest, so that their writes come one call after the other.

A file that has been published is never written again, because its name is never drawn again
(`historyTrace_apart`).  A read thus finds the file as it was at the lookup, or it finds nothing.
`range` asks for a file before it opens it: one that is gone when it asks is skipped, and one that
goes in between raises `FileNotFoundError`.  `rangeDuring_of_run` says when it raises, what is lost
where it does not, and when nothing is.
-/

/-! ### The names of files -/

/-- The path a write publishes a file at. -/
def HistoryWrite.publishes : HistoryWrite → Option FilePath
  | .rename _ target => some target
  | _ => none

/-- The path a write lists. -/
def HistoryWrite.lists : HistoryWrite → Option FilePath
  | .insertPartition p _ => some p.path
  | .switchPartitions p _ => some p.path
  | _ => none

/-- Nothing is written to a visible path but by publishing it. -/
def HistoryWrite.Covert : HistoryWrite → Prop
  | .put path _ => path.isHidden = true
  | .rename source _ => source.isHidden = true
  | _ => True

/-- The second write does not publish what the first one has listed. -/
def HistoryWrite.Apart (a b : HistoryWrite) : Prop :=
  ∀ path ∈ a.lists, path ∉ b.publishes

/-- A path whose name is drawn by an operation, at a place that satisfies a condition. -/
def FilePath.DrawnAt (R : HistoryRuntime) (run : ℕ) (φ : ℕ → Prop) (path : FilePath) : Prop :=
  ∃ i, φ i ∧ path.name.uuid = R.uuid4 run i

/-- Writes of an operation publish names from one number on, and list names below another. -/
def namesOf (R : HistoryRuntime) (run : ℕ) : Numbering HistoryWrite where
  Within lo hi write := (∀ path ∈ write.publishes, path.DrawnAt R run (lo ≤ ·))
    ∧ (∀ path ∈ write.lists, path.DrawnAt R run (· < hi)) ∧ write.Covert
  Apart := HistoryWrite.Apart
  mono := by
    rintro lo lo' hi hi' write hlo hhi ⟨hpublishes, hlists, hcovert⟩
    refine ⟨fun path hpath => ?_, fun path hpath => ?_, hcovert⟩
    · obtain ⟨i, hi, heq⟩ := hpublishes path hpath
      exact ⟨i, hlo.trans hi, heq⟩
    · obtain ⟨i, hi, heq⟩ := hlists path hpath
      exact ⟨i, hi.trans_le hhi, heq⟩
  apart := by
    rintro lo mid hi write write' ⟨-, hlists, -⟩ ⟨hpublishes, -⟩ path hpath hpath'
    obtain ⟨i, hi, heq⟩ := hlists path hpath
    obtain ⟨j, hj, heq'⟩ := hpublishes path hpath'
    obtain ⟨-, hij⟩ := R.uuid4_injective (heq.symm.trans heq')
    exact absurd (hij ▸ hi) (not_lt.mpr hj)

section Names

variable {R : HistoryRuntime} {op : Operation} {i : ℕ}

/-- A write that neither publishes nor lists a file. -/
def HistoryWrite.Nameless (write : HistoryWrite) : Prop :=
  write.publishes = none ∧ write.lists = none ∧ write.Covert

theorem HistoryWrite.Nameless.within {write : HistoryWrite} (h : write.Nameless) (run lo hi : ℕ) :
    (namesOf R run).Within lo hi write := by
  refine ⟨fun path hpath => ?_, fun path hpath => ?_, h.2.2⟩
  · rw [h.1] at hpath
    cases hpath
  · rw [h.2.1] at hpath
    cases hpath

theorem emits_within {α : Type} {m : HistoryProg α} (h : Emits HistoryWrite.Nameless m)
    (run lo hi : ℕ) : Emits ((namesOf R run).Within lo hi) m :=
  fun s write hwrite => (h s write hwrite).within run lo hi

/-! Steps that draw no name. -/

theorem nameless_attempt (point : StepPoint) : Emits HistoryWrite.Nameless (op.attempt i point) :=
  emits_lift _

theorem nameless_remove (path : FilePath) : Emits HistoryWrite.Nameless (op.remove path) := by
  intro s write hwrite
  have hwrite : write ∈ (if op.faults.unlinkFails path then none
    else some (HistoryWrite.unlink path)).toList := hwrite
  split at hwrite
  · cases hwrite
  · rw [Option.toList_some, List.mem_singleton] at hwrite
    rw [hwrite]
    exact ⟨rfl, rfl, trivial⟩

theorem nameless_discard (path : FilePath) : Emits HistoryWrite.Nameless (op.discard path) :=
  emits_bind (nameless_remove _) (fun _ => nameless_remove _)

theorem nameless_reapFiles (paths : List FilePath) :
    Emits HistoryWrite.Nameless (reapFiles op i paths) := by
  induction paths with
  | nil => exact emits_pure _
  | cons path rest ih =>
    refine emits_bind (nameless_attempt _) (fun _ => emits_bind emits_get (fun w => ?_))
    split
    · exact emits_bind (emits_write ⟨rfl, rfl, trivial⟩) (fun _ => ih)
    · split
      · exact ih
      · exact emits_bind (emits_write ⟨rfl, rfl, trivial⟩)
          (fun _ => emits_bind ih (fun _ => emits_pure _))

theorem nameless_reap : Emits HistoryWrite.Nameless (reapCompactionGarbage op i) := by
  refine emits_bind (nameless_attempt _) (fun _ => emits_bind emits_get (fun w => ?_))
  refine emits_bind (nameless_reapFiles _) (fun cleared => ?_)
  split
  · exact emits_pure _
  · exact emits_bind (nameless_attempt _)
      (fun _ => emits_bind (emits_write ⟨rfl, rfl, trivial⟩) (fun _ => emits_pure _))

theorem nameless_rewriteParts (target : FilePath) (parts : List Partition)
    (written : List HistoryRow) :
    Emits HistoryWrite.Nameless (rewriteParts R op i target parts written) := by
  induction parts generalizing written with
  | nil => exact emits_pure _
  | cons part rest ih =>
    refine emits_bind (nameless_attempt _) (fun _ => emits_bind emits_get (fun w => ?_))
    exact emits_bind (emits_lift _)
      (fun rows => emits_bind (emits_write ⟨rfl, rfl, rfl⟩) (fun _ => ih _))

/-! Steps that draw the `i`-th name. -/

/-- Before the name is listed its file is published. -/
theorem within_rename {target : FilePath} (hname : target.name.uuid = R.uuid4 op.run i) :
    (namesOf R op.run).Within i i (.rename target.temporary target) := by
  refine ⟨fun path hpath => ?_, fun path hpath => (by cases hpath), rfl⟩
  injection hpath with hpath
  exact ⟨i, le_refl i, hpath ▸ hname⟩

theorem within_lists {write : HistoryWrite} {path : FilePath} (hpublishes : write.publishes = none)
    (hlists : write.lists = some path) (hcovert : write.Covert)
    (hname : path.name.uuid = R.uuid4 op.run i) :
    (namesOf R op.run).Within i (i + 1) write := by
  refine ⟨fun path' hpath' => ?_, fun path' hpath' => ?_, hcovert⟩
  · rw [hpublishes] at hpath'
    cases hpath'
  · rw [hlists] at hpath'
    injection hpath' with hpath'
    exact ⟨i, Nat.lt_succ_self i, hpath' ▸ hname⟩

theorem drawn_nameless {α : Type} {m : HistoryProg α} (h : Emits HistoryWrite.Nameless m) :
    Drawn (namesOf R op.run) i m (fun _ => i) :=
  drawn_of_emits (emits_within h _ _ _)

theorem drawn_switchParts {key : GroupKey} {target : FilePath} {parts : List Partition}
    (hname : target.name.uuid = R.uuid4 op.run i) :
    Drawn (namesOf R op.run) i (switchParts R op i key target parts) (fun _ => i + 1) := by
  have hraise : ∀ e, Drawn (namesOf R op.run) i (Prog.lift (.error e) : HistoryProg Unit)
      (fun _ => i + 1) := by
    refine fun e => ⟨fun s => List.Pairwise.nil, fun s => ⟨i, le_refl i, ?_, ?_⟩⟩
    · exact fun write hwrite => by cases hwrite
    · exact fun a ha => by cases ha
  refine drawn_bind (drawn_nameless (nameless_rewriteParts _ _ _)) (fun rows => ?_)
  split
  · exact hraise _
  refine drawn_bind (drawn_nameless (nameless_attempt _)) (fun _ => ?_)
  refine drawn_bind (drawn_write (le_refl i) (within_rename hname)) (fun _ => ?_)
  refine drawn_bind (drawn_nameless (nameless_attempt _)) (fun _ => ?_)
  refine drawn_bind (drawn_nameless emits_get) (fun w => ?_)
  dsimp only
  split
  · exact hraise _
  refine drawn_bind (drawn_nameless (nameless_attempt _)) (fun _ => ?_)
  exact drawn_write (Nat.le_succ i) (within_lists rfl rfl trivial hname)

theorem drawn_compactPartitionGroup (key : GroupKey) :
    Drawn (namesOf R op.run) i (compactPartitionGroup R op key i) (fun _ => i + 1) := by
  refine drawn_bind (drawn_nameless (nameless_attempt _)) (fun _ => ?_)
  refine drawn_bind (drawn_nameless emits_get) (fun w => ?_)
  split
  · refine drawn_bind (drawn_onError (drawn_switchParts rfl)
      (fun j => emits_within (nameless_discard _) _ _ _)) (fun _ => ?_)
    exact drawn_bind (drawn_of_emits (emits_within nameless_reap _ _ _))
      (fun _ => drawn_pure _ (le_refl _))
  · exact drawn_pure _ (Nat.le_succ i)

theorem drawn_storeRows {key : GroupKey} {target : FilePath} {rows : List HistoryRow}
    (hname : target.name.uuid = R.uuid4 op.run i) :
    Drawn (namesOf R op.run) i (storeRows R op i key target rows) (fun _ => i + 1) := by
  refine drawn_bind (drawn_nameless (nameless_attempt _)) (fun _ => ?_)
  refine drawn_bind (drawn_nameless (emits_write ⟨rfl, rfl, rfl⟩)) (fun _ => ?_)
  refine drawn_bind (drawn_nameless (nameless_attempt _)) (fun _ => ?_)
  refine drawn_bind (drawn_write (le_refl i) (within_rename hname)) (fun _ => ?_)
  refine drawn_bind (drawn_nameless (nameless_attempt _)) (fun _ => ?_)
  refine drawn_bind (drawn_nameless (nameless_attempt _)) (fun _ => ?_)
  exact drawn_write (Nat.le_succ i) (within_lists rfl rfl trivial hname)

theorem drawn_appendAccepted (layout : Layout) (key : GroupKey) (records : List HistoryRecord) :
    Drawn (namesOf R op.run) i (appendAccepted R op layout key records i) Prod.snd := by
  refine drawn_bind (drawn_nameless emits_get) (fun w => ?_)
  dsimp only
  split
  · exact drawn_pure _ (le_refl i)
  · exact drawn_bind (drawn_onError (drawn_storeRows rfl)
      (fun j => emits_within (nameless_discard _) _ _ _)) (fun _ => drawn_pure _ (le_refl _))

theorem drawn_appendPartition (layout : Layout) (key : GroupKey) (records : List HistoryRecord)
    (fuel : ℕ) :
    Drawn (namesOf R op.run) i (appendPartition R op layout key records fuel i) Prod.snd := by
  induction fuel generalizing i with
  | zero =>
    refine ⟨fun s => List.Pairwise.nil, fun s => ⟨i, le_refl i, ?_, ?_⟩⟩
    · exact fun write hwrite => by cases hwrite
    · exact fun a ha => by cases ha
  | succ fuel ih =>
    refine drawn_bind (drawn_nameless (nameless_attempt _)) (fun _ => ?_)
    refine drawn_bind (drawn_nameless emits_get) (fun w => ?_)
    split
    · exact drawn_bind (drawn_compactPartitionGroup key) (fun _ => ih)
    · exact drawn_appendAccepted layout key records

/-- The writes of a call are apart, and all their names are the call's. -/
structure FreshWrites (R : HistoryRuntime) (run : ℕ) (writes : List HistoryWrite) : Prop where
  apart : writes.Pairwise HistoryWrite.Apart
  named : ∃ hi, ∀ write ∈ writes, (namesOf R run).Within 0 hi write

theorem FreshWrites.of_drawn {α : Type} {m : HistoryProg α} {next : α → ℕ}
    (h : Drawn (namesOf R op.run) 0 m next) (s : HistoryWorld) : FreshWrites R op.run (m s).1 := by
  obtain ⟨hi, -, hwithin, -⟩ := h.within s
  exact ⟨h.apart s, hi, hwithin⟩

/-- The writes of a call are fresh. -/
theorem fresh_call (call : HistoryCall) (s : HistoryWorld) :
    FreshWrites R op.run (call.prog R op s).1 := by
  cases call with
  | append layout records =>
    have hgroup : ∀ (progress : ℕ × ℕ) (item : GroupKey × List HistoryRecord),
        Drawn (namesOf R op.run) progress.2 (appendGroup R op layout progress item) Prod.snd :=
      fun progress item => drawn_bind (drawn_appendPartition layout item.1 item.2 recursionLimit)
        (fun result => drawn_pure _ (le_refl _))
    show FreshWrites R op.run (appendRecords R op layout records s).1
    unfold appendRecords
    split
    · exact FreshWrites.of_drawn (drawn_nameless (emits_lift _)) s
    · have hloop := drawn_foldlM hgroup (layout.grouped R records).items (0, 0)
      show FreshWrites R op.run
        (((layout.grouped R records).items.foldlM (appendGroup R op layout) (0, 0)
          >>= fun result => pure result.1) s).1
      rw [run_bind_pure]
      exact FreshWrites.of_drawn hloop s
  | compact key =>
    have hdrawn : Drawn (namesOf R op.run) 0 (HistoryCall.compact key |>.prog R op) (fun _ => 1) :=
      drawn_bind (drawn_compactPartitionGroup key) (fun _ => drawn_pure _ (le_refl _))
    exact FreshWrites.of_drawn hdrawn s
  | reap => exact FreshWrites.of_drawn (drawn_nameless nameless_reap) s

end Names

/-! ### The writes of a run -/

section Trace

variable (R : HistoryRuntime)

/-- The writes a call makes before it stops. -/
def HistoryAction.writes (state : HistoryState) (action : HistoryAction) : List HistoryWrite :=
  match action.stop with
  | none => (action.call.prog R ⟨state.started, action.faults⟩ state.world).1
  | some n => (action.call.prog R ⟨state.started, action.faults⟩ state.world).1.take n

/-- All writes of a run, one call after the other. -/
def historyTrace : HistoryState → List HistoryAction → List HistoryWrite
  | _, [] => []
  | state, action :: rest => action.writes R state ++ historyTrace (historyStep R state action) rest

variable {R}

theorem commitAll_writes (state : HistoryState) (action : HistoryAction) :
    commitAll state.world (action.writes R state) = (historyStep R state action).world := by
  show _ = Prog.leaves _ _ action.stop
  rw [HistoryAction.writes]
  cases action.stop with
  | none => rfl
  | some n => rfl

theorem commitAll_historyTrace (state : HistoryState) (actions : List HistoryAction) :
    commitAll state.world (historyTrace R state actions)
      = (run (historyStep R) state actions).world := by
  induction actions generalizing state with
  | nil => rfl
  | cons action rest ih => rw [historyTrace, commitAll_append, commitAll_writes, ih, run_cons]

/-- The writes up to a point are those of a run that stops there. -/
theorem exists_historyTrace_take (state : HistoryState) (actions : List HistoryAction) (n : ℕ) :
    ∃ actions', historyTrace R state actions' = (historyTrace R state actions).take n := by
  induction actions generalizing state n with
  | nil => exact ⟨[], by rw [historyTrace, List.take_nil]⟩
  | cons action rest ih =>
    rcases Nat.lt_or_ge n (action.writes R state).length with hlt | hge
    · -- the point is inside the first call
      have hstop : ∃ m, ({ action with stop := some m } : HistoryAction).writes R state
          = (action.writes R state).take n := by
        unfold HistoryAction.writes
        cases action.stop with
        | none => exact ⟨n, rfl⟩
        | some k => exact ⟨min n k, (List.take_take ..).symm⟩
      obtain ⟨m, hm⟩ := hstop
      refine ⟨[{ action with stop := some m }], ?_⟩
      rw [historyTrace, historyTrace, historyTrace, List.append_nil, hm,
        List.take_append_of_le_length hlt.le]
    · obtain ⟨actions', hactions'⟩ := ih (historyStep R state action)
        (n - (action.writes R state).length)
      refine ⟨action :: actions', ?_⟩
      rw [historyTrace, historyTrace, hactions', List.take_append, List.take_of_length_le hge]

/-- The writes of an action are fresh. -/
theorem HistoryAction.fresh (state : HistoryState) (action : HistoryAction) :
    FreshWrites R state.started (action.writes R state) := by
  have hcall : ∀ op : Operation, FreshWrites R op.run (action.call.prog R op state.world).1 :=
    fun _ => fresh_call action.call state.world
  have hall := hcall ⟨state.started, action.faults⟩
  rw [HistoryAction.writes]
  cases action.stop with
  | none => exact hall
  | some n =>
    obtain ⟨hi, hnamed⟩ := hall.named
    exact ⟨hall.apart.sublist (List.take_sublist _ _), hi,
      fun write hwrite => hnamed write (List.mem_of_mem_take hwrite)⟩

/-- **Names are used once.** In a run no path is published after it has been listed. -/
theorem historyTrace_apart (state : HistoryState) (actions : List HistoryAction) :
    (historyTrace R state actions).Pairwise HistoryWrite.Apart
      ∧ ∀ write ∈ historyTrace R state actions, write.Covert ∧ ∀ path ∈ write.publishes,
        ∃ run, state.started ≤ run ∧ path.DrawnAt R run (fun _ => True) := by
  induction actions generalizing state with
  | nil => exact ⟨List.Pairwise.nil, fun write hwrite => by cases hwrite⟩
  | cons action rest ih =>
    obtain ⟨hapart, hrest⟩ := ih (historyStep R state action)
    have hfresh := action.fresh (R := R) state
    obtain ⟨hi, hnamed⟩ := hfresh.named
    refine ⟨List.pairwise_append.mpr ⟨hfresh.apart, hapart, ?_⟩, fun write hwrite => ?_⟩
    · -- later calls draw their names for themselves
      intro write hwrite write' hwrite' path hlists hpublishes
      obtain ⟨i, -, hname⟩ := (hnamed write hwrite).2.1 path hlists
      obtain ⟨run, hrun, j, -, hname'⟩ := (hrest write' hwrite').2 path hpublishes
      obtain ⟨hrun', -⟩ := R.uuid4_injective (hname.symm.trans hname')
      have hlater : state.started + 1 ≤ run := hrun
      omega
    · rcases List.mem_append.mp hwrite with hwrite | hwrite
      · obtain ⟨hpublishes, -, hcovert⟩ := hnamed write hwrite
        refine ⟨hcovert, fun path hpath => ?_⟩
        obtain ⟨i, -, hname⟩ := hpublishes path hpath
        exact ⟨state.started, le_refl _, i, trivial, hname⟩
      · refine ⟨(hrest write hwrite).1, fun path hpath => ?_⟩
        obtain ⟨run, hrun, hdrawn⟩ := (hrest write hwrite).2 path hpath
        exact ⟨run, (Nat.le_succ _).trans hrun, hdrawn⟩

end Trace

/-! ### A range during a run -/

/-- The root after some writes of a run. -/
def worldAfter (trace : List HistoryWrite) (n : ℕ) : HistoryWorld :=
  commitAll HistoryWorld.empty (trace.take n)

/-- When a range looks its partitions up, and when it asks for each file (`Path.is_file`) and opens
    it, in writes of the others. -/
structure RangeRead where
  lookup : ℕ
  askAt : FilePath → ℕ
  openAt : FilePath → ℕ
  lookup_le : ∀ path, lookup ≤ askAt path
  askAt_le : ∀ path, askAt path ≤ openAt path

namespace RangeRead

variable (read : RangeRead) (trace : List HistoryWrite)

/-- The file of a path is gone when the range asks for it. -/
def missed (path : FilePath) : Bool := ((worldAfter trace (read.askAt path)).files path).isNone

/-- The file of a path is there when the range asks for it and gone when it opens it. -/
def vanished (path : FilePath) : Bool :=
  !read.missed trace path && ((worldAfter trace (read.openAt path)).files path).isNone

/-- The rows that are read of a partition: none of a file that was missed. -/
def rows (p : Partition) : List HistoryRow :=
  if read.missed trace p.path then []
  else visibleRows (worldAfter trace (read.openAt p.path)).files p

end RangeRead

/-- A root without some of its files. -/
def HistoryWorld.without (w : HistoryWorld) (gone : FilePath → Bool) : HistoryWorld :=
  { w with files := fun path => if gone path then none else w.files path }

section During

variable (R : HistoryRuntime) (layout : Layout) (window : HistoryWindow)

/-- `range`, between the writes of other processes: the quotes, or the first path that it could not
    open any more. -/
def Layout.rangeDuring (trace : List HistoryWrite) (read : RangeRead) :
    Except FilePath (List QuoteRecord) :=
  let partitions := (worldAfter trace read.lookup).manifest.partitions
  match (partitions.filter (layout.selects R window)).find?
    (fun p => !p.path.isHidden && read.vanished trace p.path) with
  -- `pq.ParquetFile` raises `FileNotFoundError`
  | some p => .error p.path
  | none => .ok ((layout.rangeRows R window partitions (read.rows trace)).map HistoryRow.quote)

variable {R layout window} {w : HistoryWorld} {gone : FilePath → Bool}

/-- A listed partition was listed by one of the writes. -/
theorem exists_lists_of_mem {ws : List HistoryWrite} {p : Partition}
    (hp : p ∈ (commitAll HistoryWorld.empty ws).manifest.partitions) :
    ∃ write ∈ ws, p.path ∈ write.lists := by
  induction ws using List.reverseRecOn with
  | nil => cases hp
  | append_singleton ws write ih =>
    rw [commitAll_append, commitAll_cons, commitAll_nil] at hp
    have hold : p ∈ (commitAll HistoryWorld.empty ws).manifest.partitions →
        ∃ write' ∈ ws ++ [write], p.path ∈ write'.lists := by
      intro hmem
      obtain ⟨write', hwrite', hlists⟩ := ih hmem
      exact ⟨write', List.mem_append_left _ hwrite', hlists⟩
    have hnew : ∀ q : Partition, p ∈ (commitAll HistoryWorld.empty ws).manifest.partitions ++ [q] →
        q.path ∈ write.lists → ∃ write' ∈ ws ++ [write], p.path ∈ write'.lists := by
      intro q hmem hlists
      rcases List.mem_append.mp hmem with hmem | hmem
      · exact hold hmem
      · rw [List.mem_singleton.mp hmem]
        exact ⟨write, List.mem_append_right _ List.mem_cons_self, hlists⟩
    cases write with
    | put path rows => exact hold hp
    | rename source target => exact hold hp
    | unlink path => exact hold hp
    | clearGarbage paths => exact hold hp
    | insertPartition q lineages => exact hnew q hp rfl
    | switchPartitions q old => exact hnew q (List.mem_of_mem_filter hp) rfl

/-- A write that does not publish a visible path leaves its file, or removes it. -/
theorem files_commit {write : HistoryWrite} {path : FilePath} (hvisible : path.isHidden = false)
    (hcovert : write.Covert) (hpublishes : path ∉ write.publishes) :
    (commit w write : HistoryWorld).files path = w.files path
      ∨ (commit w write : HistoryWorld).files path = none := by
  have hne : ∀ other : FilePath, other.isHidden = true → path ≠ other := by
    rintro other hhidden rfl
    rw [hvisible] at hhidden
    cases hhidden
  cases write with
  | put other rows => exact Or.inl (Function.update_of_ne (hne other hcovert) _ _)
  | rename source target =>
    have htarget : path ≠ target := fun heq => hpublishes (by rw [heq]; rfl)
    left
    show Function.update (Function.update w.files target _) source none path = _
    rw [Function.update_of_ne (hne source hcovert), Function.update_of_ne htarget]
  | unlink other =>
    show Function.update w.files other none path = _ ∨ Function.update w.files other none path = _
    by_cases heq : path = other
    · rw [heq, Function.update_self]
      exact Or.inr rfl
    · rw [Function.update_of_ne heq]
      exact Or.inl rfl
  | insertPartition q lineages => exact Or.inl rfl
  | switchPartitions q old => exact Or.inl rfl
  | clearGarbage paths => exact Or.inl rfl

/-- **Files are immutable.** Later in a run, the file of a partition that was listed is as it was,
    or it is gone. -/
theorem files_worldAfter {trace : List HistoryWrite} (hapart : trace.Pairwise HistoryWrite.Apart)
    (hcovert : ∀ write ∈ trace, write.Covert) {p : Partition} {n m : ℕ} (hnm : n ≤ m)
    (hp : p ∈ (worldAfter trace n).manifest.partitions) (hvisible : p.path.isHidden = false) :
    (worldAfter trace m).files p.path = (worldAfter trace n).files p.path
      ∨ (worldAfter trace m).files p.path = none := by
  obtain ⟨first, hfirst, hlists⟩ := exists_lists_of_mem hp
  have hsplit : trace.take m = trace.take n ++ (trace.drop n).take (m - n) := by
    rw [← List.take_add, Nat.add_sub_cancel' hnm]
  have hafter : ∀ write ∈ (trace.drop n).take (m - n), p.path ∉ write.publishes := by
    intro write hwrite
    rw [← List.take_append_drop n trace] at hapart
    exact (List.pairwise_append.mp hapart).2.2 first hfirst write (List.mem_of_mem_take hwrite)
      p.path hlists
  have hcovert' : ∀ write ∈ (trace.drop n).take (m - n), write.Covert :=
    fun write hwrite => hcovert write (List.mem_of_mem_drop (List.mem_of_mem_take hwrite))
  rw [worldAfter, hsplit, commitAll_append]
  -- by induction on the writes from the lookup to the read
  have hkept : ∀ (ws : List HistoryWrite) (v : HistoryWorld),
      (∀ write ∈ ws, p.path ∉ write.publishes) → (∀ write ∈ ws, write.Covert) →
      (v.files p.path = (worldAfter trace n).files p.path ∨ v.files p.path = none) →
      (commitAll v ws).files p.path = (worldAfter trace n).files p.path
        ∨ (commitAll v ws).files p.path = none := by
    intro ws
    induction ws with
    | nil => exact fun v _ _ hv => hv
    | cons write rest ih =>
      intro v hpublishes hcoverts hv
      rw [commitAll_cons]
      refine ih _ (fun b hb => hpublishes b (List.mem_cons_of_mem _ hb))
        (fun b hb => hcoverts b (List.mem_cons_of_mem _ hb)) ?_
      rcases files_commit (w := v) hvisible (hcoverts write List.mem_cons_self)
        (hpublishes write List.mem_cons_self) with heq | hnone
      · rw [heq]
        exact hv
      · exact Or.inr hnone
  exact hkept _ _ hafter hcovert' (Or.inl rfl)

variable (layout window) in
/-- The rows a range collects from a sound root without some of its files. -/
theorem HistoryWorld.Sound.collected_without (h : w.Sound R) (gone : FilePath → Bool) :
    layout.collected R window w.manifest.partitions (visibleRows (w.without gone).files)
      = w.manifest.partitions.flatMap (fun p => if gone p.path then []
        else (w.rowsAt p).filter (fun row => layout.shows R window (p.group, row))) := by
  have hread : ((w.manifest.partitions.filter (layout.selects R window)).flatMap
        (visibleRows (w.without gone).files)).filter (layout.admits R window)
      = w.manifest.partitions.flatMap (fun p => if gone p.path then []
        else (w.rowsAt p).filter (fun row => layout.shows R window (p.group, row))) := by
    rw [List.filter_flatMap, flatMap_filter]
    refine List.flatMap_congr (fun p hp => ?_)
    obtain ⟨hfile, hdescribes⟩ := h.describes hp
    have hrows : visibleRows (w.without gone).files p = if gone p.path then [] else w.rowsAt p := by
      rw [visibleRows, hdescribes.visible]
      show ((if gone p.path then none else w.files p.path).getD []) = _
      split
      · rfl
      · rfl
    rw [hrows]
    by_cases hgone : gone p.path = true
    · rw [if_pos hgone, if_pos hgone, List.filter_nil, ite_self]
    · rw [if_neg hgone, if_neg hgone]
      by_cases hselects : layout.selects R window p = true
      · rw [if_pos hselects]
        refine List.filter_congr (fun row hrow => ?_)
        rw [Bool.eq_iff_iff, hdescribes.shows_iff hrow]
        exact ⟨fun hadmits => ⟨hselects, hadmits⟩, fun hboth => hboth.2⟩
      · rw [if_neg hselects]
        refine (List.filter_eq_nil_iff.mpr (fun row hrow hshows => hselects ?_)).symm
        exact ((hdescribes.shows_iff hrow).mp hshows).1
  rw [Layout.collected, hread]
  refine Dict.values_collect_of_nodup (h.lineageNodup.sublist ?_)
  -- by induction on the partitions
  rw [HistoryWorld.groupedRows, HistoryWorld.perRow]
  induction w.manifest.partitions with
  | nil => exact List.Sublist.refl _
  | cons p rest ih =>
    rw [List.flatMap_cons, List.flatMap_cons, List.map_append, List.map_append]
    refine List.Sublist.append ?_ ih
    rw [List.map_map]
    split
    · exact List.nil_sublist _
    · exact List.filter_sublist.map _

/-- A range is complete without some files exactly if none of them has a row it shows. -/
theorem HistoryWorld.Sound.range_without_iff (h : w.Sound R) (gone : FilePath → Bool) :
    layout.range R window (w.without gone) = layout.range R window w
      ↔ ∀ p ∈ w.manifest.partitions,
        (∃ row ∈ w.rowsAt p, layout.shows R window (p.group, row) = true) → gone p.path = false := by
  have hall := h.collected_without layout window (fun _ => false)
  have hnone : w.without (fun _ => false) = w := rfl
  rw [hnone] at hall
  simp only [Bool.false_eq_true, if_false] at hall
  constructor
  · -- a missing row makes the result shorter
    intro heq p hp hshown
    rw [← Bool.not_eq_true]
    intro hgone
    have hlength := congrArg List.length heq
    simp only [Layout.range, Layout.rangeRows, List.length_map, List.length_insertionSort] at hlength
    have hkept := h.collected_without layout window gone
    rw [show (w.without gone).manifest = w.manifest from rfl, hkept, hall, List.length_flatMap,
      List.length_flatMap] at hlength
    have hle : ∀ q ∈ w.manifest.partitions,
        (if gone q.path then [] else (w.rowsAt q).filter
          (fun row => layout.shows R window (q.group, row))).length
        ≤ ((w.rowsAt q).filter (fun row => layout.shows R window (q.group, row))).length := by
      intro q _
      split
      · exact Nat.zero_le _
      · exact le_refl _
    have hlt : (if gone p.path then [] else (w.rowsAt p).filter
          (fun row => layout.shows R window (p.group, row))).length
        < ((w.rowsAt p).filter (fun row => layout.shows R window (p.group, row))).length := by
      obtain ⟨row, hrow, hshows⟩ := hshown
      rw [if_pos hgone]
      exact List.length_pos_of_mem (List.mem_filter.mpr ⟨hrow, hshows⟩)
    exact absurd hlength (ne_of_lt (List.sum_lt_sum _ _ hle ⟨p, hp, hlt⟩))
  · intro hkept
    rw [Layout.range, Layout.range, Layout.rangeRows, Layout.rangeRows,
      show (w.without gone).manifest = w.manifest from rfl,
      h.collected_without layout window gone, hall]
    congr 2
    refine List.flatMap_congr (fun p hp => ?_)
    by_cases hgone : gone p.path = true
    · rw [if_pos hgone, eq_comm, List.filter_eq_nil_iff]
      intro row hrow hshows
      rw [hkept p hp ⟨row, hrow, hshows⟩] at hgone
      cases hgone
    · rw [if_neg hgone]

/-- The calls of a run lead to the same root with and without acknowledgements. -/
theorem state_run_ackStep (s : AckState) (actions : List HistoryAction) :
    (run (ackStep R) s actions).state = run (historyStep R) s.state actions := by
  induction actions generalizing s with
  | nil => rfl
  | cons action rest ih => exact ih _

/-- A root is sound after any number of the writes of a run. -/
theorem sound_worldAfter (R : HistoryRuntime) (actions : List HistoryAction) (n : ℕ) :
    (worldAfter (historyTrace R .initial actions) n).Sound R := by
  obtain ⟨actions', hactions'⟩ := exists_historyTrace_take (R := R) .initial actions n
  obtain ⟨rows, hholds, -⟩ := AckState.holds_run R actions'
  rw [worldAfter, ← hactions']
  show (commitAll HistoryState.initial.world _).Sound R
  rw [commitAll_historyTrace, ← state_run_ackStep ⟨.initial, []⟩]
  exact hholds.sound

variable (R) in
/-- What is read of a partition of the lookup, unless its file has vanished: what its file held at
    the lookup, or nothing if the file was missed. -/
theorem RangeRead.rows_eq (actions : List HistoryAction) (read : RangeRead) {p : Partition}
    (hp : p ∈ (worldAfter (historyTrace R .initial actions) read.lookup).manifest.partitions)
    (hkept : read.vanished (historyTrace R .initial actions) p.path = false) :
    read.rows (historyTrace R .initial actions) p
      = visibleRows ((worldAfter (historyTrace R .initial actions) read.lookup).without
          (read.missed (historyTrace R .initial actions))).files p := by
  obtain ⟨hapart, hwrites⟩ := historyTrace_apart (R := R) .initial actions
  have hsound := sound_worldAfter R actions read.lookup
  have hvisible := (hsound.describes hp).2.visible
  rw [RangeRead.rows, visibleRows, visibleRows, hvisible]
  show _ = (if read.missed _ p.path then none else (worldAfter _ _).files p.path).getD []
  by_cases hmissed : read.missed (historyTrace R .initial actions) p.path = true
  · rw [if_pos hmissed, if_pos hmissed]
    rfl
  · rw [if_neg hmissed, if_neg hmissed]
    show ((worldAfter _ _).files p.path).getD [] = _
    rcases files_worldAfter hapart (fun write hwrite => (hwrites write hwrite).1)
      ((read.lookup_le p.path).trans (read.askAt_le p.path)) hp hvisible with heq | hnone
    · rw [heq]
    · -- the file was there when the range asked for it, and it did not vanish
      rw [RangeRead.vanished, hnone] at hkept
      simp [hmissed] at hkept

/-- **Reads between the writes of others.** A range looks the manifest up at one moment of a run,
    asks for each file at a later one and opens it at a later one still.  It raises exactly if a
    file that the window selects goes between its question and its opening.  Otherwise it returns
    what it would have returned on the root of the lookup without the files that were gone when it
    asked for them, and is complete exactly if no such file has a row of the window.  No file is
    gone while its partition is listed. -/
theorem rangeDuring_of_run (R : HistoryRuntime) (actions : List HistoryAction) (read : RangeRead)
    (layout : Layout) (window : HistoryWindow) :
    let trace := historyTrace R .initial actions
    let before := worldAfter trace read.lookup
    ((∃ path, layout.rangeDuring R window trace read = .error path)
      ↔ ∃ p ∈ before.manifest.partitions, layout.selects R window p = true
        ∧ read.vanished trace p.path = true)
    ∧ (∀ quotes, layout.rangeDuring R window trace read = .ok quotes →
        quotes = layout.range R window (before.without (read.missed trace))
        ∧ (quotes = layout.range R window before
          ↔ ∀ p ∈ before.manifest.partitions,
            (∃ row ∈ before.rowsAt p, layout.shows R window (p.group, row) = true) →
            read.missed trace p.path = false))
    ∧ ∀ path, ((worldAfter trace (read.askAt path)).listed path → read.missed trace path = false)
      ∧ ((worldAfter trace (read.openAt path)).listed path →
        read.vanished trace path = false) := by
  intro trace before
  have hsound : before.Sound R := sound_worldAfter R actions read.lookup
  -- a listed file is on disk, whatever the moment
  have hthere : ∀ (n : ℕ) (path : FilePath), (worldAfter trace n).listed path →
      ((worldAfter trace n).files path).isNone = false := by
    rintro n path ⟨p, hp, rfl⟩
    rw [((sound_worldAfter R actions n).describes hp).1]
    rfl
  refine ⟨?_, fun quotes hquotes => ?_, fun path => ⟨hthere _ _, fun hlisted => ?_⟩⟩
  -- the range raises exactly if the search for a vanished file finds one
  · rw [Layout.rangeDuring]
    constructor
    · rintro ⟨path, herror⟩
      split at herror
      · next p hfind =>
        have hmem := List.mem_filter.mp (List.mem_of_find?_eq_some hfind)
        have hboth := List.find?_some hfind
        rw [Bool.and_eq_true] at hboth
        exact ⟨p, hmem.1, hmem.2, hboth.2⟩
      · cases herror
    · rintro ⟨p, hp, hselects, hvanished⟩
      split
      · next q hfind => exact ⟨q.path, rfl⟩
      · next hnone =>
        have hkept := List.find?_eq_none.mp hnone p (List.mem_filter.mpr ⟨hp, hselects⟩)
        rw [(hsound.describes hp).2.visible, hvanished] at hkept
        exact absurd rfl hkept
  · have heq : quotes = layout.range R window (before.without (read.missed trace)) := by
      rw [Layout.rangeDuring] at hquotes
      split at hquotes
      · cases hquotes
      · next hnone =>
        rw [← Except.ok.inj hquotes, Layout.range, Layout.rangeRows, Layout.rangeRows,
          Layout.collected, Layout.collected]
        congr 5
        refine List.flatMap_congr (fun p hp => ?_)
        have hkept := List.find?_eq_none.mp hnone p hp
        have hp := List.mem_of_mem_filter hp
        rw [(hsound.describes hp).2.visible, Bool.not_false, Bool.true_and,
          Bool.not_eq_true] at hkept
        exact read.rows_eq R actions hp hkept
    refine ⟨heq, ?_⟩
    rw [heq]
    exact hsound.range_without_iff _
  · rw [RangeRead.vanished, hthere _ _ hlisted, Bool.and_false]

end During

/-! ### A range during a compaction -/

/-- A range that waits after the lookup before it asks for the files, and again before it opens
    them. -/
def RangeRead.steady (lookup wait again : ℕ) : RangeRead where
  lookup := lookup
  askAt _ := lookup + wait
  openAt _ := lookup + wait + again
  lookup_le _ := Nat.le_add_right lookup wait
  askAt_le _ := Nat.le_add_right (lookup + wait) again

/-- Two quotes of bitcoin are appended, in three writes each, and their group is compacted: its
    files are replaced by the tenth write and removed by the next ones. -/
def compactedRun : List HistoryAction :=
  [⟨.append .fine [⟨some 1, "first", bitcoinQuote 0⟩], Faults.none, none⟩,
    ⟨.append .fine [⟨some 2, "second", bitcoinQuote 1⟩], Faults.none, none⟩,
    ⟨.compact ⟨"kraken", "BTC", 0⟩, Faults.none, none⟩]

/-- All quotes of the first second. -/
def firstSecond : HistoryWindow := ⟨0, 1000000, [], []⟩

/-- Before the compaction the two files are looked up.  A range that asks for them at once and
    opens them after the compaction raises; one that asks for them after the compaction finds none
    of their quotes; and one that looked the compacted file up finds both. -/
theorem rangeDuring_compactedRun :
    let trace := historyTrace .sample .initial compactedRun
    let during := Layout.fine.rangeDuring .sample firstSecond trace
    (∃ path, during (.steady 6 0 7) = .error path)
    ∧ (∃ quotes, during (.steady 6 7 0) = .ok quotes
      ∧ quotes ≠ Layout.fine.range .sample firstSecond (worldAfter trace 6))
    ∧ ∃ quotes, during (.steady 10 2 1) = .ok quotes
      ∧ quotes = Layout.fine.range .sample firstSecond (worldAfter trace 10)
      ∧ quotes.length = 2 := by
  intro trace during
  have hrun := fun read => rangeDuring_of_run .sample compactedRun read .fine firstSecond
  have hok : ∀ read n, ((during read).map List.length = .ok n) →
      ∃ quotes, during read = .ok quotes ∧ quotes.length = n := by
    intro read n hlength
    cases hread : during read with
    | error path =>
      rw [hread] at hlength
      cases hlength
    | ok quotes =>
      rw [hread] at hlength
      exact ⟨quotes, rfl, Except.ok.inj hlength⟩
  refine ⟨(hrun (.steady 6 0 7)).1.mpr (by decide +kernel), ?_, ?_⟩
  · obtain ⟨quotes, hquotes, -⟩ := hok (.steady 6 7 0) 0 (by decide +kernel)
    refine ⟨quotes, hquotes, fun hcomplete => ?_⟩
    have hkept := (((hrun (.steady 6 7 0)).2.1 quotes hquotes).2.mp hcomplete)
    exact absurd hkept (by decide +kernel)
  · obtain ⟨quotes, hquotes, hlength⟩ := hok (.steady 10 2 1) 2 (by decide +kernel)
    refine ⟨quotes, hquotes, ?_, hlength⟩
    exact ((hrun (.steady 10 2 1)).2.1 quotes hquotes).2.mpr (by decide +kernel)

end InefficiencyEngine.History
