import InefficiencyEngine.History.Append
import InefficiencyEngine.Lib.Machine

namespace InefficiencyEngine.History

open Portfolio Durable Prog

/-!
# Sequences of calls on one root

A call appends a batch through one of the classes, compacts a group or reaps garbage.  It may
raise at any step and may stop after any of its writes; the next call then finds what it left.
Whatever happens, the root stays sound, and it holds rows of the appended batches only.
-/

/-- A call on a root. -/
inductive HistoryCall
  | append (layout : Layout) (records : List HistoryRecord)
  | compact (key : GroupKey)
  | reap

/-- A call returns how many rows it wrote, groups it compacted or files it reaped. -/
def HistoryCall.prog (R : HistoryRuntime) (op : Operation) : HistoryCall → HistoryProg ℕ
  | .append layout records => appendRecords R op layout records
  | .compact key => do
    let compacted ← compactPartitionGroup R op key 0
    pure (if compacted then 1 else 0)
  | .reap => reapCompactionGarbage op 0

/-- The batch of a call that is not refused. -/
def HistoryCall.batch : HistoryCall → List HistoryRecord
  | .append _ records => if records.any (fun record => record.lineage = "") then [] else records
  | _ => []

/-- A batch with an empty lineage is refused. -/
def HistoryCall.Refused : HistoryCall → Prop
  | .append _ records => ∃ record ∈ records, record.lineage = ""
  | _ => False

/-- A row that a call may add. -/
def HistoryCall.Adds (R : HistoryRuntime) (call : HistoryCall) (item : GroupKey × HistoryRow) :
    Prop :=
  match call with
  | .append layout _ => FromRecords R layout call.batch item
  | _ => False

/-- A call, what goes wrong in it, and after how many writes it stops, if it does. -/
structure HistoryAction where
  call : HistoryCall
  faults : Faults
  stop : Option ℕ

/-- A root, and the number of calls made on it. -/
structure HistoryState where
  started : ℕ
  world : HistoryWorld

/-- An empty root. -/
def HistoryState.initial : HistoryState := ⟨0, .empty⟩

section Step

variable (R : HistoryRuntime)

/-- What a call leaves, wherever it stops. -/
def historyStep (state : HistoryState) (action : HistoryAction) : HistoryState where
  started := state.started + 1
  world := (action.call.prog R ⟨state.started, action.faults⟩).leaves state.world action.stop

/-- What a call leaves in which nothing goes wrong. -/
def callStep (state : HistoryState) (call : HistoryCall) : HistoryState where
  started := state.started + 1
  world := (call.prog R ⟨state.started, Faults.none⟩).final state.world

end Step

section Spec

variable {R : HistoryRuntime} {op : Operation} {rows : List (GroupKey × HistoryRow)}

theorem HistoryCall.batch_append (layout : Layout) (records : List HistoryRecord) :
    (HistoryCall.append layout records).batch
      = if records.any (fun record => record.lineage = "") then [] else records := rfl

variable (R op) in
/-- A refused call has no batch and makes no write. -/
theorem HistoryCall.Refused.silent {call : HistoryCall} (h : call.Refused) (w : HistoryWorld) :
    call.batch = [] ∧ (call.prog R op w).1 = [] ∧ ∃ e, (call.prog R op w).2 = .error e := by
  cases call with
  | append layout records =>
    obtain ⟨record, hrecord, hempty⟩ := h
    have hany : records.any (fun record => record.lineage = "") = true :=
      List.any_eq_true.mpr ⟨record, hrecord, decide_eq_true hempty⟩
    rw [HistoryCall.batch_append, if_pos hany, HistoryCall.prog,
      appendRecords_refused hrecord hempty]
    exact ⟨rfl, rfl, _, rfl⟩
  | compact key => cases h
  | reap => cases h

variable (R op rows) in
/-- **Calls.** Every write of a call is safe; a call that returns has stored its batch, and what
    it added are rows of its batch.  A call raises only if a step does or its batch is refused.
    The three kinds of calls differ in what they add: an append the new rows of its batch, a
    compaction and a reaping none. -/
theorem exits_call (call : HistoryCall) :
    Exits (fun w => w.Holds R op.run 0 rows) (call.prog R op)
      (SafeStep R op.run (call.Adds R))
      (fun _ w => w.HasStored call.batch ∧ ∃ next added, w.Holds R op.run next (rows ++ added)
        ∧ ∀ item ∈ added, call.Adds R item)
      (fun _ _ => op.Faulty ∨ call.Refused) := by
  have hquiet : ∀ {w : HistoryWorld} {next : ℕ}, w.Holds R op.run next rows →
      ∃ next added, w.Holds R op.run next (rows ++ added) ∧ ∀ item ∈ added, call.Adds R item := by
    intro w next hw
    exact ⟨next, [], by rwa [List.append_nil], fun item hitem => by cases hitem⟩
  cases call with
  | append layout records =>
    -- a batch with an empty lineage is refused before anything is written
    by_cases hrefused : (HistoryCall.append layout records).Refused
    · refine ⟨spec_silent (fun w _ => (hrefused.silent R op w).2.1) (fun w a _ ha => ?_),
        fun _ _ _ _ => Or.inr hrefused⟩
      obtain ⟨e, he⟩ := (hrefused.silent R op w).2.2
      rw [he] at ha
      cases ha
    · have hlineage : ∀ record ∈ records, record.lineage ≠ "" :=
        fun record hrecord hempty => hrefused ⟨record, hrecord, hempty⟩
      have hbatch : (HistoryCall.append layout records).batch = records := by
        rw [HistoryCall.batch_append, if_neg (by simpa using hlineage)]
      have hadds : (HistoryCall.append layout records).Adds R = FromRecords R layout records := by
        funext item
        show FromRecords R layout (HistoryCall.append layout records).batch item = _
        rw [hbatch]
      rw [hadds, hbatch]
      refine (exits_appendRecords hlineage).weaken (fun _ hw => hw) (fun _ _ hG => hG)
        (fun written w hw => ⟨hw.1, ?_⟩) (fun _ _ hfaulty => Or.inl hfaulty)
      obtain ⟨next, added, hadded⟩ := hw.2
      exact ⟨next, added, hadded.holds, hadded.fromRecords⟩
  -- a compaction stores no batch and adds no row
  | compact key =>
    refine exits_bind ((exits_compactPartitionGroup key).weaken (fun _ hw => hw) (fun _ _ hG => hG)
      (fun _ _ hQ => hQ) (fun _ _ hfaulty => Or.inl hfaulty)) (fun compacted => ?_)
    exact (exits_pure _).pre (fun w hw => ⟨fun record hrecord => (by cases hrecord), hquiet hw.1⟩)
  -- a reaping touches hidden files only
  | reap =>
    refine exits_of_forall (fun w hw => ?_)
    have hreap : Exits w.Frozen (reapCompactionGarbage op 0) (SafeStep R op.run fun _ => False)
        (fun _ => w.Frozen) (fun _ _ => op.Faulty) := exits_reapCompactionGarbage
    exact hreap.weaken (fun s hs => hs ▸ HistoryWorld.Frozen.refl w) (fun _ _ hG => hG)
      (fun _ s hs => ⟨fun record hrecord => (by cases hrecord), hquiet (hw.frozen hs)⟩)
      (fun _ _ hfaulty => Or.inl hfaulty)

/-- A root that holds rows so far may be used by the next call. -/
theorem HistoryWorld.Named.next {w : HistoryWorld} {run i : ℕ} (h : w.Named R run i) :
    w.Named R (run + 1) 0 := by
  intro p hp
  obtain ⟨r, j, heq, hlt⟩ := h p hp
  exact ⟨r, j, heq, by omega⟩

theorem HistoryWorld.Holds.next {w : HistoryWorld} {run i : ℕ} (h : w.Holds R run i rows) :
    w.Holds R (run + 1) 0 rows := ⟨h.sound, h.named.next, h.rows⟩

/-- The paths a safe write lists are those listed before and one of its operation. -/
theorem HistoryWorld.Safe.named {w : HistoryWorld} {run : ℕ} {write : HistoryWrite}
    {added : List (GroupKey × HistoryRow)} (h : w.Safe R run write added)
    (hnamed : w.Named R (run + 1) 0) : (commit w write : HistoryWorld).Named R (run + 1) 0 := by
  have hnew : ∀ path : FilePath, (∃ i, path.name.uuid = R.uuid4 run i) →
      ∃ r j, path.name.uuid = R.uuid4 r j ∧ (r < run + 1 ∨ (r = run + 1 ∧ j < 0)) :=
    fun path ⟨i, hi⟩ => ⟨run, i, hi, Or.inl (Nat.lt_succ_self run)⟩
  cases h with
  | put | rename | unlink | clearGarbage => exact hnamed
  | insertPartition p rows hname =>
    intro q hq
    rcases List.mem_append.mp hq with hq | hq
    · exact hnamed q hq
    · rw [List.mem_singleton.mp hq]
      exact hnew p.path hname
  | switchPartitions p old rows hname =>
    intro q hq
    have hq : q ∈ w.manifest.partitions ++ [p] := List.mem_of_mem_filter hq
    rcases List.mem_append.mp hq with hq | hq
    · exact hnamed q hq
    · rw [List.mem_singleton.mp hq]
      exact hnew p.path hname

/-- A safe write adds its rows to what a root holds. -/
theorem HistoryWorld.Holds.safe {w : HistoryWorld} {run : ℕ} {write : HistoryWrite}
    {added : List (GroupKey × HistoryRow)} (h : w.Holds R (run + 1) 0 rows)
    (hsafe : w.Safe R run write added) :
    (commit w write : HistoryWorld).Holds R (run + 1) 0 (rows ++ added) := by
  obtain ⟨hsound, hrows⟩ := hsafe.sound h.sound
  exact ⟨hsound, hsafe.named h.named, hrows.trans (h.rows.append_right added)⟩

/-- **Crash safety.** Wherever a program of safe writes stops, the root is sound, holds what it
    held and some of the rows the program may add, and may be used by the next call. -/
theorem HistoryWorld.Holds.crash {α : Type} {w : HistoryWorld} {run : ℕ} {m : HistoryProg α}
    {A : GroupKey × HistoryRow → Prop} {Q : α → HistoryWorld → Prop}
    (h : w.Holds R run 0 rows)
    (hm : Spec (fun w => w.Holds R run 0 rows) m (SafeStep R run A) Q) (n : ℕ) :
    ∃ added, (commitAll w ((m w).1.take n)).Holds R (run + 1) 0 (rows ++ added)
      ∧ ∀ item ∈ added, A item := by
  refine (hm.guarantee w h).invariant
    (I := fun s => ∃ added, s.Holds R (run + 1) 0 (rows ++ added) ∧ ∀ item ∈ added, A item)
    ?_ ⟨[], ?_, fun item hitem => (by cases hitem)⟩ n
  · rintro s block ⟨added, hs, hadded⟩ ⟨write, more, rfl, hsafe, hmore⟩ n
    cases n with
    | zero => exact ⟨added, hs, hadded⟩
    | succ n =>
      have htake : [write].take (n + 1) = [write] := by simp
      rw [htake]
      refine ⟨added ++ more, ?_, fun item hitem => ?_⟩
      · rw [← List.append_assoc]
        exact hs.safe hsafe
      · exact (List.mem_append.mp hitem).elim (hadded item) (hmore item)
  · rw [List.append_nil]
    exact h.next

/-- A call in which nothing goes wrong returns, unless its batch is refused. -/
theorem HistoryWorld.Holds.call {w : HistoryWorld} {run : ℕ} (h : w.Holds R run 0 rows)
    (call : HistoryCall) :
    ∃ added, ((call.prog R ⟨run, Faults.none⟩).final w).Holds R (run + 1) 0 (rows ++ added)
      ∧ (∀ item ∈ added, call.Adds R item)
      ∧ ((call.prog R ⟨run, Faults.none⟩).final w).HasStored call.batch := by
  have hexits := exits_call R ⟨run, Faults.none⟩ rows call
  cases hres : (call.prog R ⟨run, Faults.none⟩ w).2 with
  | ok n =>
    obtain ⟨hstored, next, added, hholds, hadded⟩ := hexits.post w n h hres
    exact ⟨added, hholds.next, hadded, hstored⟩
  | error e =>
    have hrefused : call.Refused := by
      rcases hexits.raised w e h hres with ⟨i, point, hraises⟩ | hrefused
      · cases hraises
      · exact hrefused
    obtain ⟨hbatch, hwrites, -⟩ := hrefused.silent R ⟨run, Faults.none⟩ w
    refine ⟨[], ?_, fun item hitem => (by cases hitem), ?_⟩
    · rw [Prog.final, hwrites, List.append_nil]
      exact h.next
    · rw [hbatch]
      exact fun record hrecord => by cases hrecord

end Spec

end InefficiencyEngine.History
