import Mathlib.Data.List.Nodup
import Mathlib.Data.List.Sort
import Mathlib.Order.Nat

namespace InefficiencyEngine

/-!
# The newest rows

A query that orders rows by descending id and has a limit returns the rows that few enough others
are newer than (`mem_newestRows`).  A condition that the newer of two rows meets whenever the older
one does can be applied before such a query or after it: `newerCount_filter_of_upward` says that it
changes nothing for the rows that meet it.
-/

variable {α : Type} (id : α → ℕ)

/-- The rows of the highest ids, newest first. -/
def newestRows (limit : ℕ) (rows : List α) : List α :=
  (rows.insertionSort (fun a b => id b ≤ id a)).take limit

/-- How many rows are newer than a row. -/
def newerCount (rows : List α) (row : α) : ℕ := rows.countP (fun other => id row < id other)

variable {id} {limit : ℕ} {rows others : List α} {row : α}

/-- The first rows of a descending list are those that few enough others are newer than. -/
theorem mem_take_of_descending (h : rows.Pairwise (fun a b => id b < id a)) :
    row ∈ rows.take limit ↔ row ∈ rows ∧ newerCount id rows row < limit := by
  induction rows generalizing limit with
  | nil => simp
  | cons first rest ih =>
    obtain ⟨hfirst, hrest⟩ := List.pairwise_cons.mp h
    rcases limit with _ | k
    · simp
    · rw [List.take_succ_cons, List.mem_cons, List.mem_cons, ih hrest, newerCount, newerCount,
        List.countP_cons]
      by_cases heq : row = first
      · -- nothing is newer than the first row
        have hzero : rest.countP (fun other => id row < id other) = 0 := by
          rw [List.countP_eq_zero]
          intro other hother
          rw [heq, decide_eq_true_eq]
          exact not_lt.mpr (hfirst other hother).le
        have hself : ¬ decide (id row < id first) = true := by
          rw [heq, decide_eq_true_eq]
          exact lt_irrefl _
        rw [hzero, if_neg hself]
        exact ⟨fun _ => ⟨Or.inl heq, Nat.succ_pos k⟩, fun _ => Or.inl heq⟩
      · constructor
        · rintro (hrow | ⟨hmem, hcount⟩)
          · exact absurd hrow heq
          · rw [if_pos (decide_eq_true (hfirst row hmem))]
            exact ⟨Or.inr hmem, by omega⟩
        · rintro ⟨hrow | hmem, hcount⟩
          · exact absurd hrow heq
          · rw [if_pos (decide_eq_true (hfirst row hmem))] at hcount
            exact Or.inr ⟨hmem, by omega⟩

/-- Rows of different ids, sorted by descending id. -/
theorem descending_insertionSort (h : (rows.map id).Nodup) :
    (rows.insertionSort (fun a b => id b ≤ id a)).Pairwise (fun a b => id b < id a) := by
  have htotal : Std.Total (fun a b : α => id b ≤ id a) := ⟨fun a b => le_total (id b) (id a)⟩
  have htrans : IsTrans α (fun a b => id b ≤ id a) := ⟨fun _ _ _ hab hbc => hbc.trans hab⟩
  have hsorted := List.pairwise_insertionSort (fun a b : α => id b ≤ id a) rows
  have hdistinct : (rows.insertionSort (fun a b => id b ≤ id a)).Pairwise
      (fun a b => id a ≠ id b) := by
    have hperm := (List.perm_insertionSort (fun a b : α => id b ≤ id a) rows).map id
    exact List.pairwise_map.mp (hperm.nodup_iff.mpr h)
  exact hsorted.imp₂ (fun _ _ hle hne => lt_of_le_of_ne hle (Ne.symm hne)) hdistinct

/-- Counting newer rows does not depend on the order of the rows. -/
theorem newerCount_perm (h : rows.Perm others) (row : α) :
    newerCount id rows row = newerCount id others row :=
  h.countP_eq _

/-- **The newest rows** are those that few enough others are newer than. -/
theorem mem_newestRows (h : (rows.map id).Nodup) :
    row ∈ newestRows id limit rows ↔ row ∈ rows ∧ newerCount id rows row < limit := by
  rw [newestRows, mem_take_of_descending (descending_insertionSort h), List.mem_insertionSort,
    newerCount_perm (List.perm_insertionSort _ rows)]

/-- The newest rows are rows of different ids. -/
theorem nodup_newestRows (h : (rows.map id).Nodup) :
    ((newestRows id limit rows).map id).Nodup := by
  refine List.Nodup.sublist ((List.take_sublist _ _).map id) ?_
  exact ((List.perm_insertionSort _ rows).map id).nodup_iff.mpr h

/-- **Filtering first or last.** A condition that newer rows meet whenever an older one does changes
    nothing in how many rows are newer than one that meets it. -/
theorem newerCount_filter_of_upward {p : α → Bool} (hrow : p row = true)
    (hupward : ∀ other ∈ rows, id row < id other → p row = true → p other = true) :
    newerCount id (rows.filter p) row = newerCount id rows row := by
  rw [newerCount, newerCount, List.countP_filter]
  refine List.countP_congr (fun other hother => ?_)
  rw [Bool.and_eq_true]
  constructor
  · exact fun h => h.1
  · exact fun h => ⟨h, hupward other hother (of_decide_eq_true h) hrow⟩

end InefficiencyEngine
