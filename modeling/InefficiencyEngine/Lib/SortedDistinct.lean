import Mathlib.Data.List.Dedup
import Mathlib.Data.List.Sort

namespace InefficiencyEngine

/-!
# The distinct values of a list, in order

`sorted(set(values))` lists a set in a way that depends on the set alone.
-/

variable {α : Type} [LinearOrder α] {values others : List α}

/-- `sorted(set(values))`. -/
def sortedDistinct (values : List α) : List α := values.dedup.insertionSort (· ≤ ·)

@[simp] theorem mem_sortedDistinct {value : α} : value ∈ sortedDistinct values ↔ value ∈ values := by
  rw [sortedDistinct, List.mem_insertionSort, List.mem_dedup]

theorem nodup_sortedDistinct : (sortedDistinct values).Nodup :=
  (List.perm_insertionSort _ _).nodup_iff.mpr (List.nodup_dedup values)

theorem pairwise_sortedDistinct : (sortedDistinct values).Pairwise (· ≤ ·) :=
  List.pairwise_insertionSort _ _

/-- There are two values if two of them differ. -/
theorem two_le_length_sortedDistinct :
    2 ≤ (sortedDistinct values).length ↔ ∃ a ∈ values, ∃ b ∈ values, a ≠ b := by
  have hmem : ∀ value, value ∈ sortedDistinct values ↔ value ∈ values :=
    fun _ => mem_sortedDistinct
  have hnodup : (sortedDistinct values).Nodup := nodup_sortedDistinct
  constructor
  · intro hlength
    match hlist : sortedDistinct values, hlength with
    | a :: b :: rest, _ =>
      rw [hlist] at hmem hnodup
      refine ⟨a, (hmem a).mp (by simp), b, (hmem b).mp (by simp), ?_⟩
      rintro rfl
      exact (List.nodup_cons.mp hnodup).1 (by simp)
  · rintro ⟨a, ha, b, hb, hab⟩
    have hpair : [a, b].Nodup := by simpa using hab
    refine (List.subperm_of_subset hpair (fun value hvalue => ?_)).length_le
    rcases List.mem_pair.mp hvalue with rfl | rfl
    · exact (hmem _).mpr ha
    · exact (hmem _).mpr hb

/-- **Canonical form.** Two lists with the same members list them the same way. -/
theorem sortedDistinct_congr (h : ∀ value, value ∈ values ↔ value ∈ others) :
    sortedDistinct values = sortedDistinct others := by
  have hperm : (sortedDistinct values).Perm (sortedDistinct others) := by
    rw [List.perm_ext_iff_of_nodup nodup_sortedDistinct nodup_sortedDistinct]
    intro value
    rw [mem_sortedDistinct, mem_sortedDistinct]
    exact h value
  exact hperm.eq_of_pairwise (fun _ _ _ _ => le_antisymm) pairwise_sortedDistinct
    pairwise_sortedDistinct

end InefficiencyEngine
