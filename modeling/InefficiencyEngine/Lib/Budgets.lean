import Mathlib.Algebra.BigOperators.Group.List.Basic
import Mathlib.Algebra.Order.BigOperators.Group.List
import Mathlib.Algebra.Order.Group.Defs

namespace InefficiencyEngine

/-!
# Loads of a selection under budgets

A selection of items loads each of several budgets by the sum of the items' weights.  A
greedy selection refuses an item because of what is selected so far; since a selection only
grows and weights are not negative, loads only grow, and an item refused once stays refused
(`load_le_append`).
-/

variable {ι M : Type} [AddCommMonoid M]

/-- The load of a list of items on the budget their weights count against. -/
def load (weight : ι → M) (items : List ι) : M := (items.map weight).sum

theorem load_append (weight : ι → M) (items more : List ι) :
    load weight (items ++ more) = load weight items + load weight more := by
  rw [load, List.map_append, List.sum_append]
  rfl

/-- One more item loads a budget by its weight. -/
@[simp] theorem load_snoc (weight : ι → M) (items : List ι) (item : ι) :
    load weight (items ++ [item]) = load weight items + weight item := by
  rw [load_append]
  simp [load]

variable [PartialOrder M] [IsOrderedAddMonoid M] {weight : ι → M}

theorem load_nonneg (hweight : ∀ item, 0 ≤ weight item) (items : List ι) :
    0 ≤ load weight items := by
  refine List.sum_nonneg ?_
  intro x hx
  obtain ⟨item, -, rfl⟩ := List.mem_map.mp hx
  exact hweight item

/-- More items load a budget at least as much. -/
theorem load_le_append (hweight : ∀ item, 0 ≤ weight item) (items more : List ι) :
    load weight items ≤ load weight (items ++ more) := by
  rw [load_append]
  exact le_add_of_nonneg_right (load_nonneg hweight more)

end InefficiencyEngine
