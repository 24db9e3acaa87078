import InefficiencyEngine.Lib.Newest
import Mathlib.Algebra.BigOperators.Group.List.Basic
import Mathlib.Algebra.Order.Monoid.OrderDual
import Mathlib.Data.List.Perm.Subperm

namespace InefficiencyEngine

/-!
# Sums over the first rows

A program that reads the first `n` rows of a table and adds up their weights gets a sum that depends
on the order of the table.  Over all orders it is least when the lightest rows come first
(`leastSum_le`) and greatest when the heaviest do (`le_mostSum`); so whether it reaches a threshold
is the same for all orders exactly if these two agree on it (`reaches_iff`).
-/

variable {α M : Type} [AddCommMonoid M] [LinearOrder M] [IsOrderedAddMonoid M]

/-- The sum of the weights of the `n` lightest rows. -/
def leastSum (n : ℕ) (weight : α → M) (rows : List α) : M :=
  (((sortOn weight rows).take n).map weight).sum

/-- The sum of the weights of the `n` heaviest rows. -/
def mostSum (n : ℕ) (weight : α → M) (rows : List α) : M :=
  (((sortDescending weight rows).take n).map weight).sum

variable {n : ℕ} {weight : α → M} {rows others : List α}

/-- Of rows in order of their weights, none are lighter than the first ones. -/
theorem sum_take_le_of_sublist {chosen : List α} (h : chosen.Sublist rows)
    (hrows : rows.Pairwise (fun a b => weight a ≤ weight b)) :
    ((rows.take chosen.length).map weight).sum ≤ (chosen.map weight).sum := by
  induction h with
  | slnil => simp
  | @cons chosen rest a h ih =>
    obtain ⟨ha, hrest⟩ := List.pairwise_cons.mp hrows
    cases chosen with
    | nil => simp
    | cons b chosen =>
      -- the first row is no heavier than the one it takes the place of
      have hlength : chosen.length < rest.length := h.length_le
      have hlast : ((rest.take (chosen.length + 1)).map weight).sum
          = ((rest.take chosen.length).map weight).sum + weight rest[chosen.length] := by
        rw [List.take_succ_eq_append_getElem hlength, List.map_append, List.sum_append]
        simp
      calc (((a :: rest).take (chosen.length + 1)).map weight).sum
          = weight a + ((rest.take chosen.length).map weight).sum := by simp
        _ ≤ weight rest[chosen.length] + ((rest.take chosen.length).map weight).sum :=
            add_le_add_left (ha _ (List.getElem_mem hlength)) _
        _ = ((rest.take (chosen.length + 1)).map weight).sum := by rw [hlast, add_comm]
        _ ≤ (((b :: chosen)).map weight).sum := ih hrest
  | @cons_cons chosen rest a h ih =>
    obtain ⟨-, hrest⟩ := List.pairwise_cons.mp hrows
    simpa using add_le_add_right (ih hrest) (weight a)

/-- The first rows of any order weigh at least as much as the lightest ones. -/
theorem leastSum_le (h : others.Perm rows) :
    leastSum n weight rows ≤ ((others.take n).map weight).sum := by
  have hsubperm : (others.take n).Subperm (sortOn weight rows) :=
    ((List.take_sublist n others).subperm).trans (h.trans (perm_sortOn rows).symm).subperm
  obtain ⟨chosen, hchosen, hsub⟩ := hsubperm
  have htake : (sortOn weight rows).take chosen.length = (sortOn weight rows).take n := by
    have hlength : chosen.length = min n (sortOn weight rows).length := by
      rw [hchosen.length_eq, List.length_take, h.length_eq, (perm_sortOn rows).length_eq]
    rw [hlength, ← List.take_eq_take_min]
  rw [leastSum, ← htake, ← (hchosen.map weight).sum_eq]
  exact sum_take_le_of_sublist hsub (pairwise_sortOn rows)

/-- The first rows of any order weigh at most as much as the heaviest ones. -/
theorem le_mostSum (h : others.Perm rows) :
    ((others.take n).map weight).sum ≤ mostSum n weight rows :=
  @leastSum_le α Mᵒᵈ _ _ _ n (fun a => OrderDual.toDual (weight a)) rows others h

/-- **The order of the table decides nothing** about a threshold exactly if the lightest rows reach
    it when the heaviest do. -/
theorem reaches_iff {threshold : M} :
    (∀ others : List α, others.Perm rows →
        (threshold ≤ ((others.take n).map weight).sum
          ↔ threshold ≤ ((rows.take n).map weight).sum))
      ↔ (threshold ≤ mostSum n weight rows → threshold ≤ leastSum n weight rows) := by
  constructor
  · intro h hmost
    have hheavy := h (sortDescending weight rows) (perm_sortOn rows)
    have hlight := h (sortOn weight rows) (perm_sortOn rows)
    exact hlight.mpr (hheavy.mp hmost)
  · intro h others hothers
    constructor
    · intro hreach
      exact le_trans (h (le_trans hreach (le_mostSum hothers))) (leastSum_le (List.Perm.refl rows))
    · intro hreach
      exact le_trans (h (le_trans hreach (le_mostSum (List.Perm.refl rows)))) (leastSum_le hothers)

omit [IsOrderedAddMonoid M] in
/-- Of a table that is read to its end, the lightest rows and the heaviest are all rows. -/
theorem mostSum_eq_leastSum (h : rows.length ≤ n) : mostSum n weight rows = leastSum n weight rows := by
  have hheavy : (sortDescending weight rows).Perm (sortOn weight rows) :=
    (perm_sortOn rows).trans (perm_sortOn rows).symm
  have hlength : (sortOn weight rows).length ≤ n := by
    rw [(perm_sortOn rows).length_eq]
    exact h
  rw [mostSum, leastSum, List.take_of_length_le (by rw [hheavy.length_eq]; exact hlength),
    List.take_of_length_le hlength, (hheavy.map weight).sum_eq]

omit [AddCommMonoid M] [LinearOrder M] [IsOrderedAddMonoid M] in
/-- The orders of a table give the rows of a key all their orders. -/
theorem forall_perm_filter {key : α → Bool} {holds : List α → Prop} :
    (∀ others : List α, others.Perm rows → holds (others.filter key))
      ↔ ∀ window : List α, window.Perm (rows.filter key) → holds window := by
  constructor
  · intro h window hwindow
    have hkey : window.filter key = window :=
      List.filter_eq_self.mpr (fun a ha => (List.mem_filter.mp (hwindow.mem_iff.mp ha)).2)
    have hperm : (window ++ rows.filter (fun a => !key a)).Perm rows :=
      (hwindow.append_right _).trans (List.filter_append_perm key rows)
    have hholds := h _ hperm
    rw [List.filter_append, hkey, List.filter_filter] at hholds
    simpa using hholds
  · intro h others hothers
    exact h _ (hothers.filter key)

/-- The order of a table decides nothing about the first rows of a key. -/
theorem filter_reaches_iff {key : α → Bool} {threshold : M} :
    (∀ others : List α, others.Perm rows →
        (threshold ≤ (((others.filter key).take n).map weight).sum
          ↔ threshold ≤ (((rows.filter key).take n).map weight).sum))
      ↔ (threshold ≤ mostSum n weight (rows.filter key) →
        threshold ≤ leastSum n weight (rows.filter key)) := by
  rw [← reaches_iff]
  exact @forall_perm_filter α rows key (fun window =>
    threshold ≤ ((window.take n).map weight).sum
      ↔ threshold ≤ (((rows.filter key).take n).map weight).sum)

end InefficiencyEngine
