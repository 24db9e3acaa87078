import Mathlib.Data.List.Sort
import Mathlib.Data.String.Basic

namespace InefficiencyEngine

/-!
# Sorting by a key

`sorted(rows, key=…)` is stable: rows with equal keys keep their order.  A stable sort is
determined by the rows of each key (`sortOn_congr`), it is the same for all orders of the
rows once only their keys are looked at (`map_sortOn_eq_of_perm`), and one more row changes
it at one place only (`exists_sortOn_insert`).
-/

variable {α κ : Type} [LinearOrder κ] (key : α → κ)

/-- `sorted(rows, key=key)`. -/
def sortOn (rows : List α) : List α := rows.insertionSort (fun a b => key a ≤ key b)

instance keyLe_isTrans : IsTrans α (fun a b => key a ≤ key b) := ⟨fun _ _ _ hab hbc => hab.trans hbc⟩

instance keyLe_total : Std.Total (fun a b : α => key a ≤ key b) := ⟨fun a b => le_total (key a) (key b)⟩

variable {key} {rows others : List α} {a b : α}

@[simp] theorem mem_sortOn : a ∈ sortOn key rows ↔ a ∈ rows := List.mem_insertionSort _

theorem perm_sortOn (rows : List α) : (sortOn key rows).Perm rows := List.perm_insertionSort _ rows

theorem pairwise_sortOn (rows : List α) :
    (sortOn key rows).Pairwise (fun a b => key a ≤ key b) :=
  List.pairwise_insertionSort _ rows

theorem sortOn_of_pairwise (h : rows.Pairwise (fun a b => key a ≤ key b)) :
    sortOn key rows = rows := h.insertionSort_eq

/-! ### The rows of one key -/

/-- Inserting a row puts it before the rows of its key. -/
theorem filter_orderedInsert (k : κ) (a : α) (rows : List α) :
    (rows.orderedInsert (fun a b => key a ≤ key b) a).filter (fun b => key b = k)
      = (a :: rows).filter (fun b => key b = k) := by
  induction rows with
  | nil => rfl
  | cons b rest ih =>
    by_cases hab : key a ≤ key b
    · rw [List.orderedInsert_cons, if_pos hab]
    · rw [List.orderedInsert_cons, if_neg hab, List.filter_cons, ih]
      -- `b` moves in front of `a`, and their keys differ
      have hne : key b ≠ key a := ne_of_lt (not_le.mp hab)
      by_cases hb : key b = k
      · have ha : key a ≠ k := fun ha => hne (hb.trans ha.symm)
        simp [hb, ha]
      · simp [hb, List.filter_cons]

/-- **Stability.** Sorting keeps the order of the rows of one key. -/
theorem filter_sortOn (k : κ) (rows : List α) :
    (sortOn key rows).filter (fun b => key b = k) = rows.filter (fun b => key b = k) := by
  induction rows with
  | nil => rfl
  | cons a rest ih =>
    show ((sortOn key rest).orderedInsert _ a).filter _ = _
    rw [filter_orderedInsert, List.filter_cons, List.filter_cons, ih]

/-- The first of two lists that are in order starts with the least key of both. -/
private theorem head_le_of_filter_eq (h : ∀ k : κ, (a :: rows).filter (fun c => key c = k)
      = (b :: others).filter (fun c => key c = k))
    (hb : (b :: others).Pairwise (fun c d => key c ≤ key d)) : key b ≤ key a := by
  have hmem : a ∈ (b :: others).filter (fun c => key c = key a) := by
    rw [← h]
    simp
  rcases List.mem_cons.mp (List.mem_of_mem_filter hmem) with rfl | hrest
  · exact le_refl _
  · exact List.rel_of_pairwise_cons hb hrest

/-- Two lists in order that have the same rows of each key are equal. -/
theorem eq_of_filter_eq (hrows : rows.Pairwise (fun a b => key a ≤ key b))
    (hothers : others.Pairwise (fun a b => key a ≤ key b))
    (h : ∀ k : κ, rows.filter (fun c => key c = k) = others.filter (fun c => key c = k)) :
    rows = others := by
  induction rows generalizing others with
  | nil =>
    cases others with
    | nil => rfl
    | cons b rest => simpa using h (key b)
  | cons a rows ih =>
    cases others with
    | nil => simpa using h (key a)
    | cons b others =>
      have hkey : key a = key b :=
        le_antisymm (head_le_of_filter_eq (fun k => (h k).symm) hrows) (head_le_of_filter_eq h hothers)
      have hhead : a = b := by
        have hcons := h (key b)
        rw [List.filter_cons_of_pos (by simp [hkey]), List.filter_cons_of_pos (by simp)] at hcons
        exact (List.cons.inj hcons).1
      subst hhead
      refine congrArg (a :: ·) (ih hrows.of_cons hothers.of_cons (fun k => ?_))
      have hcons := h k
      by_cases hk : key a = k
      · simpa [hk] using hcons
      · simpa [hk] using hcons

/-- **Canonical form.** Lists that have the same rows of each key, in the same order, are sorted
    alike. -/
theorem sortOn_congr
    (h : ∀ k : κ, rows.filter (fun c => key c = k) = others.filter (fun c => key c = k)) :
    sortOn key rows = sortOn key others := by
  refine eq_of_filter_eq (pairwise_sortOn rows) (pairwise_sortOn others) (fun k => ?_)
  rw [filter_sortOn, filter_sortOn, h]

/-- Rows with greater keys are sorted behind. -/
theorem sortOn_append (h : ∀ a ∈ rows, ∀ b ∈ others, key a ≤ key b) :
    sortOn key (rows ++ others) = sortOn key rows ++ sortOn key others := by
  refine eq_of_filter_eq (pairwise_sortOn _) ?_ (fun k => ?_)
  · refine List.pairwise_append.mpr ⟨pairwise_sortOn _, pairwise_sortOn _, fun a ha b hb => ?_⟩
    exact h a (mem_sortOn.mp ha) b (mem_sortOn.mp hb)
  · rw [filter_sortOn, List.filter_append, List.filter_append, filter_sortOn, filter_sortOn]

/-- The keys of the sorted rows do not depend on the order of the rows. -/
theorem map_sortOn_eq_of_perm (h : rows.Perm others) :
    (sortOn key rows).map key = (sortOn key others).map key := by
  have hperm : ((sortOn key rows).map key).Perm ((sortOn key others).map key) :=
    (((perm_sortOn rows).trans h).trans (perm_sortOn others).symm).map key
  refine hperm.eq_of_pairwise (fun _ _ _ _ => le_antisymm) ?_ ?_
  · exact List.pairwise_map.mpr (pairwise_sortOn rows)
  · exact List.pairwise_map.mpr (pairwise_sortOn others)

/-- The least and the greatest value do not depend on the order of the values. -/
theorem min?_eq_of_perm {xs ys : List κ} (h : xs.Perm ys) : xs.min? = ys.min? := by
  refine Option.ext (fun t => ?_)
  rw [List.min?_eq_some_iff, List.min?_eq_some_iff, h.mem_iff]
  exact and_congr_right (fun _ => forall_congr' (fun s => imp_congr_left h.mem_iff))

theorem max?_eq_of_perm {xs ys : List κ} (h : xs.Perm ys) : xs.max? = ys.max? := by
  refine Option.ext (fun t => ?_)
  rw [List.max?_eq_some_iff, List.max?_eq_some_iff, h.mem_iff]
  exact and_congr_right (fun _ => forall_congr' (fun s => imp_congr_left h.mem_iff))

/-- Values that are not less leave the least value. -/
theorem min?_append_of_le {xs ys : List κ} {m : κ} (h : xs.min? = some m)
    (hle : ∀ y ∈ ys, m ≤ y) : (xs ++ ys).min? = some m := by
  obtain ⟨hmem, hmin⟩ := List.min?_eq_some_iff.mp h
  refine List.min?_eq_some_iff.mpr ⟨List.mem_append_left _ hmem, fun x hx => ?_⟩
  rcases List.mem_append.mp hx with hx | hx
  · exact hmin x hx
  · exact hle x hx

/-- Further values do not decrease the greatest value. -/
theorem exists_max?_append {xs : List κ} {m : κ} (h : xs.max? = some m) (ys : List κ) :
    ∃ m', (xs ++ ys).max? = some m' ∧ m ≤ m' := by
  have hmem : m ∈ xs ++ ys := List.mem_append_left _ (List.max?_eq_some_iff.mp h).1
  obtain ⟨m', hm'⟩ := Option.isSome_iff_exists.mp (List.isSome_max?_of_mem hmem)
  exact ⟨m', hm', (List.max?_eq_some_iff.mp hm').2 m hmem⟩

/-! ### One more row -/

/-- A row is inserted at the same place whether or not a row that is in order is there. -/
theorem exists_orderedInsert_insert (b o : α) {before after : List α}
    (h : (before ++ o :: after).Pairwise (fun a b => key a ≤ key b)) :
    ∃ before' after',
      (before ++ o :: after).orderedInsert (fun a b => key a ≤ key b) b = before' ++ o :: after'
      ∧ (before ++ after).orderedInsert (fun a b => key a ≤ key b) b = before' ++ after' := by
  induction before with
  | nil =>
    by_cases hbo : key b ≤ key o
    · -- `b` goes in front of `o`, and so in front of what follows it
      refine ⟨[b], after, if_pos hbo, ?_⟩
      cases after with
      | nil => rfl
      | cons c rest =>
        exact if_pos (hbo.trans (List.rel_of_pairwise_cons h (by simp)))
    · exact ⟨[], _, if_neg hbo, rfl⟩
  | cons c before ih =>
    by_cases hbc : key b ≤ key c
    · exact ⟨b :: c :: before, after, if_pos hbc, if_pos hbc⟩
    · obtain ⟨before', after', hwith, hwithout⟩ := ih h.of_cons
      refine ⟨c :: before', after', ?_, ?_⟩
      · show List.orderedInsert _ b (c :: (before ++ o :: after)) = _
        rw [List.orderedInsert_cons, if_neg hbc, hwith]
        rfl
      · show List.orderedInsert _ b (c :: (before ++ after)) = _
        rw [List.orderedInsert_cons, if_neg hbc, hwithout]
        rfl

/-- **One more row** is added to the sorted rows at one place. -/
theorem exists_sortOn_insert (o : α) (before after : List α) :
    ∃ before' after', sortOn key (before ++ o :: after) = before' ++ o :: after'
      ∧ sortOn key (before ++ after) = before' ++ after' := by
  induction before with
  | nil =>
    refine ⟨_, _, List.orderedInsert_eq_take_drop _ o (sortOn key after), ?_⟩
    exact (List.takeWhile_append_dropWhile).symm
  | cons b before ih =>
    obtain ⟨before', after', hwith, hwithout⟩ := ih
    have hsorted : (before' ++ o :: after').Pairwise (fun a b => key a ≤ key b) := by
      rw [← hwith]
      exact pairwise_sortOn _
    obtain ⟨before'', after'', h, h'⟩ := exists_orderedInsert_insert b o hsorted
    refine ⟨before'', after'', ?_, ?_⟩
    · show (sortOn key (before ++ o :: after)).orderedInsert _ b = _
      rw [hwith, h]
    · show (sortOn key (before ++ after)).orderedInsert _ b = _
      rw [hwithout, h']

end InefficiencyEngine
