import Mathlib.Data.List.TakeWhile

namespace InefficiencyEngine

/-!
# Bounded reads

A query with a limit returns the first rows that match its key; what the program wants of them it
picks out afterwards.  The read hides a row from it exactly when too many other rows of the same
key stand before that row.  `beforeFirst want rows` are the rows before the first wanted one; the
lemmas say, for a first match, for a match of a given row and for all matches, when the bounded
read finds what is in the table.
-/

variable {α β : Type} {key p want : α → Bool} {rows : List α} {limit : ℕ}

/-- The rows before the first that is wanted. -/
def beforeFirst (want : α → Bool) (rows : List α) : List α := rows.takeWhile (fun row => !want row)

theorem beforeFirst_cons_of_pos {row : α} (h : want row = true) (rest : List α) :
    beforeFirst want (row :: rest) = [] := by
  simp [beforeFirst, h]

theorem beforeFirst_cons_of_neg {row : α} (h : want row = false) (rest : List α) :
    beforeFirst want (row :: rest) = row :: beforeFirst want rest := by
  simp [beforeFirst, h]

/-- What a bounded read finds is a row of its key. -/
theorem mem_of_find?_bounded {row : α}
    (h : ((rows.filter key).take limit).find? p = some row) : key row = true ∧ p row = true :=
  ⟨(List.mem_filter.mp (List.mem_of_mem_take (List.mem_of_find?_eq_some h))).2, List.find?_some h⟩

/-- **A first match.** Suppose every row that the read could find is wanted.  Then it finds the
    first wanted row, or nothing if there is none, exactly when that row has the key, passes the
    filter, and fewer rows of the key than the limit stand before it. -/
theorem find?_bounded_eq_find?_iff
    (hwant : ∀ row, key row = true → p row = true → want row = true) :
    ((rows.filter key).take limit).find? p = rows.find? want
      ↔ ∀ row, rows.find? want = some row →
          key row = true ∧ p row = true ∧ (beforeFirst want rows).countP key < limit := by
  induction rows generalizing limit with
  | nil => simp
  | cons first rest ih =>
    by_cases hfirst : want first = true
    · -- the first row is the wanted one
      rw [List.find?_cons_of_pos hfirst, beforeFirst_cons_of_pos hfirst]
      constructor
      · intro h row hrow
        obtain rfl := Option.some.inj hrow
        obtain ⟨hkey, hp⟩ := mem_of_find?_bounded h
        refine ⟨hkey, hp, Nat.pos_of_ne_zero fun hzero => ?_⟩
        rw [hzero, List.take_zero] at h
        exact Option.some_ne_none _ h.symm
      · intro h
        obtain ⟨hkey, hp, hlimit⟩ := h first rfl
        obtain ⟨k, rfl⟩ := Nat.exists_eq_succ_of_ne_zero (Nat.pos_iff_ne_zero.mp hlimit)
        rw [List.filter_cons_of_pos hkey, List.take_succ_cons, List.find?_cons_of_pos hp]
    · have hfirst' : want first = false := Bool.eq_false_iff.mpr hfirst
      rw [List.find?_cons_of_neg hfirst, beforeFirst_cons_of_neg hfirst', List.countP_cons]
      by_cases hkey : key first = true
      · have hp : ¬ p first = true := fun hp => hfirst (hwant first hkey hp)
        rw [List.filter_cons_of_pos hkey, if_pos hkey]
        rcases limit with _ | k
        · -- nothing is read, so there must be nothing to find
          rw [List.take_zero, List.find?_nil]
          constructor
          · intro h row hrow
            exact absurd (h.trans hrow).symm (Option.some_ne_none row)
          · intro h
            rcases hfound : rest.find? want with _ | row
            · rfl
            · exact absurd (h row hfound).2.2 (Nat.not_lt_zero _)
        · rw [List.take_succ_cons, List.find?_cons_of_neg hp, ih]
          simp only [Nat.succ_lt_succ_iff]
      · rw [List.filter_cons_of_neg hkey, if_neg hkey, ih, Nat.add_zero]

/-- **A given row.** Suppose every wanted row has the key and passes the filter.  The read finds the
    first wanted row exactly when no row before it has the key and passes the filter, and fewer
    rows of the key than the limit stand before it. -/
theorem find?_bounded_eq_some_iff (hwant : ∀ row, want row = true → key row = true ∧ p row = true)
    {row : α} (hrow : rows.find? want = some row) :
    ((rows.filter key).take limit).find? p = some row
      ↔ (∀ earlier ∈ beforeFirst want rows, ¬ (key earlier = true ∧ p earlier = true))
        ∧ (beforeFirst want rows).countP key < limit := by
  induction rows generalizing limit with
  | nil => exact absurd hrow.symm (Option.some_ne_none row)
  | cons first rest ih =>
    by_cases hfirst : want first = true
    · rw [List.find?_cons_of_pos hfirst] at hrow
      obtain rfl := Option.some.inj hrow
      obtain ⟨hkey, hp⟩ := hwant first hfirst
      rw [beforeFirst_cons_of_pos hfirst, List.filter_cons_of_pos hkey]
      rcases limit with _ | k
      · simp
      · simp [List.find?_cons_of_pos hp]
    · have hfirst' : want first = false := Bool.eq_false_iff.mpr hfirst
      rw [List.find?_cons_of_neg hfirst] at hrow
      rw [beforeFirst_cons_of_neg hfirst', List.countP_cons, List.forall_mem_cons]
      by_cases hkey : key first = true
      · rw [List.filter_cons_of_pos hkey, if_pos hkey]
        rcases limit with _ | k
        · simp
        · rw [List.take_succ_cons]
          by_cases hp : p first = true
          · -- the first row hides the wanted one
            rw [List.find?_cons_of_pos hp]
            constructor
            · intro h
              exact absurd (Option.some.inj h ▸ List.find?_some hrow) hfirst
            · intro h
              exact absurd ⟨hkey, hp⟩ h.1.1
          · rw [List.find?_cons_of_neg hp, ih hrow, Nat.succ_lt_succ_iff]
            exact and_congr_left fun _ => ⟨fun h => ⟨fun h' => hp h'.2, h⟩, fun h => h.2⟩
      · rw [List.filter_cons_of_neg hkey, if_neg hkey, ih hrow, Nat.add_zero]
        exact and_congr_left fun _ => ⟨fun h => ⟨fun h' => hkey h'.1, h⟩, fun h => h.2⟩

/-- **One row.** The read returns the first wanted row exactly when that row has the key and fewer
    rows of the key than the limit stand before it. -/
theorem mem_bounded_iff {row : α} (hrow : rows.find? want = some row) :
    row ∈ (rows.filter key).take limit
      ↔ key row = true ∧ (beforeFirst want rows).countP key < limit := by
  induction rows generalizing limit with
  | nil => exact absurd hrow.symm (Option.some_ne_none row)
  | cons first rest ih =>
    by_cases hfirst : want first = true
    · rw [List.find?_cons_of_pos hfirst] at hrow
      obtain rfl := Option.some.inj hrow
      rw [beforeFirst_cons_of_pos hfirst, List.countP_nil]
      constructor
      · intro h
        refine ⟨(List.mem_filter.mp (List.mem_of_mem_take h)).2, Nat.pos_of_ne_zero fun hzero => ?_⟩
        rw [hzero, List.take_zero] at h
        cases h
      · rintro ⟨hkey, hlimit⟩
        obtain ⟨k, rfl⟩ := Nat.exists_eq_succ_of_ne_zero (Nat.pos_iff_ne_zero.mp hlimit)
        rw [List.filter_cons_of_pos hkey, List.take_succ_cons]
        exact List.mem_cons_self
    · have hfirst' : want first = false := Bool.eq_false_iff.mpr hfirst
      have hne : row ≠ first := by
        rintro rfl
        rw [List.find?_cons_of_neg hfirst] at hrow
        exact hfirst (List.find?_some hrow)
      rw [List.find?_cons_of_neg hfirst] at hrow
      rw [beforeFirst_cons_of_neg hfirst', List.countP_cons]
      by_cases hkey : key first = true
      · -- the first row takes a place of the read
        rw [List.filter_cons_of_pos hkey, if_pos hkey]
        rcases limit with _ | k
        · simp
        · rw [List.take_succ_cons, List.mem_cons, or_iff_right hne, ih hrow, Nat.succ_lt_succ_iff]
      · rw [List.filter_cons_of_neg hkey, if_neg hkey, ih hrow, Nat.add_zero]

/-- **All matches.** The read keeps every row of the key that passes the filter exactly when none of
    them stands behind the limit. -/
theorem filter_bounded_eq_iff :
    ((rows.filter key).take limit).filter p = rows.filter (fun row => key row && p row)
      ↔ ∀ row ∈ (rows.filter key).drop limit, ¬ p row = true := by
  have hall : rows.filter (fun row => key row && p row)
      = ((rows.filter key).take limit).filter p ++ ((rows.filter key).drop limit).filter p := by
    rw [← List.filter_append, List.take_append_drop, List.filter_filter]
    simp only [Bool.and_comm]
  rw [hall, List.self_eq_append_right, List.filter_eq_nil_iff]

/-- A row behind as many others of the key as the limit is not read. -/
theorem bounded_replicate_append {other row : α} (hkey : key other = true) (hp : p other = false) :
    (((List.replicate limit other ++ [row]).filter key).take limit).filter p = [] := by
  rw [List.filter_append, List.filter_replicate_of_pos hkey, List.take_left' (by simp),
    List.filter_replicate_of_neg (by simp [hp])]

/-- A row ahead of all others of the key is read, if anything is. -/
theorem bounded_cons_replicate {other row : α} (hother : p other = false) (hkey : key row = true)
    (hp : p row = true) (n : ℕ) (hotherKey : key other = true) :
    (((row :: List.replicate n other).filter key).take (limit + 1)).filter p = [row] := by
  rw [List.filter_cons_of_pos hkey, List.filter_replicate_of_pos hotherKey, List.take_succ_cons,
    List.filter_cons_of_pos hp, List.take_replicate, List.filter_replicate_of_neg (by simp [hother])]

/-- A read that finds a row finds the first one of the whole table. -/
theorem find?_bounded_of_some {row : α}
    (h : ((rows.filter key).take limit).find? p = some row) :
    rows.find? (fun row => key row && p row) = some row := by
  have hall : rows.find? (fun row => key row && p row) = (rows.filter key).find? p := by
    rw [List.find?_filter]
    simp only [Bool.decide_and, Bool.decide_eq_true]
  rw [hall, ← List.take_append_drop limit (rows.filter key), List.find?_append, h, Option.some_or]

/-- A read that finds a row finds it in every longer table. -/
theorem find?_bounded_append {row : α} (h : ((rows.filter key).take limit).find? p = some row)
    (later : List α) : (((rows ++ later).filter key).take limit).find? p = some row := by
  rw [List.filter_append, List.take_append, List.find?_append, h, Option.some_or]

/-- What a read finds in a longer table and not in the table is one of the rows added. -/
theorem mem_of_find?_bounded_append {row : α} {later : List α}
    (hnone : ((rows.filter key).take limit).find? p = none)
    (h : (((rows ++ later).filter key).take limit).find? p = some row) : row ∈ later := by
  rw [List.filter_append, List.take_append, List.find?_append, hnone, Option.none_or] at h
  exact (List.mem_filter.mp (List.mem_of_mem_take (List.mem_of_find?_eq_some h))).1

/-- Rows that have not the key are not read. -/
theorem bounded_append_of_forall {later : List α} (h : ∀ row ∈ later, key row = false) :
    ((rows ++ later).filter key).take limit = (rows.filter key).take limit := by
  have hnone : later.filter key = [] :=
    List.filter_eq_nil_iff.mpr fun row hrow => by rw [h row hrow]; exact Bool.false_ne_true
  rw [List.filter_append, hnone, List.append_nil]

/-- The first value a function has is that of the first row it has one for. -/
theorem findSome?_eq_bind_find? (f : α → Option β) (rows : List α) :
    rows.findSome? f = (rows.find? (fun row => (f row).isSome)).bind f := by
  induction rows with
  | nil => rfl
  | cons first rest ih =>
    rcases hfirst : f first with _ | value
    · rw [List.findSome?_cons_of_isNone (by rw [hfirst]; rfl),
        List.find?_cons_of_neg (by rw [hfirst]; exact Bool.false_ne_true), ih]
    · rw [List.findSome?_cons_of_isSome (by rw [hfirst]; rfl),
        List.find?_cons_of_pos (by rw [hfirst]; rfl), Option.bind_some]

end InefficiencyEngine
