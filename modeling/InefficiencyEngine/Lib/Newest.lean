import InefficiencyEngine.Lib.StableSort
import Mathlib.Order.OrderDual
import Mathlib.Order.Lattice

namespace InefficiencyEngine

/-!
# The newest row

`rows.sort(key=…, reverse=True)` puts the row with the greatest key first, and among several
such rows the one listed first.  `IsNewest` says which row that is without sorting, and
`newest_insert` says what one more row makes of it: the row takes over (`TakesOver`) or nothing
changes.
-/

variable {α κ : Type} [LinearOrder κ] (key : α → κ)

/-- `rows.sort(key=key, reverse=True)`; rows with equal keys keep their order. -/
def sortDescending (rows : List α) : List α := sortOn (fun a => OrderDual.toDual (key a)) rows

/-- The first row of the sorted rows. -/
def newest (rows : List α) : Option α := (sortDescending key rows).head?

/-- A row has the greatest key, and it is the first row that has it. -/
def IsNewest (rows : List α) (a : α) : Prop :=
  ∃ ahead behind, rows = ahead ++ a :: behind
    ∧ (∀ b ∈ ahead, key b < key a) ∧ ∀ b ∈ behind, key b ≤ key a

/-- A row between others is the newest of all. -/
def TakesOver (ahead behind : List α) (a : α) : Prop :=
  (∀ b ∈ ahead, key b < key a) ∧ ∀ b ∈ behind, key b ≤ key a

instance (ahead behind : List α) (a : α) : Decidable (TakesOver key ahead behind a) :=
  inferInstanceAs (Decidable (_ ∧ _))

variable {key} {rows ahead behind : List α} {a b : α}

theorem newest_cons (a : α) (rows : List α) :
    newest key (a :: rows)
      = match newest key rows with
        | none => some a
        | some b => if key b ≤ key a then some a else some b := by
  show ((sortDescending key rows).orderedInsert _ a).head? = _
  rw [newest]
  cases sortDescending key rows with
  | nil => rfl
  | cons b rest =>
    by_cases h : key b ≤ key a
    · rw [List.orderedInsert_cons, if_pos (OrderDual.toDual_le_toDual.mpr h)]
      exact (if_pos h).symm
    · rw [List.orderedInsert_cons, if_neg (fun hle => h (OrderDual.toDual_le_toDual.mp hle))]
      exact (if_neg h).symm

theorem newest_eq_none : newest key rows = none ↔ rows = [] := by
  rw [newest, List.head?_eq_none_iff, sortDescending]
  constructor
  · intro h
    have hperm : (sortOn (fun a => OrderDual.toDual (key a)) rows).Perm rows := perm_sortOn rows
    rw [h] at hperm
    exact hperm.nil_eq.symm
  · rintro rfl
    rfl

/-- **The newest row**, without sorting. The newest row takes its place from the front: it is
    above every row before it and not below any row behind it, which decides ties for the first
    of the equals. -/
theorem newest_eq_some : newest key rows = some a ↔ IsNewest key rows a := by
  constructor
  -- induction on the rows, with the row of the tail compared to the head
  · intro h
    induction rows generalizing a with
    | nil => cases h
    | cons c rows ih =>
      rw [newest_cons] at h
      cases hrows : newest key rows with
      | none =>
        rw [hrows] at h
        obtain rfl := Option.some.inj h
        exact ⟨[], rows, rfl, by simp, by simp [newest_eq_none.mp hrows]⟩
      | some b =>
        obtain ⟨pre, post, rfl, hpre, hpost⟩ := ih hrows
        rw [hrows] at h
        by_cases hbc : key b ≤ key c
        · obtain rfl := Option.some.inj ((if_pos hbc).symm.trans h)
          refine ⟨[], _, rfl, by simp, fun d hd => ?_⟩
          rcases List.mem_append.mp hd with hd | hd
          · exact (hpre d hd).le.trans hbc
          · rcases List.mem_cons.mp hd with rfl | hd
            · exact hbc
            · exact (hpost d hd).trans hbc
        · obtain rfl := Option.some.inj ((if_neg hbc).symm.trans h)
          refine ⟨c :: pre, post, rfl, fun d hd => ?_, hpost⟩
          rcases List.mem_cons.mp hd with rfl | hd
          · exact not_le.mp hbc
          · exact hpre d hd
  -- conversely, no row before it and none behind it takes its place
  · rintro ⟨pre, post, rfl, hpre, hpost⟩
    induction pre with
    | nil =>
      show newest key (a :: post) = some a
      rw [newest_cons]
      cases hrows : newest key post with
      | none => rfl
      | some b =>
        have hb : b ∈ sortDescending key post := List.mem_of_head? hrows
        exact if_pos (hpost b (mem_sortOn.mp hb))
    | cons c pre ih =>
      rw [List.forall_mem_cons] at hpre
      show newest key (c :: (pre ++ a :: post)) = some a
      rw [newest_cons, ih hpre.2]
      exact if_neg (not_le.mpr hpre.1)

theorem IsNewest.mem (h : IsNewest key rows a) : a ∈ rows := by
  obtain ⟨pre, post, rfl, -, -⟩ := h
  simp

theorem IsNewest.le (h : IsNewest key rows a) (hb : b ∈ rows) : key b ≤ key a := by
  obtain ⟨pre, post, rfl, hpre, hpost⟩ := h
  rcases List.mem_append.mp hb with hb | hb
  · exact (hpre b hb).le
  · rcases List.mem_cons.mp hb with rfl | hb
    · exact le_refl _
    · exact hpost b hb

theorem IsNewest.unique (ha : IsNewest key rows a) (hb : IsNewest key rows b) : a = b :=
  Option.some.inj ((newest_eq_some.mpr ha).symm.trans (newest_eq_some.mpr hb))

/-- There is a newest row unless there is none at all. -/
theorem exists_isNewest (h : a ∈ rows) : ∃ b, IsNewest key rows b := by
  cases hrows : newest key rows with
  | none => exact absurd (newest_eq_none.mp hrows ▸ h) List.not_mem_nil
  | some b => exact ⟨b, newest_eq_some.mp hrows⟩

/-! ### The newest row of a kind -/

/-- Sorting and leaving rows out can be done in any order. -/
theorem filter_sortOn_comm (p : α → Bool) (rows : List α) :
    (sortOn key rows).filter p = sortOn key (rows.filter p) := by
  refine eq_of_filter_eq ?_ (pairwise_sortOn _) (fun k => ?_)
  · exact (pairwise_sortOn rows).filter p
  · rw [filter_sortOn, List.filter_comm, filter_sortOn, List.filter_comm]

/-- The first sorted row of a kind is the newest of the kind. -/
theorem find?_sortDescending (p : α → Bool) (rows : List α) :
    (sortDescending key rows).find? p = newest key (rows.filter p) := by
  rw [newest, sortDescending, sortDescending, ← filter_sortOn_comm, List.head?_filter]

/-! ### One more row -/

/-- A row that takes over is the newest. -/
theorem TakesOver.isNewest (h : TakesOver key ahead behind a) :
    IsNewest key (ahead ++ a :: behind) a := ⟨ahead, behind, rfl, h.1, h.2⟩

/-- **One more row** takes over, or leaves the newest row as it is. -/
theorem newest_insert (h : ¬ TakesOver key ahead behind a) :
    newest key (ahead ++ a :: behind) = newest key (ahead ++ behind) := by
  induction ahead with
  | nil =>
    show newest key (a :: behind) = newest key behind
    have hnewer : ∃ c ∈ behind, ¬ key c ≤ key a := by
      by_contra hnone
      exact h ⟨by simp, fun c hc => not_not.mp (fun hlt => hnone ⟨c, hc, hlt⟩)⟩
    obtain ⟨c, hc, hca⟩ := hnewer
    obtain ⟨d, hd⟩ : ∃ d, IsNewest key behind d := exists_isNewest hc
    have hda : ¬ key d ≤ key a := fun hle => hca ((hd.le hc).trans hle)
    rw [newest_cons, newest_eq_some.mpr hd]
    exact if_neg hda
  | cons c ahead ih =>
    show newest key (c :: (ahead ++ a :: behind)) = newest key (c :: (ahead ++ behind))
    rw [newest_cons, newest_cons]
    by_cases hover : TakesOver key ahead behind a
    · -- `a` would take over but for `c`, which is at least as new and is listed first
      have hac : key a ≤ key c := by
        by_contra hlt
        exact h ⟨List.forall_mem_cons.mpr ⟨not_le.mp hlt, hover.1⟩, hover.2⟩
      rw [newest_eq_some.mpr hover.isNewest]
      show (if key a ≤ key c then some c else some a) = _
      rw [if_pos hac]
      cases hrest : newest key (ahead ++ behind) with
      | none => rfl
      | some d =>
        have hda : key d ≤ key a := by
          rcases List.mem_append.mp (newest_eq_some.mp hrest).mem with hd | hd
          · exact (hover.1 d hd).le
          · exact hover.2 d hd
        exact (if_pos (hda.trans hac)).symm
    · rw [ih hover]

theorem isNewest_insert (h : ¬ TakesOver key ahead behind a) :
    IsNewest key (ahead ++ a :: behind) b ↔ IsNewest key (ahead ++ behind) b := by
  rw [← newest_eq_some, ← newest_eq_some, newest_insert h]

end InefficiencyEngine
