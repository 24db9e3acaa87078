import InefficiencyEngine.Lib.GroupBy
import Mathlib.Data.Int.Interval
import Mathlib.Data.Set.Card
import Mathlib.Data.Set.Finite.Lattice

namespace InefficiencyEngine

/-!
# Numbers that a sequence leaves out

A reader of a numbered sequence that keeps the greatest number so far (`greatestOf`) sees a jump
when the next number is not the one after it.  The numbers it jumps over (`PassedOver`) are not
those that never come (`NeverReceived`): a number may come late (`Late`), and a number below the
first one may never come and is not jumped over (`BelowFirst`).  These two differences are the only
ones (`ncard_passedOver_add`).
-/

section Order

variable {α : Type} [LinearOrder α] {xs : List α} {x v m : α}

/-- The greatest element is an element that no element exceeds. -/
theorem greatestOf_eq_some_iff : greatestOf xs = some m ↔ m ∈ xs ∧ ∀ y ∈ xs, y ≤ m := by
  show xs.max? = some m ↔ _
  exact List.max?_eq_some_iff

/-- Only the empty list has no greatest element. -/
theorem greatestOf_eq_none_iff : greatestOf xs = none ↔ xs = [] := by
  cases xs <;> simp [greatestOf]

/-- An element may follow a list in order exactly if it may follow the greatest one. -/
theorem forall_le_iff_greatestOf : (∀ y ∈ xs, y ≤ x) ↔ ∀ m ∈ greatestOf xs, m ≤ x := by
  constructor
  · intro h m hm
    exact h m (greatestOf_eq_some_iff.mp hm).1
  · intro h y hy
    cases hmax : greatestOf xs with
    | none =>
      rw [greatestOf_eq_none_iff.mp hmax] at hy
      simp at hy
    | some m => exact le_trans ((greatestOf_eq_some_iff.mp hmax).2 y hy) (h m hmax)

/-- A list is in order if it was so before its last element, and that one is not below the
    greatest one before it. -/
theorem pairwise_le_concat_iff :
    (xs ++ [x]).Pairwise (· ≤ ·) ↔ xs.Pairwise (· ≤ ·) ∧ ∀ m ∈ greatestOf xs, m ≤ x := by
  rw [List.pairwise_append, ← forall_le_iff_greatestOf]
  simp

/-! ### What is left out -/

/-- When the first number above `v` came, some number had come, and each of them was below `v`. -/
def PassedOver (xs : List α) (v : α) : Prop :=
  ∃ before x after, xs = before ++ x :: after ∧ before ≠ [] ∧ (∀ y ∈ before, y < v) ∧ v < x

/-- `v` lies between two numbers that came and did not come itself. -/
def NeverReceived (xs : List α) (v : α) : Prop :=
  (∃ a ∈ xs, a < v) ∧ (∃ b ∈ xs, v < b) ∧ v ∉ xs

/-- `v` came after it had been passed over. -/
def Late (xs : List α) (v : α) : Prop := PassedOver xs v ∧ v ∈ xs

/-- `v` never came and is below the first number. -/
def BelowFirst (xs : List α) (v : α) : Prop := NeverReceived xs v ∧ ∀ first ∈ xs.head?, v < first

/-- Nothing is passed over before a number came. -/
theorem not_passedOver_nil : ¬ PassedOver ([] : List α) v := by
  rintro ⟨before, y, after, hsplit, -⟩
  simp at hsplit

/-- What is passed over is between two numbers that came. -/
theorem PassedOver.between (h : PassedOver xs v) : (∃ a ∈ xs, a < v) ∧ ∃ b ∈ xs, v < b := by
  obtain ⟨before, y, after, rfl, hbefore, hbelow, habove⟩ := h
  obtain ⟨a, ha⟩ := List.exists_mem_of_ne_nil before hbefore
  exact ⟨⟨a, by simp [ha], hbelow a ha⟩, y, by simp, habove⟩

/-- **One more number.** It passes over what lies between the greatest number before it and
    itself. -/
theorem passedOver_concat :
    PassedOver (xs ++ [x]) v ↔ PassedOver xs v ∨ ∃ m ∈ greatestOf xs, m < v ∧ v < x := by
  constructor
  · rintro ⟨before, y, after, hsplit, hbefore, hbelow, habove⟩
    -- the number that passes over `v` is the new one or came before it
    rcases List.eq_nil_or_concat after with rfl | ⟨after, last, rfl⟩
    · obtain ⟨rfl, hxy⟩ := List.append_inj' hsplit rfl
      obtain rfl : x = y := by simpa using hxy
      cases hmax : greatestOf xs with
      | none => exact absurd (greatestOf_eq_none_iff.mp hmax) hbefore
      | some m => exact Or.inr ⟨m, rfl, hbelow m (greatestOf_eq_some_iff.mp hmax).1, habove⟩
    · rw [List.concat_eq_append, ← List.cons_append, ← List.append_assoc] at hsplit
      exact Or.inl ⟨before, y, after, (List.append_inj' hsplit rfl).1, hbefore, hbelow, habove⟩
  · rintro (⟨before, y, after, rfl, hbefore, hbelow, habove⟩ | ⟨m, hm, hmv, hvx⟩)
    · exact ⟨before, y, after ++ [x], by simp, hbefore, hbelow, habove⟩
    · obtain ⟨hmem, hmax⟩ := greatestOf_eq_some_iff.mp hm
      refine ⟨xs, x, [], rfl, List.ne_nil_of_mem hmem, fun y hy => ?_, hvx⟩
      exact lt_of_le_of_lt (hmax y hy) hmv

/-- What is passed over is above the first number. -/
theorem PassedOver.first_lt (h : PassedOver xs v) : ∀ first ∈ xs.head?, first < v := by
  obtain ⟨before, y, after, rfl, hbefore, hbelow, -⟩ := h
  intro first hfirst
  rw [List.head?_append_of_ne_nil before hbefore] at hfirst
  exact hbelow first (List.mem_of_mem_head? hfirst)

/-- A number between two others that does not come is passed over, unless it is below the first. -/
theorem NeverReceived.passedOver (h : NeverReceived xs v) (hfirst : ∀ first ∈ xs.head?, first < v) :
    PassedOver xs v := by
  obtain ⟨-, ⟨b, hb, hvb⟩, hnot⟩ := h
  -- split the list where the first number above `v` comes
  have hsome : (xs.find? (fun y => v < y)).isSome := by
    rw [List.find?_isSome]
    exact ⟨b, hb, by simpa using hvb⟩
  obtain ⟨y, hy⟩ := Option.isSome_iff_exists.mp hsome
  obtain ⟨hvy, before, after, hsplit, hbefore⟩ := List.find?_eq_some_iff_append.mp hy
  have hvy : v < y := by simpa using hvy
  subst hsplit
  refine ⟨before, y, after, rfl, ?_, fun z hz => ?_, hvy⟩
  · rintro rfl
    exact absurd (hfirst y rfl) (not_lt.mpr (le_of_lt hvy))
  · have hle : z ≤ v := by simpa using hbefore z hz
    exact lt_of_le_of_ne hle (fun he => hnot (by simp [← he, hz]))

/-- What is passed over and never comes is what never comes and is not below the first number. -/
theorem passedOver_and_not_mem_iff :
    PassedOver xs v ∧ v ∉ xs ↔ NeverReceived xs v ∧ ¬ BelowFirst xs v := by
  constructor
  · rintro ⟨hpassed, hnot⟩
    refine ⟨⟨hpassed.between.1, hpassed.between.2, hnot⟩, fun hbelow => ?_⟩
    obtain ⟨first, hhead⟩ : ∃ first, xs.head? = some first := by
      obtain ⟨a, ha, -⟩ := hpassed.between.1
      exact ⟨_, List.head?_eq_some_head (List.ne_nil_of_mem ha)⟩
    exact lt_asymm (hbelow.2 first hhead) (hpassed.first_lt first hhead)
  · rintro ⟨hnever, hbelow⟩
    refine ⟨hnever.passedOver (fun first hfirst => ?_), hnever.2.2⟩
    refine lt_of_le_of_ne (le_of_not_gt fun hlt => hbelow ⟨hnever, fun other hother => ?_⟩) ?_
    · rw [Option.mem_unique hother hfirst]
      exact hlt
    · rintro rfl
      exact hnever.2.2 (List.mem_of_mem_head? hfirst)

end Order

/-! ### Counting -/

section Count

variable {xs : List ℤ} {x : ℤ}

/-- Between two numbers of a list there are finitely many. -/
theorem finite_between (xs : List ℤ) : {v : ℤ | (∃ a ∈ xs, a < v) ∧ ∃ b ∈ xs, v < b}.Finite := by
  have hunion : {v : ℤ | (∃ a ∈ xs, a < v) ∧ ∃ b ∈ xs, v < b}
      ⊆ ⋃ a ∈ xs.toFinset, ⋃ b ∈ xs.toFinset, Set.Ioo a b := by
    rintro v ⟨⟨a, ha, hav⟩, b, hb, hvb⟩
    simp only [Set.mem_iUnion, List.mem_toFinset]
    exact ⟨a, ha, b, hb, hav, hvb⟩
  refine Set.Finite.subset ?_ hunion
  exact Set.Finite.biUnion (Finset.finite_toSet _) (fun a _ =>
    Set.Finite.biUnion (Finset.finite_toSet _) (fun b _ => Set.finite_Ioo a b))

theorem finite_passedOver (xs : List ℤ) : {v | PassedOver xs v}.Finite :=
  (finite_between xs).subset (fun _ h => PassedOver.between h)

theorem finite_neverReceived (xs : List ℤ) : {v | NeverReceived xs v}.Finite :=
  (finite_between xs).subset (fun _ h => ⟨h.1, h.2.1⟩)

@[simp] theorem ncard_passedOver_nil : {v : ℤ | PassedOver [] v}.ncard = 0 := by
  simp [not_passedOver_nil]

/-- The first number passes over nothing. -/
theorem ncard_passedOver_concat_of_none (h : greatestOf xs = none) :
    {v | PassedOver (xs ++ [x]) v}.ncard = {v | PassedOver xs v}.ncard := by
  simp only [passedOver_concat, h, Option.mem_def, reduceCtorEq, false_and, exists_false, or_false]

/-- **Counting the jumps.** A number passes over as many as lie between the greatest one before it
    and itself. -/
theorem ncard_passedOver_concat {m : ℤ} (h : greatestOf xs = some m) :
    {v | PassedOver (xs ++ [x]) v}.ncard = {v | PassedOver xs v}.ncard + (x - m - 1).toNat := by
  have hset : {v | PassedOver (xs ++ [x]) v} = {v | PassedOver xs v} ∪ ↑(Finset.Ioo m x) := by
    ext v
    simp [passedOver_concat, h]
  have hdisjoint : Disjoint {v | PassedOver xs v} ↑(Finset.Ioo m x) := by
    -- what was passed over before is below the greatest number
    refine Set.disjoint_left.mpr (fun v hv hIoo => ?_)
    obtain ⟨b, hb, hvb⟩ := (PassedOver.between hv).2
    have hbm : b ≤ m := (greatestOf_eq_some_iff.mp h).2 b hb
    have hmv : m < v := (Finset.mem_Ioo.mp (Finset.mem_coe.mp hIoo)).1
    omega
  rw [hset, Set.ncard_union_eq hdisjoint (finite_passedOver xs) (Finset.finite_toSet _),
    Set.ncard_coe_finset, Int.card_Ioo]

/-- **The whole difference.** What is passed over and what never comes differ by the numbers that
    come late and by those below the first number. -/
theorem ncard_passedOver_add (xs : List ℤ) :
    {v | PassedOver xs v}.ncard + {v | BelowFirst xs v}.ncard
      = {v | NeverReceived xs v}.ncard + {v | Late xs v}.ncard := by
  have hlate : {v | Late xs v} ⊆ {v | PassedOver xs v} := fun _ h => h.1
  have hbelow : {v | BelowFirst xs v} ⊆ {v | NeverReceived xs v} := fun _ h => h.1
  have hsame : {v | PassedOver xs v} \ {v | Late xs v}
      = {v | NeverReceived xs v} \ {v | BelowFirst xs v} := by
    ext v
    show PassedOver xs v ∧ ¬ (PassedOver xs v ∧ v ∈ xs) ↔ NeverReceived xs v ∧ ¬ BelowFirst xs v
    rw [← passedOver_and_not_mem_iff]
    tauto
  have hpassed := Set.ncard_sdiff_add_ncard_of_subset hlate (finite_passedOver xs)
  have hnever := Set.ncard_sdiff_add_ncard_of_subset hbelow (finite_neverReceived xs)
  rw [hsame] at hpassed
  omega

end Count

end InefficiencyEngine
