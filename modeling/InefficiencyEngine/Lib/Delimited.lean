import Mathlib.Data.List.Chain

namespace InefficiencyEngine

/-!
# Texts with a separator

A text that is put together from parts can be taken apart again when the separator does not occur
in the part before it (`append_cons_inj`) or in the one after it (`append_cons_inj_right`).  Where
it can occur in both, it is enough that each part starts with a sign that never follows the
separator inside a part (`arrow_inj`).
-/

variable {α : Type} {c p x y : α} {l l' r r' : List α}

/-- The part before the first separator, and the rest. -/
theorem append_cons_inj (hl : c ∉ l) (hl' : c ∉ l') :
    l ++ c :: r = l' ++ c :: r' ↔ l = l' ∧ r = r' := by
  constructor
  · intro h
    induction l generalizing l' with
    | nil =>
      cases l' with
      | nil => exact ⟨rfl, (List.cons.inj h).2⟩
      | cons a rest => exact absurd (List.mem_cons.mpr (Or.inl (List.cons.inj h).1)) hl'
    | cons a rest ih =>
      cases l' with
      | nil => exact absurd (List.mem_cons.mpr (Or.inl (List.cons.inj h).1.symm)) hl
      | cons b rest' =>
        obtain ⟨rfl, htail⟩ := List.cons.inj h
        obtain ⟨rfl, hr⟩ := ih (fun hmem => hl (List.mem_cons_of_mem _ hmem))
          (fun hmem => hl' (List.mem_cons_of_mem _ hmem)) htail
        exact ⟨rfl, hr⟩
  · rintro ⟨rfl, rfl⟩
    rfl

/-- The part after the last separator, and what is before it. -/
theorem append_cons_inj_right (hr : c ∉ r) (hr' : c ∉ r') :
    l ++ c :: r = l' ++ c :: r' ↔ l = l' ∧ r = r' := by
  rw [← List.reverse_inj, List.reverse_append, List.reverse_append, List.reverse_cons,
    List.reverse_cons, List.append_assoc, List.append_assoc, List.singleton_append,
    List.singleton_append, append_cons_inj (by simpa using hr) (by simpa using hr'),
    List.reverse_inj, List.reverse_inj]
  exact and_comm

/-- A part that starts with a sign which never follows another one in it. -/
structure Part (y x : α) (l : List α) : Prop where
  head : l.head? = some x
  apart : l.IsChain (fun u v => ¬ (u = y ∧ v = x))

/-- **Parts with an arrow.** Two parts with a separator of two signs between them can be taken
    apart, when the second sign is followed by the start of a part there only. -/
theorem arrow_inj (hpy : p ≠ y) (hpx : p ≠ x) (hl' : Part y x l') (hl : Part y x l)
    (hr : Part y x r) (hr' : Part y x r') (h : l ++ p :: y :: r = l' ++ p :: y :: r') :
    l = l' ∧ r = r' := by
  -- the shorter of the two first parts cannot be followed by a separator inside the longer one
  have key : ∀ {l l' r r' : List α}, Part y x l' → Part y x r → ∀ e, l' = l ++ e →
      p :: y :: r = e ++ p :: y :: r' → e = [] := by
    intro l l' r r' hl' hr e he heq
    rcases e with _ | ⟨e₁, _ | ⟨e₂, _ | ⟨e₃, rest⟩⟩⟩
    · rfl
    · simp only [List.cons_append, List.nil_append, List.cons.injEq] at heq
      exact absurd heq.2.1.symm hpy
    · simp only [List.cons_append, List.nil_append, List.cons.injEq] at heq
      have hhead := hr.head
      rw [heq.2.2] at hhead
      exact absurd (Option.some.inj hhead) hpx
    · simp only [List.cons_append, List.cons.injEq] at heq
      obtain ⟨rfl, rfl, hrest⟩ := heq
      have hhead := hr.head
      rw [hrest] at hhead
      have hx : e₃ = x := Option.some.inj hhead
      have hapart := hl'.apart
      rw [he, ← List.singleton_append, ← List.append_assoc, List.isChain_append_cons_cons] at hapart
      exact absurd ⟨rfl, hx⟩ hapart.2.1
  rcases List.append_eq_append_iff.mp h with ⟨e, he, heq⟩ | ⟨e, he, heq⟩
  · obtain rfl := key hl' hr e he heq
    rw [List.append_nil] at he
    exact ⟨he.symm, by simpa using heq⟩
  · obtain rfl := key hl hr' e he heq
    rw [List.append_nil] at he
    refine ⟨he, ?_⟩
    simpa using heq.symm

end InefficiencyEngine
