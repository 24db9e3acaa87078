import Mathlib.Data.List.Basic

namespace InefficiencyEngine

/-!
# Invariant rules for loops over a list

A Python `for` loop over a list is a fold of its body over the loop's local state, in
`Except` when the body can raise.  The rules here carry an invariant through such a fold;
the invariant may speak of the part of the list already seen.
-/

variable {α σ ε : Type}

/-- **Loop rule.** An invariant that holds at the start and that every iteration keeps,
    over the elements seen so far, holds at the end over the whole list. -/
theorem foldl_invariant {step : σ → α → σ} {P : List α → σ → Prop}
    (hstep : ∀ seen s x, P seen s → P (seen ++ [x]) (step s x)) (xs : List α) {s : σ}
    (hs : P [] s) : P xs (xs.foldl step s) := by
  suffices h : ∀ (rest seen : List α) (s : σ), P seen s → P (seen ++ rest) (rest.foldl step s) by
    exact h xs [] s hs
  intro rest
  induction rest with
  | nil =>
    intro seen s hs
    rw [List.append_nil]
    exact hs
  | cons x rest ih =>
    intro seen s hs
    rw [List.foldl_cons, List.append_cons]
    exact ih _ _ (hstep seen s x hs)

/-- **Loop rule with exceptions.** As `foldl_invariant`, for a loop whose body may raise:
    the invariant holds at the end of every run that did not raise. -/
theorem foldlM_invariant {step : σ → α → Except ε σ} {P : List α → σ → Prop}
    (hstep : ∀ seen s x s', P seen s → step s x = .ok s' → P (seen ++ [x]) s') {xs : List α}
    {s s' : σ} (hs : P [] s) (hrun : xs.foldlM step s = .ok s') : P xs s' := by
  suffices h : ∀ (rest seen : List α) (s : σ), P seen s → rest.foldlM step s = .ok s' →
      P (seen ++ rest) s' by
    exact h xs [] s hs hrun
  intro rest
  induction rest with
  | nil =>
    intro seen s hs hrun
    rw [List.foldlM_nil] at hrun
    injection hrun with hrun
    rw [List.append_nil, ← hrun]
    exact hs
  | cons x rest ih =>
    intro seen s hs hrun
    rw [List.foldlM_cons] at hrun
    cases hx : step s x with
    | error e =>
      rw [hx] at hrun
      cases hrun
    | ok t =>
      rw [hx] at hrun
      rw [List.append_cons]
      exact ih _ _ (hstep seen s x t hs hx) hrun

/-- **Total loop rule.** A loop none of whose iterations raises under the invariant ends
    normally, with the invariant over the whole list. -/
theorem foldlM_total {step : σ → α → Except ε σ} {P : List α → σ → Prop} {xs : List α}
    (hstep : ∀ seen s x, x ∈ xs → P seen s → ∃ s', step s x = .ok s' ∧ P (seen ++ [x]) s')
    {s : σ} (hs : P [] s) : ∃ s', xs.foldlM step s = .ok s' ∧ P xs s' := by
  suffices h : ∀ (rest seen : List α) (s : σ), (∀ x ∈ rest, x ∈ xs) → P seen s →
      ∃ s', rest.foldlM step s = .ok s' ∧ P (seen ++ rest) s' by
    exact h xs [] s (fun _ hx => hx) hs
  intro rest
  induction rest with
  | nil =>
    intro seen s _ hs
    exact ⟨s, rfl, by rwa [List.append_nil]⟩
  | cons x rest ih =>
    intro seen s hmem hs
    obtain ⟨t, ht, hPt⟩ := hstep seen s x (hmem x List.mem_cons_self) hs
    obtain ⟨s', hs', hPs'⟩ := ih _ t (fun y hy => hmem y (List.mem_cons_of_mem x hy)) hPt
    refine ⟨s', ?_, by rwa [List.append_cons]⟩
    rw [List.foldlM_cons, ht]
    exact hs'

/-- **Simulation rule.** Two loops, the second over images of what the first one is over, none of
    whose iterations raise and which keep a relation end related. -/
theorem foldlM_lockstep {τ β : Type} {step : σ → α → Except ε σ} {step' : τ → β → Except ε τ}
    {f : α → β} {P : List α → σ → τ → Prop}
    (hstep : ∀ seen s t x, P seen s t →
      ∃ s' t', step s x = .ok s' ∧ step' t (f x) = .ok t' ∧ P (seen ++ [x]) s' t')
    (xs : List α) {s : σ} {t : τ} (hs : P [] s t) :
    ∃ s' t', xs.foldlM step s = .ok s' ∧ (xs.map f).foldlM step' t = .ok t' ∧ P xs s' t' := by
  suffices h : ∀ (rest seen : List α) (s : σ) (t : τ), P seen s t →
      ∃ s' t', rest.foldlM step s = .ok s' ∧ (rest.map f).foldlM step' t = .ok t'
        ∧ P (seen ++ rest) s' t' from h xs [] s t hs
  intro rest
  induction rest with
  | nil =>
    intro seen s t hs
    exact ⟨s, t, rfl, rfl, by rwa [List.append_nil]⟩
  | cons x rest ih =>
    intro seen s t hs
    obtain ⟨s₁, t₁, hs₁, ht₁, h₁⟩ := hstep seen s t x hs
    obtain ⟨s', t', hs', ht', h'⟩ := ih (seen ++ [x]) s₁ t₁ h₁
    refine ⟨s', t', ?_, ?_, by rwa [List.append_cons]⟩
    · rw [List.foldlM_cons, hs₁]
      exact hs'
    · rw [List.map_cons, List.foldlM_cons, ht₁]
      exact ht'

/-- What a successful sequence of two computations did. -/
theorem bind_eq_ok {β : Type} {x : Except ε α} {f : α → Except ε β} {b : β}
    (h : (x >>= f) = .ok b) : ∃ a, x = .ok a ∧ f a = .ok b := by
  cases x with
  | error e => cases h
  | ok a => exact ⟨a, rfl, h⟩

/-- A computation with a result gave it without an error. -/
theorem ok_of_toOption {x : Except ε α} {a : α} (h : x.toOption = some a) : x = .ok a := by
  cases x with
  | error e => cases h
  | ok b => exact congrArg Except.ok (Option.some.inj h)

/-- A mapped computation succeeds exactly when it does on every element. -/
theorem mapM_ok_iff {β : Type} {f : α → Except ε β} {xs : List α} :
    (∃ ys, xs.mapM f = .ok ys) ↔ ∀ x ∈ xs, ∃ y, f x = .ok y := by
  induction xs with
  | nil => exact ⟨fun _ x hx => (by cases hx), fun _ => ⟨[], rfl⟩⟩
  | cons x rest ih =>
    rw [List.mapM_cons]
    constructor
    · rintro ⟨ys, hys⟩ y hy
      obtain ⟨b, hb, hys⟩ := bind_eq_ok hys
      obtain ⟨bs, hbs, -⟩ := bind_eq_ok hys
      rcases List.mem_cons.mp hy with rfl | hy
      · exact ⟨b, hb⟩
      · exact ih.mp ⟨bs, hbs⟩ y hy
    · intro h
      obtain ⟨b, hb⟩ := h x List.mem_cons_self
      obtain ⟨bs, hbs⟩ := ih.mpr (fun y hy => h y (List.mem_cons_of_mem x hy))
      exact ⟨b :: bs, by rw [hb, hbs]; rfl⟩

/-- What a mapped computation yields comes from an element. -/
theorem exists_of_mem_mapM {β : Type} {f : α → Except ε β} {xs : List α} {ys : List β}
    (h : xs.mapM f = .ok ys) {y : β} (hy : y ∈ ys) : ∃ x ∈ xs, f x = .ok y := by
  induction xs generalizing ys with
  | nil =>
    cases h
    cases hy
  | cons x rest ih =>
    rw [List.mapM_cons] at h
    obtain ⟨z, hz, h⟩ := bind_eq_ok h
    obtain ⟨zs, hzs, h⟩ := bind_eq_ok h
    cases h
    rcases List.mem_cons.mp hy with rfl | hrest
    · exact ⟨x, List.mem_cons_self, hz⟩
    · obtain ⟨x', hx', hfx'⟩ := ih hzs hrest
      exact ⟨x', List.mem_cons_of_mem _ hx', hfx'⟩

end InefficiencyEngine
