import Mathlib.Order.Lattice
import Mathlib.Data.List.Pairwise

namespace InefficiencyEngine

/-!
# Selecting disjoint windows

Every row has a window from its start to its stop.  `sweep` goes through the rows, which are in
the order of their starts, and selects a row when it starts no earlier than the last selected one
stops.  The selected windows are disjoint and in order (`pairwise_sweep`), they select themselves
again (`sweep_of_pairwise`), and a row that starts inside a selected window changes nothing
(`sweep_insert`).
-/

variable {α τ : Type} [LinearOrder τ] (start stop : α → τ)

/-- The rows selected from the time on at which the last selected one stops. -/
def sweep : Option τ → List α → List α
  | _, [] => []
  | next, a :: rest =>
    if next.any (fun t => start a < t) then sweep next rest
    else a :: sweep (some (stop a)) rest

variable {start stop} {next : Option τ} {a o s : α} {t : τ} {rows before after : List α}

theorem sweep_cons_of_lt (h : start a < t) :
    sweep start stop (some t) (a :: rows) = sweep start stop (some t) rows := by
  simp [sweep, h]

theorem sweep_cons_of_le (h : next.all (fun t => t ≤ start a)) :
    sweep start stop next (a :: rows) = a :: sweep start stop (some (stop a)) rows := by
  rw [sweep, if_neg]
  cases next with
  | none => simp
  | some t => simpa using h

/-- A row is passed over when it starts too early, or it is selected. -/
theorem sweep_cons (start stop : α → τ) (next : Option τ) (a : α) (rows : List α) :
    (∃ t, next = some t ∧ start a < t
      ∧ sweep start stop next (a :: rows) = sweep start stop next rows)
    ∨ ((∀ t, next = some t → t ≤ start a)
      ∧ sweep start stop next (a :: rows) = a :: sweep start stop (some (stop a)) rows) := by
  cases next with
  | none => exact Or.inr ⟨by simp, sweep_cons_of_le (by simp)⟩
  | some t =>
    rcases lt_or_ge (start a) t with hlt | hle
    · exact Or.inl ⟨t, rfl, hlt, sweep_cons_of_lt hlt⟩
    · exact Or.inr ⟨by simpa using hle, sweep_cons_of_le (by simpa using hle)⟩

/-- The selected rows are among the rows, in their order. -/
theorem sweep_sublist (next : Option τ) (rows : List α) :
    (sweep start stop next rows).Sublist rows := by
  induction rows generalizing next with
  | nil => exact List.Sublist.slnil
  | cons a rest ih =>
    rcases sweep_cons start stop next a rest with ⟨t, -, -, heq⟩ | ⟨-, heq⟩
    · rw [heq]
      exact (ih next).cons a
    · rw [heq]
      exact (ih _).cons_cons a

/-- A selected row starts no earlier than the last selected one before it stops. -/
theorem le_start_of_mem_sweep (hwindow : ∀ b ∈ rows, start b ≤ stop b)
    (h : a ∈ sweep start stop (some t) rows) : t ≤ start a := by
  induction rows generalizing t with
  | nil => cases h
  | cons b rest ih =>
    have hrest : ∀ c ∈ rest, start c ≤ stop c := fun c hc => hwindow c (List.mem_cons_of_mem b hc)
    rcases sweep_cons start stop (some t) b rest with
      ⟨-, -, -, heq⟩ | ⟨hle, heq⟩
    · rw [heq] at h
      exact ih hrest h
    · rw [heq] at h
      have htb : t ≤ start b := hle t rfl
      rcases List.mem_cons.mp h with rfl | hmem
      · exact htb
      · exact (htb.trans (hwindow b List.mem_cons_self)).trans (ih hrest hmem)

/-- **Disjoint windows.** Each selected row stops before the ones selected after it start. -/
theorem pairwise_sweep (next : Option τ) (hwindow : ∀ b ∈ rows, start b ≤ stop b) :
    (sweep start stop next rows).Pairwise (fun a b => stop a ≤ start b) := by
  induction rows generalizing next with
  | nil => exact List.Pairwise.nil
  | cons a rest ih =>
    have hrest : ∀ c ∈ rest, start c ≤ stop c := fun c hc => hwindow c (List.mem_cons_of_mem a hc)
    rcases sweep_cons start stop next a rest with ⟨t, -, -, heq⟩ | ⟨-, heq⟩
    · rw [heq]
      exact ih next hrest
    · rw [heq, List.pairwise_cons]
      exact ⟨fun b hb => le_start_of_mem_sweep hrest hb, ih _ hrest⟩

/-- Rows with disjoint windows are all selected. -/
theorem sweep_of_pairwise (h : rows.Pairwise (fun a b => stop a ≤ start b))
    (hnext : ∀ t, next = some t → ∀ a ∈ rows, t ≤ start a) :
    sweep start stop next rows = rows := by
  induction rows generalizing next with
  | nil => rfl
  | cons a rest ih =>
    rw [List.pairwise_cons] at h
    rcases sweep_cons start stop next a rest with
      ⟨t, hsome, hlt, -⟩ | ⟨-, heq⟩
    · exact absurd (hnext t hsome a List.mem_cons_self) (not_le.mpr hlt)
    · rw [heq, ih h.2 (fun t ht b hb => ?_)]
      cases ht
      exact h.1 b hb

/-! ### One more row -/

/-- A row that starts too early changes nothing while no row has been selected since. -/
private theorem sweep_insert_of_lt
    (hsorted : (before ++ o :: after).Pairwise (fun a b => start a ≤ start b)) (ho : start o < t) :
    sweep start stop (some t) (before ++ o :: after)
      = sweep start stop (some t) (before ++ after) := by
  induction before with
  | nil => exact sweep_cons_of_lt ho
  | cons a before ih =>
    have hao : start a ≤ start o := List.rel_of_pairwise_cons hsorted (by simp)
    show sweep start stop (some t) (a :: (before ++ o :: after))
      = sweep start stop (some t) (a :: (before ++ after))
    rw [sweep_cons_of_lt (hao.trans_lt ho), sweep_cons_of_lt (hao.trans_lt ho), ih hsorted.of_cons]

/-- **One more row** that starts inside a selected window changes nothing. -/
theorem sweep_insert (hsorted : (before ++ o :: after).Pairwise (fun a b => start a ≤ start b))
    (hs : s ∈ sweep start stop next (before ++ after)) (hlo : start s < start o)
    (hhi : start o < stop s) :
    sweep start stop next (before ++ o :: after) = sweep start stop next (before ++ after) := by
  induction before generalizing next with
  | nil =>
    -- the rows after `o` do not start before it, so `s` is not one of them
    have hmem : s ∈ after := (sweep_sublist next after).subset hs
    exact absurd (List.rel_of_pairwise_cons hsorted hmem) (not_le.mpr hlo)
  | cons a before ih =>
    rw [List.cons_append] at hs ⊢
    rw [List.cons_append]
    rcases sweep_cons start stop next a (before ++ after) with
      ⟨t, rfl, hlt, heq⟩ | ⟨hle, heq⟩
    · rw [heq] at hs ⊢
      rw [sweep_cons_of_lt hlt]
      exact ih hsorted.of_cons hs
    · have hall : next.all (fun t => t ≤ start a) := by
        simpa [Option.all_eq_true] using hle
      rw [heq] at hs ⊢
      rw [sweep_cons_of_le hall]
      refine congrArg (a :: ·) ?_
      rcases List.mem_cons.mp hs with rfl | hmem
      · exact sweep_insert_of_lt hsorted.of_cons hhi
      · exact ih hsorted.of_cons hmem

/-! ### Rows that look alike -/

/-- What is selected depends on the windows only. -/
theorem map_sweep {β : Type} (start stop : α → τ) (f : α → β) (start' stop' : β → τ)
    (hstart : ∀ a, start' (f a) = start a) (hstop : ∀ a, stop' (f a) = stop a) (next : Option τ)
    (rows : List α) :
    (sweep start stop next rows).map f = sweep start' stop' next (rows.map f) := by
  induction rows generalizing next with
  | nil => rfl
  | cons a rest ih =>
    rcases sweep_cons start stop next a rest with
      ⟨t, rfl, hlt, heq⟩ | ⟨hle, heq⟩
    · rw [heq, List.map_cons, sweep_cons_of_lt (by rw [hstart]; exact hlt), ih]
    · have hall : next.all (fun t => t ≤ start' (f a)) := by
        simpa [Option.all_eq_true, hstart] using hle
      rw [heq, List.map_cons, List.map_cons, sweep_cons_of_le hall, hstop, ih]

end InefficiencyEngine
