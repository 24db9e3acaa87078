import Mathlib.Data.List.Basic

namespace InefficiencyEngine

/-!
# Runs of a machine under a schedule

A system of several parties is a machine: a state, and what one action of one of the
parties does to it.  A schedule is a list of actions and so fixes the order in which the
parties take turns.  `Meets` restricts a schedule by a condition on each action in the
state it is taken in; an invariant that the actions meeting the condition keep holds in
every state such a schedule reaches (`run_invariant`).  A rank that actions lower leads a
run to its goal (`reaches_of_rank`).
-/

variable {σ α : Type} {step : σ → α → σ} {C D : σ → α → Prop}

/-- The state a schedule leads to. -/
def run (step : σ → α → σ) (s : σ) (schedule : List α) : σ := schedule.foldl step s

@[simp] theorem run_nil (s : σ) : run step s [] = s := rfl

@[simp] theorem run_cons (s : σ) (a : α) (rest : List α) :
    run step s (a :: rest) = run step (step s a) rest := rfl

theorem run_append (s : σ) (first second : List α) :
    run step s (first ++ second) = run step (run step s first) second :=
  List.foldl_append

/-- Every action of a schedule satisfies a condition in the state it is taken in. -/
def Meets (step : σ → α → σ) (C : σ → α → Prop) : σ → List α → Prop
  | _, [] => True
  | s, a :: rest => C s a ∧ Meets step C (step s a) rest

namespace Meets

instance decidable [∀ s a, Decidable (C s a)] : ∀ s schedule, Decidable (Meets step C s schedule)
  | _, [] => isTrue trivial
  | s, a :: rest => @instDecidableAnd _ _ _ (decidable (step s a) rest)

/-- Every schedule meets a condition that always holds. -/
theorem of_forall (h : ∀ s a, C s a) : ∀ s schedule, Meets step C s schedule
  | _, [] => trivial
  | s, a :: rest => ⟨h s a, of_forall h (step s a) rest⟩

/-- A schedule meets a condition that all of its actions satisfy in every state. -/
theorem of_mem {s : σ} {schedule : List α} (h : ∀ a ∈ schedule, ∀ t, C t a) :
    Meets step C s schedule := by
  induction schedule generalizing s with
  | nil => trivial
  | cons a rest ih =>
    exact ⟨h a List.mem_cons_self s, ih fun b hb => h b (List.mem_cons_of_mem a hb)⟩

theorem append {s : σ} {first second : List α} :
    Meets step C s (first ++ second)
      ↔ Meets step C s first ∧ Meets step C (run step s first) second := by
  induction first generalizing s with
  | nil => exact ⟨fun h => ⟨trivial, h⟩, fun h => h.2⟩
  | cons a rest ih =>
    rw [List.cons_append, Meets, Meets, ih, and_assoc]
    rfl

/-- Under an invariant that the actions of a schedule keep, one condition may imply another. -/
theorem imp {I : σ → Prop} (hstep : ∀ s a, I s → C s a → I (step s a))
    (himp : ∀ s a, I s → C s a → D s a) {s : σ} {schedule : List α} (hI : I s)
    (h : Meets step C s schedule) : Meets step D s schedule := by
  induction schedule generalizing s with
  | nil => trivial
  | cons a rest ih => exact ⟨himp s a hI h.1, ih (hstep s a hI h.1) h.2⟩

end Meets

/-- **Run invariant.** What every action meeting the condition keeps holds at the end of
    every run that meets it. -/
theorem run_invariant {I : σ → Prop} (hstep : ∀ s a, I s → C s a → I (step s a)) {s : σ}
    (hs : I s) {schedule : List α} (h : Meets step C s schedule) : I (run step s schedule) := by
  induction schedule generalizing s with
  | nil => exact hs
  | cons a rest ih => exact ih (hstep s a hs h.1) h.2

/-- **Progress by rank.** A rank that no action raises, and that some actions lower until a goal is
    reached, cannot be lowered more often than its value says. -/
theorem reaches_of_rank {R : ℕ → σ → Prop} {goal : σ → Prop} {lowers : α → Bool}
    (hkeep : ∀ m s a, R m s → R m (step s a) ∨ goal (step s a))
    (hlower : ∀ m s a, lowers a = true → R m s →
      goal (step s a) ∨ ∃ n, 0 < n ∧ n < m ∧ R n (step s a))
    {schedule : List α} {m : ℕ} {s : σ} (h : R m s)
    (henough : max 1 m ≤ schedule.countP lowers) :
    ∃ k ≤ schedule.length, goal (run step s (schedule.take k)) := by
  -- by induction on the schedule, for every rank
  induction schedule generalizing m s with
  | nil =>
    rw [List.countP_nil] at henough
    omega
  | cons a rest ih =>
    -- a goal reached in the rest is reached one action later
    have hlater : ∀ n, R n (step s a) → max 1 n ≤ rest.countP lowers →
        ∃ k ≤ (a :: rest).length, goal (run step s ((a :: rest).take k)) := by
      intro n hn hcount
      obtain ⟨k, hk, hgoal⟩ := ih hn hcount
      exact ⟨k + 1, Nat.succ_le_succ hk, hgoal⟩
    have hnow : goal (step s a) → ∃ k ≤ (a :: rest).length,
        goal (run step s ((a :: rest).take k)) :=
      fun hgoal => ⟨1, Nat.succ_le_succ (Nat.zero_le _), hgoal⟩
    -- an action that lowers the rank uses up one of the count
    by_cases ha : lowers a = true
    · rw [List.countP_cons_of_pos ha] at henough
      rcases hlower m s a ha h with hgoal | ⟨n, hpos, hlt, hn⟩
      · exact hnow hgoal
      · exact hlater n hn (by omega)
    -- another action leaves the rank, and so the count that the rest must have
    · rw [List.countP_cons_of_neg ha] at henough
      rcases hkeep m s a h with hm | hgoal
      · exact hlater m hm henough
      · exact hnow hgoal

end InefficiencyEngine
