import InefficiencyEngine.Lib.Durable
import Mathlib.Order.Nat

namespace InefficiencyEngine

open Durable

/-!
# Programs that draw numbers

A program draws names one after the other and counts how many it has drawn.  A `Numbering` says
when a write stays between two numbers, and which two writes are apart: those of which the first
stays below a number from which the second goes on.  The judgement `Drawn N lo m next` says that
`m`, which goes on from `lo`, makes writes that are apart in their order, and returns a value
whose number `next` is above all of them.  So no name is used again after it has been given away.
-/

/-- When a write stays between two numbers, and which writes are apart. -/
structure Numbering (W : Type) where
  Within : ℕ → ℕ → W → Prop
  Apart : W → W → Prop
  mono : ∀ {lo lo' hi hi' : ℕ} {w : W}, lo' ≤ lo → hi ≤ hi' → Within lo hi w → Within lo' hi' w
  apart : ∀ {lo mid hi : ℕ} {w w' : W}, Within lo mid w → Within mid hi w' → Apart w w'

namespace Prog

variable {S W ε α β σ : Type} [Durable S W] {N : Numbering W}

/-- The writes of a program that goes on from a number are apart, and below the number of the
    value it returns. -/
structure Drawn (N : Numbering W) (lo : ℕ) (m : Prog S W ε α) (next : α → ℕ) : Prop where
  apart : ∀ s, (m s).1.Pairwise N.Apart
  within : ∀ s, ∃ hi, lo ≤ hi ∧ (∀ w ∈ (m s).1, N.Within lo hi w)
    ∧ ∀ a, (m s).2 = .ok a → next a = hi

variable {lo : ℕ} {m : Prog S W ε α} {next : α → ℕ}

/-- Lists of writes between the same numbers can be put one after the other. -/
theorem pairwise_apart_append {mid hi : ℕ} {ws ws' : List W} (hws : ws.Pairwise N.Apart)
    (hws' : ws'.Pairwise N.Apart) (hwithin : ∀ w ∈ ws, N.Within lo mid w)
    (hwithin' : ∀ w ∈ ws', N.Within mid hi w) : (ws ++ ws').Pairwise N.Apart := by
  refine List.pairwise_append.mpr ⟨hws, hws', fun w hw w' hw' => ?_⟩
  exact N.apart (hwithin w hw) (hwithin' w' hw')

omit [Durable S W] in
/-- A program that draws nothing. -/
theorem drawn_of_emits (h : Emits (N.Within lo lo) m) : Drawn N lo m (fun _ => lo) := by
  refine ⟨fun s => ?_, fun s => ⟨lo, le_refl lo, h s, fun _ _ => rfl⟩⟩
  refine List.pairwise_of_forall_mem_list (fun w hw w' hw' => ?_)
  exact N.apart (h s w hw) (h s w' hw')

/-- A value that counts on. -/
theorem drawn_pure (a : α) (h : lo ≤ next a) :
    Drawn N lo (pure a : Prog S W ε α) next := by
  refine ⟨fun s => List.Pairwise.nil, fun s => ⟨next a, h, fun w hw => (by cases hw), ?_⟩⟩
  intro b hb
  injection hb with hb
  rw [← hb]

omit [Durable S W] in
/-- The last write of a count. -/
theorem drawn_write {w : W} {hi : ℕ} (hle : lo ≤ hi) (h : N.Within lo hi w) :
    Drawn N lo (write w : Prog S W ε Unit) (fun _ => hi) := by
  refine ⟨fun s => List.pairwise_singleton _ _, fun s => ⟨hi, hle, fun w' hw' => ?_, ?_⟩⟩
  · rw [List.mem_singleton.mp hw']
    exact h
  · exact fun _ _ => rfl

/-- **Sequence.** The second program goes on from where the first one is. If the first one
    raises, its own numbers are all there are; otherwise those of the second start where the
    first stopped, so none is drawn twice. -/
theorem drawn_bind {f : α → Prog S W ε β} {next' : β → ℕ} (hm : Drawn N lo m next)
    (hf : ∀ a, Drawn N (next a) (f a) next') : Drawn N lo (m >>= f) next' := by
  refine ⟨fun s => ?_, fun s => ?_⟩
  -- no two writes of the sequence share a number
  · rw [run_bind]
    obtain ⟨mid, -, hwithin, hmid⟩ := hm.within s
    cases hres : (m s).2 with
    | error e =>
      rw [List.append_nil]
      exact hm.apart s
    | ok a =>
      obtain ⟨hi, -, hwithin', -⟩ := (hf a).within (m.final s)
      rw [hmid a hres] at hwithin'
      exact pairwise_apart_append (hm.apart s) ((hf a).apart _) hwithin hwithin'
  -- all of its numbers lie between the start and the end
  · obtain ⟨mid, hlo, hwithin, hmid⟩ := hm.within s
    cases hres : (m s).2 with
    | error e =>
      refine ⟨mid, hlo, fun w hw => ?_, fun b hb => ?_⟩
      · rw [run_bind, hres, List.append_nil] at hw
        exact hwithin w hw
      · obtain ⟨a, ha, -⟩ := run_bind_eq_ok hb
        rw [hres] at ha
        cases ha
    | ok a =>
      obtain ⟨hi, hle, hwithin', hhi⟩ := (hf a).within (m.final s)
      rw [hmid a hres] at hle hwithin'
      refine ⟨hi, hlo.trans hle, fun w hw => ?_, fun b hb => ?_⟩
      · rw [run_bind, hres] at hw
        rcases List.mem_append.mp hw with hw | hw
        · exact N.mono (le_refl lo) hle (hwithin w hw)
        · exact N.mono hlo (le_refl hi) (hwithin' w hw)
      · obtain ⟨a', ha', hb', -⟩ := run_bind_eq_ok hb
        rw [hres] at ha'
        injection ha' with ha'
        rw [← ha'] at hb'
        exact hhi b hb'

/-- **Cleaning up** draws nothing. A cleanup that draws no number leaves the numbers drawn as
    they were, whether or not it runs. -/
theorem drawn_onError {cleanup : Prog S W ε Unit} (hm : Drawn N lo m next)
    (hcleanup : ∀ i, Emits (N.Within i i) cleanup) : Drawn N lo (onError m cleanup) next := by
  refine ⟨fun s => ?_, fun s => ?_⟩
  · obtain ⟨hi, -, hwithin, -⟩ := hm.within s
    rw [onError]
    cases hres : (m s).2 with
    | ok a => exact hm.apart s
    | error e =>
      exact pairwise_apart_append (hm.apart s) ((drawn_of_emits (hcleanup hi)).apart _) hwithin
        (hcleanup hi _)
  · obtain ⟨hi, hle, hwithin, hhi⟩ := hm.within s
    rw [onError]
    cases hres : (m s).2 with
    | ok a => exact ⟨hi, hle, hwithin, fun b hb => hhi b hb⟩
    | error e =>
      refine ⟨hi, hle, fun w hw => ?_, fun b hb => by cases hb⟩
      rcases List.mem_append.mp hw with hw | hw
      · exact hwithin w hw
      · exact N.mono hle (le_refl hi) (hcleanup hi _ w hw)

/-- **Loop rule.** Every iteration goes on from the number of the progress it starts with. -/
theorem drawn_foldlM {step : σ → α → Prog S W ε σ} {number : σ → ℕ}
    (h : ∀ t x, Drawn N (number t) (step t x) number) (xs : List α) (t : σ) :
    Drawn N (number t) (xs.foldlM step t) number := by
  induction xs generalizing t with
  | nil => exact drawn_pure t (le_refl _)
  | cons x rest ih =>
    rw [List.foldlM_cons]
    exact drawn_bind (h t x) ih

end Prog

end InefficiencyEngine
