import InefficiencyEngine.Lib.Numbers
import Mathlib.Algebra.Order.Field.Basic
import Mathlib.Tactic.Linarith
import Mathlib.Tactic.Ring
import InefficiencyEngine.Lib.Loop

namespace InefficiencyEngine

/-!
# Bisection of what is accepted

An amount is examined, which may raise, and what is found is accepted or not.  Bisection keeps a
bracket: the amount found acceptable last, what was found there, and an amount that is not
acceptable (`Brackets`).  Each step halves it, so the search ends within the tolerance where the
number of steps allows (`Brackets.bisect`).  Where acceptance is downward closed, nothing above the
bracket is accepted (`Brackets.le_of_accepts`).
-/

/-- The ends of a search, and what was found at the lower one. -/
structure Bracket (K T : Type) where
  low : K
  high : K
  best : T

variable {K T ε : Type} [Field K] [LinearOrder K]

/-- At most so many halvings of a bracket, until it is no wider than the tolerance. -/
def bisect (examine : K → Except ε T) (accept : T → Bool) (tolerance : K) :
    ℕ → Bracket K T → Except ε (Bracket K T)
  | 0, b => .ok b
  | steps + 1, b =>
    if b.high - b.low ≤ tolerance then .ok b
    else do
      let mid := (b.low + b.high) / 2
      let candidate ← examine mid
      if accept candidate then
        bisect examine accept tolerance steps { b with low := mid, best := candidate }
      else
        bisect examine accept tolerance steps { b with high := mid }

/-- An amount that is examined and accepted. -/
def Accepts (examine : K → Except ε T) (accept : T → Bool) (x : K) : Prop :=
  ∃ found, examine x = .ok found ∧ accept found

/-- What a search keeps of its bracket. -/
structure Brackets (examine : K → Except ε T) (accept : T → Bool) (b : Bracket K T) : Prop where
  le : b.low ≤ b.high
  examined : examine b.low = .ok b.best
  accepted : accept b.best
  rejected : ¬ Accepts examine accept b.high

variable {examine : K → Except ε T} {accept : T → Bool} {tolerance : K} {b b' : Bracket K T}
  {steps : ℕ}

omit [Field K] in
theorem Brackets.accepts_low (h : Brackets examine accept b) : Accepts examine accept b.low :=
  ⟨b.best, h.examined, h.accepted⟩

omit [Field K] in
/-- **Frontier.** Where acceptance is downward closed, nothing above a bracket is accepted. -/
theorem Brackets.le_of_accepts (h : Brackets examine accept b)
    (hclosed : ∀ {x y}, b.low ≤ x → x ≤ y → Accepts examine accept y → Accepts examine accept x)
    {x : K} (hx : Accepts examine accept x) : x ≤ b.high := by
  by_contra hlt
  exact h.rejected (hclosed h.le (not_le.mp hlt).le hx)

variable [IsStrictOrderedRing K]

/-- The middle of a bracket lies in it, half its width from either end. -/
theorem Bracket.mid_mem (hle : b.low ≤ b.high) :
    b.low ≤ (b.low + b.high) / 2 ∧ (b.low + b.high) / 2 ≤ b.high
      ∧ (b.high - (b.low + b.high) / 2) * 2 = b.high - b.low
      ∧ ((b.low + b.high) / 2 - b.low) * 2 = b.high - b.low := by
  refine ⟨by linarith, by linarith, by ring, by ring⟩

/-- **Bisection.** A search narrows its bracket, to the tolerance or by a half each step. -/
theorem Brackets.bisect (h : Brackets examine accept b)
    (hok : InefficiencyEngine.bisect examine accept tolerance steps b = .ok b') :
    Brackets examine accept b' ∧ b.low ≤ b'.low ∧ b'.high ≤ b.high
      ∧ (b'.high - b'.low ≤ tolerance ∨ (b'.high - b'.low) * 2 ^ steps = b.high - b.low) := by
  induction steps generalizing b with
  | zero =>
    cases hok
    exact ⟨h, le_refl _, le_refl _, Or.inr (by ring)⟩
  | succ steps ih =>
    rw [InefficiencyEngine.bisect] at hok
    by_cases hnarrow : b.high - b.low ≤ tolerance
    · rw [if_pos hnarrow] at hok
      cases hok
      exact ⟨h, le_refl _, le_refl _, Or.inl hnarrow⟩
    · rw [if_neg hnarrow] at hok
      obtain ⟨candidate, hmid, hok⟩ := bind_eq_ok hok
      obtain ⟨hlow, hhigh, hupper, hlower⟩ := Bracket.mid_mem h.le
      by_cases haccept : accept candidate
      · -- the upper half is left
        rw [if_pos haccept] at hok
        have hhalf : Brackets examine accept ⟨(b.low + b.high) / 2, b.high, candidate⟩ :=
          ⟨hhigh, hmid, haccept, h.rejected⟩
        obtain ⟨hbrackets, hlow', hhigh', hwidth⟩ := ih hhalf hok
        refine ⟨hbrackets, hlow.trans hlow', hhigh', hwidth.imp_right (fun hhalf => ?_)⟩
        rw [pow_succ, ← mul_assoc, hhalf]
        exact hupper
      · rw [if_neg haccept] at hok
        have hrejected : ¬ Accepts examine accept ((b.low + b.high) / 2) := by
          rintro ⟨found, hfound, hgood⟩
          rw [hmid] at hfound
          cases hfound
          exact haccept hgood
        have hhalf : Brackets examine accept ⟨b.low, (b.low + b.high) / 2, b.best⟩ :=
          ⟨hlow, h.examined, h.accepted, hrejected⟩
        obtain ⟨hbrackets, hlow', hhigh', hwidth⟩ := ih hhalf hok
        refine ⟨hbrackets, hlow', hhigh'.trans hhigh, hwidth.imp_right (fun hhalf => ?_)⟩
        rw [pow_succ, ← mul_assoc, hhalf]
        exact hlower

/-- A search over at most `2 ^ steps` times the tolerance ends within it. -/
theorem Brackets.width_bisect (h : Brackets examine accept b)
    (hok : InefficiencyEngine.bisect examine accept tolerance steps b = .ok b')
    (hrange : b.high - b.low ≤ 2 ^ steps * tolerance) : b'.high - b'.low ≤ tolerance := by
  obtain ⟨-, -, -, hwidth | hhalf⟩ := h.bisect hok
  · exact hwidth
  · have hpow : (0 : K) < 2 ^ steps := pow_pos two_pos steps
    rw [← hhalf, mul_comm] at hrange
    exact le_of_mul_le_mul_left hrange hpow

end InefficiencyEngine
