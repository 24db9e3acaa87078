import InefficiencyEngine.Lib.Numbers
import Mathlib.Analysis.Real.Sqrt
import Mathlib.Probability.CDF
import Mathlib.Probability.Distributions.Gaussian.Real

namespace InefficiencyEngine

/-!
# The Wilson interval

The Wilson interval for a rate `p` of `n` trials.  Its lower end grows with the rate
(`wilsonLower_mono`), whatever the sign of the quantile `z`.  It lies between zero and one
(`wilson_nonneg`, `wilson_le_one`), and above a half it narrows with the rate
(`wilsonMargin_antitone`).  Without any failure its ends are fractions (`wilsonLower_one`).
-/

/-- The quantile function of the standard normal distribution. -/
noncomputable def normalInvCdf (p : ℝ) : ℝ :=
  sInf {x | p ≤ ProbabilityTheory.cdf (ProbabilityTheory.gaussianReal 0 1) x}

/-- The centre of the Wilson interval. -/
noncomputable def wilsonCenter (z n p : ℝ) : ℝ := (p + z * z / (2 * n)) / (1 + z * z / n)

/-- Half the width of the Wilson interval. -/
noncomputable def wilsonMargin (z n p : ℝ) : ℝ :=
  z * √(p * (1 - p) / n + z * z / (4 * n * n)) / (1 + z * z / n)

section Monotone

variable {z n p q : ℝ}

/-- The margin changes by no more than the rate. -/
theorem mul_sqrt_sub_le (hn : 0 < n) (hp : 0 ≤ p) (hpq : p ≤ q) (hq : q ≤ 1) :
    z * (√(q * (1 - q) / n + z * z / (4 * n * n)) - √(p * (1 - p) / n + z * z / (4 * n * n)))
      ≤ q - p := by
  have hbase : 0 ≤ z * z / (4 * n * n) := div_nonneg (mul_self_nonneg z) (by positivity)
  have hvar : ∀ r : ℝ, 0 ≤ r → r ≤ 1 → 0 ≤ r * (1 - r) / n := fun r hr hr1 =>
    div_nonneg (mul_nonneg hr (by linarith)) hn.le
  have hp1 : p ≤ 1 := hpq.trans hq
  have hq0 : 0 ≤ q := hp.trans hpq
  -- the root of the sum is at least that of its second part
  have hroot : ∀ r : ℝ, 0 ≤ r → r ≤ 1 →
      |z| ≤ 2 * n * √(r * (1 - r) / n + z * z / (4 * n * n)) := by
    intro r hr hr1
    have hle : √(z * z / (4 * n * n)) ≤ √(r * (1 - r) / n + z * z / (4 * n * n)) :=
      Real.sqrt_le_sqrt (by linarith [hvar r hr hr1])
    have heq : √(z * z / (4 * n * n)) = |z| / (2 * n) := by
      have hsq : z * z / (4 * n * n) = (|z| / (2 * n)) ^ 2 := by
        rw [div_pow, sq_abs]
        ring
      rw [hsq, Real.sqrt_sq (by positivity)]
    rw [heq, div_le_iff₀ (by positivity)] at hle
    linarith
  have hrootp := hroot p hp hp1
  have hrootq := hroot q hq0 hq
  have hsqp := Real.mul_self_sqrt (add_nonneg (hvar p hp hp1) hbase)
  have hsqq := Real.mul_self_sqrt (add_nonneg (hvar q hq0 hq) hbase)
  have hdiff : q * (1 - q) / n + z * z / (4 * n * n) - (p * (1 - p) / n + z * z / (4 * n * n))
      = (q - p) * (1 - p - q) / n := by
    field_simp
    ring
  have hs0 := Real.sqrt_nonneg (p * (1 - p) / n + z * z / (4 * n * n))
  have ht0 := Real.sqrt_nonneg (q * (1 - q) / n + z * z / (4 * n * n))
  generalize √(p * (1 - p) / n + z * z / (4 * n * n)) = s at *
  generalize √(q * (1 - q) / n + z * z / (4 * n * n)) = t at *
  have hproduct : n * ((t - s) * (s + t)) = (q - p) * (1 - p - q) := by
    have hsub : (t - s) * (s + t) = (q - p) * (1 - p - q) / n := by
      rw [← hdiff, ← hsqp, ← hsqq]
      ring
    rw [hsub]
    field_simp
  have hz : |z| ≤ n * (s + t) := by linarith
  have hbound : |(q - p) * (1 - p - q)| ≤ q - p := by
    rw [abs_mul, abs_of_nonneg (by linarith : 0 ≤ q - p)]
    have hone : |1 - p - q| ≤ 1 := abs_le.mpr ⟨by linarith, by linarith⟩
    nlinarith [abs_nonneg (1 - p - q)]
  calc z * (t - s) ≤ |z * (t - s)| := le_abs_self _
    _ = |z| * |t - s| := abs_mul _ _
    _ ≤ n * (s + t) * |t - s| := mul_le_mul_of_nonneg_right hz (abs_nonneg _)
    _ = |n * ((t - s) * (s + t))| := by
        rw [abs_mul, abs_mul, abs_of_pos hn, abs_of_nonneg (add_nonneg hs0 ht0)]
        ring
    _ ≤ q - p := by rw [hproduct]; exact hbound

/-- **The lower bound grows with the rate.** -/
theorem wilsonLower_mono (hn : 0 < n) (hp : 0 ≤ p) (hpq : p ≤ q) (hq : q ≤ 1) :
    wilsonCenter z n p - wilsonMargin z n p ≤ wilsonCenter z n q - wilsonMargin z n q := by
  have hden : 0 < 1 + z * z / n := by linarith [div_nonneg (mul_self_nonneg z) hn.le]
  have hmargin := mul_sqrt_sub_le (z := z) hn hp hpq hq
  unfold wilsonCenter wilsonMargin
  rw [← sub_div, ← sub_div]
  refine div_le_div_of_nonneg_right ?_ hden.le
  linarith

/-! ### The interval -/

theorem wilsonMargin_nonneg (hz : 0 ≤ z) (hn : 0 < n) : 0 ≤ wilsonMargin z n p := by
  unfold wilsonMargin
  positivity

/-- The root is at most `r + z² / 2n`, for a rate `r` or its rest. -/
private theorem mul_sqrt_le {r s : ℝ} (hz : 0 ≤ z) (hn : 0 < n) (hr : 0 ≤ r) (hs : 0 ≤ s)
    (hrs : r + s = 1) (hp : p * (1 - p) = r * s) :
    z * √(p * (1 - p) / n + z * z / (4 * n * n)) ≤ r + z * z / (2 * n) := by
  have hsum : 0 ≤ r + z * z / (2 * n) := by positivity
  have hs1 : s ≤ 1 := by linarith
  have hsq : (r * s / n + z * z / (4 * n * n)) * (z * z) ≤ (r + z * z / (2 * n)) ^ 2 := by
    have hexpand : (r + z * z / (2 * n)) ^ 2
        = (r * s / n + z * z / (4 * n * n)) * (z * z) + (r ^ 2 + r * (1 - s) * (z * z / n)) := by
      field_simp
      ring
    rw [hexpand]
    have hrest : 0 ≤ r * (1 - s) * (z * z / n) :=
      mul_nonneg (mul_nonneg hr (by linarith)) (by positivity)
    nlinarith [sq_nonneg r]
  have hroot : √((r * s / n + z * z / (4 * n * n)) * (z * z))
      = √(r * s / n + z * z / (4 * n * n)) * z := by
    rw [Real.sqrt_mul (by positivity), Real.sqrt_mul_self hz]
  rw [hp, mul_comm, ← hroot]
  exact Real.sqrt_le_iff.mpr ⟨hsum, hsq⟩

/-- The interval begins at zero or above. -/
theorem wilson_nonneg (hz : 0 ≤ z) (hn : 0 < n) (hp : 0 ≤ p) (hp1 : p ≤ 1) :
    0 ≤ wilsonCenter z n p - wilsonMargin z n p := by
  have hden : 0 < 1 + z * z / n := by positivity
  have hle := @mul_sqrt_le z n p p (1 - p) hz hn hp (sub_nonneg.mpr hp1) (by ring) rfl
  unfold wilsonCenter wilsonMargin
  rw [← sub_div]
  exact div_nonneg (sub_nonneg.mpr hle) hden.le

/-- The interval ends at one or below. -/
theorem wilson_le_one (hz : 0 ≤ z) (hn : 0 < n) (hp : 0 ≤ p) (hp1 : p ≤ 1) :
    wilsonCenter z n p + wilsonMargin z n p ≤ 1 := by
  have hden : 0 < 1 + z * z / n := by positivity
  have hle := @mul_sqrt_le z n p (1 - p) p hz hn (sub_nonneg.mpr hp1) hp (by ring) (mul_comm _ _)
  have hhalf : z * z / n = z * z / (2 * n) + z * z / (2 * n) := by
    field_simp
    ring
  unfold wilsonCenter wilsonMargin
  rw [← add_div, div_le_one hden]
  linarith

/-- A lower end from a half on is one of a rate from a half on. -/
theorem half_le_of_half_le_wilson (hz : 0 ≤ z) (hn : 0 < n)
    (h : 1 / 2 ≤ wilsonCenter z n p - wilsonMargin z n p) : 1 / 2 ≤ p := by
  have hden : 0 < 1 + z * z / n := by positivity
  have hcenter : 1 / 2 ≤ wilsonCenter z n p := by
    linarith [@wilsonMargin_nonneg z n p hz hn]
  have hhalf : z * z / n = 2 * (z * z / (2 * n)) := by
    field_simp
  rw [wilsonCenter, le_div_iff₀ hden] at hcenter
  linarith

/-- **Narrowing.** Above a half, the interval of a higher rate is narrower. -/
theorem wilsonMargin_antitone (hz : 0 ≤ z) (hn : 0 < n) (hp : 1 / 2 ≤ p) (hpq : p ≤ q) :
    wilsonMargin z n q ≤ wilsonMargin z n p := by
  have hden : 0 < 1 + z * z / n := by positivity
  unfold wilsonMargin
  refine div_le_div_of_nonneg_right (mul_le_mul_of_nonneg_left (Real.sqrt_le_sqrt ?_) hz) hden.le
  have hvar : q * (1 - q) ≤ p * (1 - p) := by nlinarith
  have hdiv := div_le_div_of_nonneg_right hvar hn.le
  linarith

/-- With no failure among the trials the margin has a closed form: the root is that of a square. -/
theorem wilsonMargin_one (hz : 0 ≤ z) (hn : 0 < n) :
    wilsonMargin z n 1 = z * z / (2 * (n + z * z)) := by
  have hroot : √((1 : ℝ) * (1 - 1) / n + z * z / (4 * n * n)) = z / (2 * n) := by
    rw [show (1 : ℝ) * (1 - 1) / n + z * z / (4 * n * n) = z / (2 * n) * (z / (2 * n)) by
      field_simp
      ring]
    exact Real.sqrt_mul_self (by positivity)
  unfold wilsonMargin
  rw [hroot]
  field_simp

/-- With no failure among the trials the interval begins at the share that the trials have beside
    `z²` further ones. -/
theorem wilsonLower_one (hz : 0 ≤ z) (hn : 0 < n) :
    wilsonCenter z n 1 - wilsonMargin z n 1 = n / (n + z * z) := by
  rw [wilsonMargin_one hz hn]
  unfold wilsonCenter
  field_simp
  ring

end Monotone

end InefficiencyEngine
