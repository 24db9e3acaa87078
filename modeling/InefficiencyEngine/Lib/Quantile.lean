import Mathlib.Algebra.Order.Field.Basic
import Mathlib.Algebra.Order.Floor.Semiring
import Mathlib.Data.List.Count
import Mathlib.Data.List.GetD
import Mathlib.Data.List.Sort
import Mathlib.Tactic.Linarith
import Mathlib.Tactic.Ring

namespace InefficiencyEngine

/-!
# Interpolated quantiles

The `q`-quantile of a list lies between two neighbours of the sorted list (`lowerRank`,
`upperRank`).  What a list looks like sorted is read off how many of its values are at most a
number (`orderStatistic_le_iff`); so a greater value raises every quantile (`quantileOf_replace`),
and a further value moves it down if it is no greater than the lower neighbour, and up if it is no
less than the upper one (`quantileOf_insert_le`, `le_quantileOf_insert`).
-/

variable {K : Type} [Field K] [LinearOrder K]

/-- The value of a rank, the smallest value having rank zero. -/
def orderStatistic (values : List K) (i : ℕ) : K := (values.insertionSort (· ≤ ·)).getD i 0

variable {values others before after : List K} {x y t q : K} {i j : ℕ}

omit [Field K] in
/-- Of a sorted list the values up to a number come first. -/
private theorem getD_le_iff (hsorted : values.Pairwise (· ≤ ·)) (hi : i < values.length) (d : K) :
    values.getD i d ≤ t ↔ i < values.countP (· ≤ t) := by
  induction values generalizing i with
  | nil => simp at hi
  | cons first rest ih =>
    obtain ⟨hfirst, hrest⟩ := List.pairwise_cons.mp hsorted
    by_cases hle : first ≤ t
    · rw [List.countP_cons_of_pos (by simpa using hle)]
      cases i with
      | zero => simpa using hle
      | succ i =>
        rw [List.getD_cons_succ, ih hrest (by simpa using hi)]
        omega
    · -- then no value is up to the number
      have hnone : (first :: rest).countP (· ≤ t) = 0 := by
        rw [List.countP_eq_zero]
        intro value hvalue hsmall
        rcases List.mem_cons.mp hvalue with rfl | hmem
        · exact hle (by simpa using hsmall)
        · exact hle ((hfirst value hmem).trans (by simpa using hsmall))
      rw [hnone]
      refine iff_of_false (fun hsmall => hle ?_) (Nat.not_lt_zero i)
      cases i with
      | zero => simpa using hsmall
      | succ i =>
        have hi' : i < rest.length := by simpa using hi
        rw [List.getD_cons_succ, List.getD_eq_getElem _ _ hi'] at hsmall
        exact (hfirst _ (List.getElem_mem hi')).trans hsmall

/-- **Ranks are counts.** The value of a rank is at most a number if more values than the rank are. -/
theorem orderStatistic_le_iff (hi : i < values.length) :
    orderStatistic values i ≤ t ↔ i < values.countP (· ≤ t) := by
  have hperm : (values.insertionSort (· ≤ ·)).Perm values := List.perm_insertionSort _ _
  rw [← hperm.countP_eq]
  exact getD_le_iff (List.pairwise_insertionSort _ _) (by rw [hperm.length_eq]; exact hi) 0

/-- The value of a rank is one of the values. -/
theorem orderStatistic_mem (hi : i < values.length) : orderStatistic values i ∈ values := by
  have hperm : (values.insertionSort (· ≤ ·)).Perm values := List.perm_insertionSort _ _
  unfold orderStatistic
  rw [List.getD_eq_getElem _ _ (by rwa [hperm.length_eq]), ← hperm.mem_iff]
  exact List.getElem_mem _

theorem orderStatistic_le_orderStatistic (hij : i ≤ j) (hj : j < values.length) :
    orderStatistic values i ≤ orderStatistic values j := by
  rw [orderStatistic_le_iff (lt_of_le_of_lt hij hj)]
  exact lt_of_le_of_lt hij ((orderStatistic_le_iff hj).mp (le_refl _))

/-- Fewer values up to any number are greater values. -/
theorem orderStatistic_mono (hlength : values.length = others.length)
    (hcount : ∀ t, others.countP (· ≤ t) ≤ values.countP (· ≤ t)) (hi : i < values.length) :
    orderStatistic values i ≤ orderStatistic others i := by
  rw [orderStatistic_le_iff hi]
  have hothers : i < others.length := by rwa [hlength] at hi
  exact lt_of_lt_of_le ((orderStatistic_le_iff hothers).mp (le_refl _)) (hcount _)

/-! ### One more value -/

omit [Field K] in
theorem countP_insert :
    (before ++ x :: after).countP (· ≤ t)
      = (before ++ after).countP (· ≤ t) + if x ≤ t then 1 else 0 := by
  by_cases h : x ≤ t <;> simp [h, Nat.add_assoc]

theorem orderStatistic_insert_le (hi : i < (before ++ after).length) :
    orderStatistic (before ++ x :: after) i ≤ orderStatistic (before ++ after) i := by
  rw [orderStatistic_le_iff (by simp at hi ⊢; omega), countP_insert]
  exact Nat.lt_add_right _ ((orderStatistic_le_iff hi).mp (le_refl _))

theorem le_orderStatistic_insert_succ (hi : i < (before ++ after).length) :
    orderStatistic (before ++ after) i ≤ orderStatistic (before ++ x :: after) (i + 1) := by
  have hself := (@orderStatistic_le_iff K _ _ (before ++ x :: after)
    (orderStatistic (before ++ x :: after) (i + 1)) (i + 1) (by simp at hi ⊢; omega)).mp (le_refl _)
  rw [orderStatistic_le_iff hi]
  rw [countP_insert] at hself
  split at hself <;> omega

/-- A value no greater than one of the others moves it to the next rank. -/
theorem orderStatistic_insert_succ_le (hi : i < (before ++ after).length)
    (hx : x ≤ orderStatistic (before ++ after) i) :
    orderStatistic (before ++ x :: after) (i + 1) ≤ orderStatistic (before ++ after) i := by
  rw [orderStatistic_le_iff (by simp at hi ⊢; omega), countP_insert, if_pos hx]
  exact Nat.succ_lt_succ ((orderStatistic_le_iff hi).mp (le_refl _))

/-- A value no less than one of the others leaves its rank. -/
theorem le_orderStatistic_insert (hi : i < (before ++ after).length)
    (hx : orderStatistic (before ++ after) i ≤ x) :
    orderStatistic (before ++ after) i ≤ orderStatistic (before ++ x :: after) i := by
  have hself := (@orderStatistic_le_iff K _ _ (before ++ x :: after)
    (orderStatistic (before ++ x :: after) i) i (by simp at hi ⊢; omega)).mp (le_refl _)
  rw [countP_insert] at hself
  split at hself
  · rename_i hle
    exact hx.trans hle
  · exact (orderStatistic_le_iff hi).mpr hself

/-! ### Between two neighbours -/

/-- A value between two others. -/
def between (a b f : K) : K := a + (b - a) * f

variable [IsStrictOrderedRing K] {a b c d f g : K}

theorem between_le_between (hac : a ≤ c) (hbd : b ≤ d) (hf : 0 ≤ f) (hf1 : f ≤ 1) :
    between a b f ≤ between c d f := by
  have hlow := mul_le_mul_of_nonneg_right hac (sub_nonneg.mpr hf1)
  have hhigh := mul_le_mul_of_nonneg_right hbd hf
  unfold between
  linarith

theorem between_le_of_le (hab : a ≤ b) (hfg : f ≤ g) : between a b f ≤ between a b g :=
  add_le_add_right (mul_le_mul_of_nonneg_left hfg (sub_nonneg.mpr hab)) a

theorem le_between (hab : a ≤ b) (hf : 0 ≤ f) : a ≤ between a b f :=
  le_add_of_nonneg_right (mul_nonneg (sub_nonneg.mpr hab) hf)

theorem between_le (hab : a ≤ b) (hf : f ≤ 1) : between a b f ≤ b := by
  have h := mul_le_of_le_one_right (sub_nonneg.mpr hab) hf
  unfold between
  linarith

omit [LinearOrder K] [IsStrictOrderedRing K] in
@[simp] theorem between_self : between a a f = a := by
  simp [between]

/-! ### Quantiles -/

variable [FloorSemiring K]

/-- Where the quantile is in the sorted list. -/
def quantilePosition (values : List K) (q : K) : K :=
  ((values.length - 1 : ℕ) : K) * min 1 (max 0 q)

/-- The rank below the quantile. -/
def lowerRank (values : List K) (q : K) : ℕ := ⌊quantilePosition values q⌋₊

/-- The rank above the quantile. -/
def upperRank (values : List K) (q : K) : ℕ := min (lowerRank values q + 1) (values.length - 1)

/-- The quantile of a list that is not empty. -/
def quantileOf (values : List K) (q : K) : K :=
  between (orderStatistic values (lowerRank values q)) (orderStatistic values (upperRank values q))
    (quantilePosition values q - lowerRank values q)

theorem quantilePosition_bounds (values : List K) (q : K) :
    0 ≤ quantilePosition values q ∧ quantilePosition values q ≤ (values.length - 1 : ℕ) := by
  have hlow : 0 ≤ min 1 (max 0 q) := le_min zero_le_one (le_max_left 0 q)
  refine ⟨mul_nonneg (Nat.cast_nonneg _) hlow, ?_⟩
  exact mul_le_of_le_one_right (Nat.cast_nonneg _) (min_le_left _ _)

theorem lowerRank_lt (hvalues : values ≠ []) : lowerRank values q < values.length := by
  have hpos : 0 < values.length := List.length_pos_iff.mpr hvalues
  have hfloor := Nat.floor_le_of_le (quantilePosition_bounds values q).2
  show ⌊quantilePosition values q⌋₊ < values.length
  omega

omit [IsStrictOrderedRing K] in
theorem upperRank_lt (hvalues : values ≠ []) : upperRank values q < values.length := by
  have hpos : 0 < values.length := List.length_pos_iff.mpr hvalues
  unfold upperRank
  omega

theorem lowerRank_le_upperRank (hvalues : values ≠ []) :
    lowerRank values q ≤ upperRank values q := by
  have hlt := @lowerRank_lt K _ _ values q _ _ hvalues
  unfold upperRank
  omega

theorem fraction_bounds (values : List K) (q : K) :
    0 ≤ quantilePosition values q - lowerRank values q
      ∧ quantilePosition values q - lowerRank values q ≤ 1 := by
  have hfloor := Nat.floor_le (quantilePosition_bounds values q).1
  have hceil := (Nat.lt_floor_add_one (quantilePosition values q)).le
  exact ⟨sub_nonneg.mpr hfloor, by unfold lowerRank; linarith⟩

theorem neighbours_le (hvalues : values ≠ []) :
    orderStatistic values (lowerRank values q) ≤ orderStatistic values (upperRank values q) :=
  orderStatistic_le_orderStatistic (lowerRank_le_upperRank hvalues) (upperRank_lt hvalues)

/-- A number that no value exceeds is not exceeded by the quantile. -/
theorem quantileOf_le (hvalues : values ≠ []) (h : ∀ x ∈ values, x ≤ t) :
    quantileOf values q ≤ t :=
  (between_le (neighbours_le hvalues) (fraction_bounds values q).2).trans
    (h _ (orderStatistic_mem (upperRank_lt hvalues)))

/-- A number that exceeds no value does not exceed the quantile. -/
theorem le_quantileOf (hvalues : values ≠ []) (h : ∀ x ∈ values, t ≤ x) :
    t ≤ quantileOf values q :=
  (h _ (orderStatistic_mem (lowerRank_lt hvalues))).trans
    (le_between (neighbours_le hvalues) (fraction_bounds values q).1)

/-- **Greater values** have greater quantiles. -/
theorem quantileOf_mono (hvalues : values ≠ []) (hlength : values.length = others.length)
    (hcount : ∀ t, others.countP (· ≤ t) ≤ values.countP (· ≤ t)) :
    quantileOf values q ≤ quantileOf others q := by
  have hposition : quantilePosition values q = quantilePosition others q := by
    rw [quantilePosition, quantilePosition, hlength]
  have hlower : lowerRank values q = lowerRank others q := by
    rw [lowerRank, lowerRank, hposition]
  have hupper : upperRank values q = upperRank others q := by
    rw [upperRank, upperRank, hlower, hlength]
  unfold quantileOf
  rw [← hposition, ← hlower, ← hupper]
  obtain ⟨hlow, hhigh⟩ := fraction_bounds values q
  exact between_le_between (orderStatistic_mono hlength hcount (lowerRank_lt hvalues))
    (orderStatistic_mono hlength hcount (upperRank_lt hvalues)) hlow hhigh

/-- **A greater value** raises the quantile. -/
theorem quantileOf_replace (hxy : x ≤ y) :
    quantileOf (before ++ x :: after) q ≤ quantileOf (before ++ y :: after) q := by
  refine quantileOf_mono (by simp) (by simp) (fun t => ?_)
  rw [countP_insert, countP_insert]
  by_cases hy : y ≤ t
  · rw [if_pos hy, if_pos (hxy.trans hy)]
  · rw [if_neg hy]
    omega

/-- The quantile of one value more is at the same rank or at the next one. -/
theorem lowerRank_insert (hrest : before ++ after ≠ []) (hq : 0 ≤ q) (hq1 : q ≤ 1) :
    quantilePosition (before ++ x :: after) q = quantilePosition (before ++ after) q + q
      ∧ (lowerRank (before ++ x :: after) q = lowerRank (before ++ after) q
        ∨ lowerRank (before ++ x :: after) q = lowerRank (before ++ after) q + 1) := by
  -- the clamp does not matter for a quantile between zero and one
  have hclamp : min 1 (max 0 q) = q := by rw [max_eq_right hq, min_eq_right hq1]
  have hlength : (before ++ x :: after).length - 1 = ((before ++ after).length - 1) + 1 := by
    have hpos : 0 < (before ++ after).length := List.length_pos_iff.mpr hrest
    simp at hpos ⊢
    omega
  have hposition : quantilePosition (before ++ x :: after) q
      = quantilePosition (before ++ after) q + q := by
    rw [quantilePosition, quantilePosition, hlength, hclamp]
    push_cast
    ring
  refine ⟨hposition, ?_⟩
  obtain ⟨hnonneg, -⟩ := quantilePosition_bounds (before ++ after) q
  -- the rank does not fall, as the position grows by the quantile
  have hlow : lowerRank (before ++ after) q ≤ lowerRank (before ++ x :: after) q := by
    refine Nat.floor_le_floor ?_
    rw [hposition]
    exact le_add_of_nonneg_right hq
  -- and it grows by one at most, as the quantile is at most one
  have hhigh : lowerRank (before ++ x :: after) q < lowerRank (before ++ after) q + 2 := by
    have hlt := Nat.lt_floor_add_one (quantilePosition (before ++ after) q)
    refine (Nat.floor_lt (by rw [hposition]; exact add_nonneg hnonneg hq)).mpr ?_
    rw [hposition]
    push_cast
    unfold lowerRank
    linarith
  omega

/-- **A low value** moves the quantile down: one that is no greater than the lower neighbour. -/
theorem quantileOf_insert_le (hrest : before ++ after ≠ []) (hq : 0 ≤ q) (hq1 : q ≤ 1)
    (hx : x ≤ orderStatistic (before ++ after) (lowerRank (before ++ after) q)) :
    quantileOf (before ++ x :: after) q ≤ quantileOf (before ++ after) q := by
  have hlt := @lowerRank_lt K _ _ (before ++ after) q _ _ hrest
  obtain ⟨hposition, hranks⟩ := @lowerRank_insert K _ _ before after x q _ _ hrest hq hq1
  obtain ⟨hf, hf1⟩ := fraction_bounds (before ++ after) q
  obtain ⟨hg, hg1⟩ := fraction_bounds (before ++ x :: after) q
  have hneighbours := @neighbours_le K _ _ (before ++ after) q _ _ hrest
  have hlength : (before ++ x :: after).length = (before ++ after).length + 1 := by
    simp
    omega
  rcases hranks with hsame | hnext
  · -- both neighbours are now at most the lower one
    have hupper : upperRank (before ++ x :: after) q = lowerRank (before ++ after) q + 1 := by
      rw [upperRank, hsame, hlength]
      omega
    calc quantileOf (before ++ x :: after) q
        ≤ between (orderStatistic (before ++ after) (lowerRank (before ++ after) q))
          (orderStatistic (before ++ after) (lowerRank (before ++ after) q))
          (quantilePosition (before ++ x :: after) q - lowerRank (before ++ x :: after) q) := by
          unfold quantileOf
          rw [hupper]
          refine between_le_between ?_ (orderStatistic_insert_succ_le hlt hx) hg hg1
          rw [hsame]
          exact orderStatistic_insert_le hlt
      _ = orderStatistic (before ++ after) (lowerRank (before ++ after) q) := between_self
      _ ≤ quantileOf (before ++ after) q := le_between hneighbours hf
  · -- the neighbours are the old ones, and the quantile is nearer to the lower one
    have hhigh : orderStatistic (before ++ x :: after) (upperRank (before ++ x :: after) q)
        ≤ orderStatistic (before ++ after) (upperRank (before ++ after) q) := by
      by_cases hlast : lowerRank (before ++ after) q + 1 < (before ++ after).length
      · have hupper : upperRank (before ++ x :: after) q = lowerRank (before ++ after) q + 1 + 1 := by
          rw [upperRank, hnext, hlength]
          omega
        have hupper' : upperRank (before ++ after) q = lowerRank (before ++ after) q + 1 := by
          rw [upperRank]
          omega
        rw [hupper, hupper']
        refine orderStatistic_insert_succ_le hlast (hx.trans ?_)
        exact orderStatistic_le_orderStatistic (Nat.le_succ _) hlast
      · have hupper : upperRank (before ++ x :: after) q = lowerRank (before ++ after) q + 1 := by
          rw [upperRank, hnext, hlength]
          omega
        rw [hupper]
        exact (orderStatistic_insert_succ_le hlt hx).trans hneighbours
    have hlow : orderStatistic (before ++ x :: after) (lowerRank (before ++ x :: after) q)
        ≤ orderStatistic (before ++ after) (lowerRank (before ++ after) q) := by
      rw [hnext]
      exact orderStatistic_insert_succ_le hlt hx
    unfold quantileOf
    refine (between_le_between hlow hhigh hg hg1).trans (between_le_of_le hneighbours ?_)
    rw [hposition, hnext]
    push_cast
    linarith

/-- **A high value** moves the quantile up: one that is no less than the upper neighbour. -/
theorem le_quantileOf_insert (hrest : before ++ after ≠ []) (hq : 0 ≤ q) (hq1 : q ≤ 1)
    (hx : orderStatistic (before ++ after) (upperRank (before ++ after) q) ≤ x) :
    quantileOf (before ++ after) q ≤ quantileOf (before ++ x :: after) q := by
  have hlt := @lowerRank_lt K _ _ (before ++ after) q _ _ hrest
  have hult := @upperRank_lt K _ _ (before ++ after) q _ hrest
  obtain ⟨hposition, hranks⟩ := @lowerRank_insert K _ _ before after x q _ _ hrest hq hq1
  obtain ⟨hf, hf1⟩ := fraction_bounds (before ++ after) q
  obtain ⟨hg, hg1⟩ := fraction_bounds (before ++ x :: after) q
  have hneighbours := @neighbours_le K _ _ (before ++ after) q _ _ hrest
  have hlength : (before ++ x :: after).length = (before ++ after).length + 1 := by
    simp
    omega
  -- the rank after the lower one has at least the upper neighbour
  have hnextRank : orderStatistic (before ++ after) (upperRank (before ++ after) q)
      ≤ orderStatistic (before ++ x :: after) (lowerRank (before ++ after) q + 1) := by
    by_cases hlast : lowerRank (before ++ after) q + 1 < (before ++ after).length
    · have hupper : upperRank (before ++ after) q = lowerRank (before ++ after) q + 1 := by
        rw [upperRank]
        omega
      rw [hupper] at hx ⊢
      exact le_orderStatistic_insert hlast hx
    · have hupper : upperRank (before ++ after) q = lowerRank (before ++ after) q := by
        rw [upperRank]
        omega
      rw [hupper]
      exact le_orderStatistic_insert_succ hlt
  rcases hranks with hsame | hnext
  · -- the neighbours are no less than the old ones, and the quantile is nearer to the upper one
    have hupper : upperRank (before ++ x :: after) q = lowerRank (before ++ after) q + 1 := by
      rw [upperRank, hsame, hlength]
      omega
    have hlow : orderStatistic (before ++ after) (lowerRank (before ++ after) q)
        ≤ orderStatistic (before ++ x :: after) (lowerRank (before ++ x :: after) q) := by
      rw [hsame]
      exact le_orderStatistic_insert hlt (hneighbours.trans hx)
    unfold quantileOf
    rw [hupper]
    refine (between_le_of_le hneighbours ?_).trans (between_le_between hlow hnextRank hg hg1)
    rw [hposition, hsame]
    linarith
  · -- both neighbours are at least the upper one
    have hnext' := @neighbours_le K _ _ (before ++ x :: after) q _ _ (by simp)
    calc quantileOf (before ++ after) q
        ≤ orderStatistic (before ++ after) (upperRank (before ++ after) q) :=
          between_le hneighbours hf1
      _ ≤ orderStatistic (before ++ x :: after) (lowerRank (before ++ x :: after) q) := by
          rw [hnext]
          exact hnextRank
      _ ≤ quantileOf (before ++ x :: after) q := le_between hnext' hg

end InefficiencyEngine
