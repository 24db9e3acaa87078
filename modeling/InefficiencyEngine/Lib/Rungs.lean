import Mathlib.Algebra.Order.Field.Basic
import Mathlib.Algebra.Order.BigOperators.Group.List
import Mathlib.Order.Bounds.Basic
import Mathlib.Tactic.FieldSimp
import Mathlib.Tactic.Linarith
import Mathlib.Tactic.Positivity
import Mathlib.Tactic.Ring

namespace InefficiencyEngine

/-!
# Taking a quantity from a ladder of rates

A ladder is a list of rungs, each with a size and a rate.  A quantity taken from it in order is
worth `worth`.  On a ladder of rising rates this is the least the quantity can be worth over all
ways of taking it (`worth_isLeast`), and what it is worth on average rises with it
(`worth_mul_le`): the exchange argument and the convexity both come from one lemma, that more
of a quantity is worth at least the lowest rate (`le_worth_sub`).  Ladders of falling rates are
ladders of rising ones with the rates negated.

A walk that stops once no more than dust is left takes `reach`, and is worth what it takes
(`walk_eq`).
-/

/-- How much can be taken, and what a unit of it is worth. -/
structure Rung (K : Type) where
  size : K
  rate : K

namespace Rung

variable {K : Type} [Field K] {r : Rung K} {rungs rest : List (Rung K)} {q q' p : K}

/-- The quantity of a ladder. -/
def depth (rungs : List (Rung K)) : K := (rungs.map Rung.size).sum

/-- The ladder with its rates negated. -/
def negate (rungs : List (Rung K)) : List (Rung K) := rungs.map (fun r => ⟨r.size, -r.rate⟩)

@[simp] theorem depth_nil : depth ([] : List (Rung K)) = 0 := rfl

@[simp] theorem depth_cons : depth (r :: rest) = r.size + depth rest := by
  simp [depth]

@[simp] theorem depth_negate : depth (negate rungs) = depth rungs := by
  simp [depth, negate, Function.comp_def]

variable [LinearOrder K]

/-- What a quantity is worth that is taken from the rungs in their order. -/
def worth : List (Rung K) → K → K
  | [], _ => 0
  | r :: rest, q => min q r.size * r.rate + worth rest (q - min q r.size)

/-- Every rung has something. -/
def Sized (rungs : List (Rung K)) : Prop := ∀ r ∈ rungs, 0 < r.size

/-- The rates rise. -/
def Rising (rungs : List (Rung K)) : Prop := rungs.Pairwise (fun a b => a.rate ≤ b.rate)

/-- The rates fall. -/
def Falling (rungs : List (Rung K)) : Prop := rungs.Pairwise (fun a b => b.rate ≤ a.rate)

@[simp] theorem worth_nil : worth ([] : List (Rung K)) q = 0 := rfl

/-- A quantity that fits on the first rung. -/
theorem worth_cons_of_le (h : q ≤ r.size) : worth (r :: rest) q = q * r.rate + worth rest 0 := by
  rw [worth, min_eq_left h, sub_self]

/-- A quantity that does not. -/
theorem worth_cons_of_lt (h : r.size < q) :
    worth (r :: rest) q = r.size * r.rate + worth rest (q - r.size) := by
  rw [worth, min_eq_right h.le]

@[simp] theorem worth_negate : worth (negate rungs) q = -worth rungs q := by
  induction rungs generalizing q with
  | nil => simp [negate]
  | cons r rest ih =>
    show min q r.size * -r.rate + worth (negate rest) (q - min q r.size) = _
    rw [ih, worth]
    ring

theorem Sized.tail (h : Sized (r :: rest)) : Sized rest :=
  fun r' hr' => h r' (List.mem_cons_of_mem _ hr')

theorem Sized.head (h : Sized (r :: rest)) : 0 < r.size := h r List.mem_cons_self

theorem Sized.negate (h : Sized rungs) : Sized (negate rungs) := by
  intro r hr
  obtain ⟨r', hr', rfl⟩ := List.mem_map.mp hr
  exact h r' hr'

/-- Nothing is worth nothing. -/
@[simp] theorem worth_zero (h : Sized rungs) : worth rungs 0 = 0 := by
  induction rungs with
  | nil => rfl
  | cons r rest ih => rw [worth_cons_of_le h.head.le, ih h.tail, zero_mul, add_zero]

variable [IsStrictOrderedRing K]

theorem depth_nonneg (h : Sized rungs) : 0 ≤ depth rungs := by
  refine List.sum_nonneg (fun x hx => ?_)
  obtain ⟨r, hr, rfl⟩ := List.mem_map.mp hx
  exact (h r hr).le

theorem Falling.negate (h : Falling rungs) : Rising (Rung.negate rungs) :=
  List.pairwise_map.mpr (h.imp (fun hle => neg_le_neg hle))

/-! ### More of a quantity -/

/-- **Increments.** More of a quantity is worth at least the lowest rate. -/
theorem le_worth_sub (hsized : Sized rungs) (hrate : ∀ r ∈ rungs, p ≤ r.rate) (hq : 0 ≤ q)
    (hle : q ≤ q') (hdepth : q' ≤ depth rungs) : p * (q' - q) ≤ worth rungs q' - worth rungs q := by
  induction rungs generalizing q q' with
  | nil =>
    have hzero : q' - q = 0 := by
      rw [depth_nil] at hdepth
      linarith
    simp [hzero]
  | cons r rest ih =>
    have hhead : p ≤ r.rate := hrate r List.mem_cons_self
    have htail : ∀ r' ∈ rest, p ≤ r'.rate := fun r' hr' => hrate r' (List.mem_cons_of_mem _ hr')
    have hsize := hsized.head
    rw [depth_cons] at hdepth
    rcases le_or_gt q' r.size with hfits | hover
    · -- both on the first rung
      rw [worth_cons_of_le hfits, worth_cons_of_le (hle.trans hfits)]
      have hgain := mul_le_mul_of_nonneg_right hhead (sub_nonneg.mpr hle)
      linarith
    · rcases le_or_gt q r.size with hfits | hover'
      · rw [worth_cons_of_lt hover, worth_cons_of_le hfits]
        have hrest := ih hsized.tail htail (le_refl 0) (sub_nonneg.mpr hover.le) (by linarith)
        have hgain := mul_le_mul_of_nonneg_right hhead (sub_nonneg.mpr hfits)
        rw [sub_zero] at hrest
        linarith
      · rw [worth_cons_of_lt hover, worth_cons_of_lt hover']
        have hrest := ih hsized.tail htail (sub_nonneg.mpr hover'.le)
          (sub_le_sub_right hle r.size) (by linarith)
        rw [sub_sub_sub_cancel_right] at hrest
        linarith

/-- More of a quantity is worth at most the highest rate. -/
theorem worth_sub_le (hsized : Sized rungs) (hrate : ∀ r ∈ rungs, r.rate ≤ p) (hq : 0 ≤ q)
    (hle : q ≤ q') (hdepth : q' ≤ depth rungs) : worth rungs q' - worth rungs q ≤ p * (q' - q) := by
  have hrate' : ∀ r ∈ negate rungs, -p ≤ r.rate := by
    intro r hr
    obtain ⟨r', hr', rfl⟩ := List.mem_map.mp hr
    exact neg_le_neg (hrate r' hr')
  have h := le_worth_sub hsized.negate hrate' hq hle (by rwa [depth_negate])
  rw [worth_negate, worth_negate] at h
  linarith

/-- Positive rates: more is worth more. -/
theorem worth_le_worth (hsized : Sized rungs) (hrate : ∀ r ∈ rungs, 0 ≤ r.rate) (hq : 0 ≤ q)
    (hle : q ≤ q') (hdepth : q' ≤ depth rungs) : worth rungs q ≤ worth rungs q' := by
  have h := le_worth_sub hsized hrate hq hle hdepth
  rw [zero_mul] at h
  linarith

/-- What exceeds the first rung is taken from the rest. -/
theorem worth_cons_add {x : K} (hx : 0 ≤ x) :
    worth (r :: rest) (r.size + x) = r.size * r.rate + worth rest x := by
  rw [worth, min_eq_right (le_add_of_nonneg_right hx), add_sub_cancel_left]

/-! ### What a quantity is worth on average -/

/-- **Convexity.** On rising rates, more is worth more on average. -/
theorem worth_mul_le (hsized : Sized rungs) (hrising : Rising rungs) (hq : 0 ≤ q) (hle : q ≤ q')
    (hdepth : q' ≤ depth rungs) : worth rungs q * q' ≤ worth rungs q' * q := by
  induction rungs generalizing q q' with
  | nil => simp
  | cons r rest ih =>
    obtain ⟨hhead, htail⟩ := List.pairwise_cons.mp hrising
    have hsize := hsized.head
    have hzero : worth rest 0 = 0 := worth_zero hsized.tail
    rw [depth_cons] at hdepth
    rcases le_or_gt q' r.size with hfits | hover
    · rw [worth_cons_of_le hfits, worth_cons_of_le (hle.trans hfits), hzero]
      exact le_of_eq (by ring)
    · rcases le_or_gt q r.size with hfits | hover'
      · -- the rest is worth at least the rate of the first rung
        rw [worth_cons_of_lt hover, worth_cons_of_le hfits, hzero]
        have hrest := le_worth_sub hsized.tail hhead (le_refl 0) (sub_nonneg.mpr hover.le)
          (by linarith)
        rw [hzero, sub_zero, sub_zero] at hrest
        have hgain := mul_le_mul_of_nonneg_right hrest hq
        linarith
      · rw [worth_cons_of_lt hover, worth_cons_of_lt hover']
        have hfirst : 0 ≤ q - r.size := sub_nonneg.mpr hover'.le
        have hsub : q - r.size ≤ q' - r.size := sub_le_sub_right hle r.size
        have hlast : q' - r.size ≤ depth rest := by linarith
        have hrest := ih hsized.tail htail hfirst hsub hlast
        have hmore := le_worth_sub hsized.tail hhead hfirst hsub hlast
        rw [sub_sub_sub_cancel_right] at hmore
        have hgain := mul_le_mul_of_nonneg_right hmore hsize.le
        linarith

/-- On falling rates, more is worth less on average. -/
theorem Falling.worth_mul_le (hsized : Sized rungs) (hfalling : Falling rungs) (hq : 0 ≤ q)
    (hle : q ≤ q') (hdepth : q' ≤ depth rungs) : worth rungs q' * q ≤ worth rungs q * q' := by
  have h := Rung.worth_mul_le hsized.negate hfalling.negate hq hle (by rwa [depth_negate])
  rw [worth_negate, worth_negate] at h
  linarith

/-! ### Ways of taking a quantity -/

/-- A way of taking a quantity from the rungs of a ladder: how much of each, in total, and what it
    is worth. -/
structure Way (rungs : List (Rung K)) (takes : List K) (q w : K) : Prop where
  fits : List.Forall₂ (fun r x => 0 ≤ x ∧ x ≤ r.size) rungs takes
  total : takes.sum = q
  value : (List.zipWith (fun r x => x * r.rate) rungs takes).sum = w

/-- What a quantity can be worth. -/
def worths (rungs : List (Rung K)) (q : K) : Set K := {w | ∃ takes, Way rungs takes q w}

/-- A way begins on the first rung. -/
theorem mem_worths_cons {w : K} :
    w ∈ worths (r :: rest) q ↔ ∃ x, 0 ≤ x ∧ x ≤ r.size ∧ w - x * r.rate ∈ worths rest (q - x) := by
  constructor
  · rintro ⟨takes, hfits, htotal, hvalue⟩
    cases hfits with
    | cons hx hrest =>
      rw [List.sum_cons] at htotal
      rw [List.zipWith_cons_cons, List.sum_cons] at hvalue
      exact ⟨_, hx.1, hx.2, _, hrest, by linarith, by linarith⟩
  · rintro ⟨x, hx, hsize, takes, hfits, htotal, hvalue⟩
    refine ⟨x :: takes, List.Forall₂.cons ⟨hx, hsize⟩ hfits, ?_, ?_⟩
    · rw [List.sum_cons, htotal]
      ring
    · rw [List.zipWith_cons_cons, List.sum_cons, hvalue]
      ring

omit [IsStrictOrderedRing K] in
theorem mem_worths_nil {w : K} : w ∈ worths ([] : List (Rung K)) q ↔ q = 0 ∧ w = 0 := by
  constructor
  · rintro ⟨takes, hfits, htotal, hvalue⟩
    cases hfits
    exact ⟨htotal.symm, hvalue.symm⟩
  · rintro ⟨rfl, rfl⟩
    exact ⟨[], List.Forall₂.nil, rfl, rfl⟩

/-- What a quantity can be worth does not depend on the order of the rungs. -/
theorem worths_perm {rungs' : List (Rung K)} (h : rungs.Perm rungs') :
    worths rungs q = worths rungs' q := by
  induction h generalizing q with
  | nil => rfl
  | cons r _ ih =>
    ext w
    rw [mem_worths_cons, mem_worths_cons]
    simp only [ih]
  | swap r r' rest =>
    ext w
    simp only [mem_worths_cons]
    constructor
    · rintro ⟨x, hx, hxs, y, hy, hys, hrest⟩
      refine ⟨y, hy, hys, x, hx, hxs, ?_⟩
      rwa [sub_right_comm q, sub_right_comm w] at hrest
    · rintro ⟨y, hy, hys, x, hx, hxs, hrest⟩
      refine ⟨x, hx, hxs, y, hy, hys, ?_⟩
      rwa [sub_right_comm q, sub_right_comm w] at hrest
  | trans _ _ ih ih' => exact ih.trans ih'

/-- Negated rates negate what a quantity can be worth. -/
theorem neg_mem_worths_negate {w : K} (h : w ∈ worths rungs q) :
    -w ∈ worths (negate rungs) q := by
  induction rungs generalizing q w with
  | nil =>
    obtain ⟨rfl, rfl⟩ := mem_worths_nil.mp h
    exact mem_worths_nil.mpr ⟨rfl, neg_zero⟩
  | cons r rest ih =>
    obtain ⟨x, hx, hsize, hrest⟩ := mem_worths_cons.mp h
    refine mem_worths_cons.mpr ⟨x, hx, hsize, ?_⟩
    have hneg := ih hrest
    rw [show -w - x * -r.rate = -(w - x * r.rate) by ring]
    exact hneg

/-- No way takes more than there is, or less than nothing. -/
theorem bounds_of_mem_worths {w : K} (h : w ∈ worths rungs q) : 0 ≤ q ∧ q ≤ depth rungs := by
  induction rungs generalizing q w with
  | nil =>
    rw [(mem_worths_nil.mp h).1]
    exact ⟨le_refl 0, le_refl 0⟩
  | cons r rest ih =>
    obtain ⟨x, hx, hsize, hrest⟩ := mem_worths_cons.mp h
    obtain ⟨hlow, hhigh⟩ := ih hrest
    rw [depth_cons]
    exact ⟨by linarith, by linarith⟩

/-- Taking the rungs in order is a way. -/
theorem worth_mem_worths (hsized : Sized rungs) (hq : 0 ≤ q) (hdepth : q ≤ depth rungs) :
    worth rungs q ∈ worths rungs q := by
  induction rungs generalizing q with
  | nil => exact mem_worths_nil.mpr ⟨le_antisymm hdepth hq, rfl⟩
  | cons r rest ih =>
    rw [depth_cons] at hdepth
    refine mem_worths_cons.mpr ⟨min q r.size, le_min hq hsized.head.le, min_le_right _ _, ?_⟩
    have hrest : q - min q r.size ≤ depth rest := by
      rcases min_choice q r.size with h | h
      · rw [h, sub_self]
        exact depth_nonneg hsized.tail
      · rw [h]
        linarith
    rw [worth, add_sub_cancel_left]
    exact ih hsized.tail (sub_nonneg.mpr (min_le_left _ _)) hrest

/-- **Optimality.** On rising rates, the quantity taken in order is worth the least it can be. -/
theorem worth_isLeast (hsized : Sized rungs) (hrising : Rising rungs) (hq : 0 ≤ q)
    (hdepth : q ≤ depth rungs) : IsLeast (worths rungs q) (worth rungs q) := by
  refine ⟨worth_mem_worths hsized hq hdepth, ?_⟩
  clear hq hdepth
  intro w hw
  induction rungs generalizing q w with
  | nil => rw [(mem_worths_nil.mp hw).2, worth_nil]
  | cons r rest ih =>
    obtain ⟨hhead, htail⟩ := List.pairwise_cons.mp hrising
    have hbounds := (bounds_of_mem_worths hw).1
    obtain ⟨x, hx, hsize, hrest⟩ := mem_worths_cons.mp hw
    obtain ⟨hlow, hhigh⟩ := bounds_of_mem_worths hrest
    -- what the way leaves on the first rung it takes at higher rates
    have hleft : x ≤ min q r.size := le_min (by linarith) hsize
    have hbest := ih hsized.tail htail hrest
    have hmore := le_worth_sub hsized.tail hhead (sub_nonneg.mpr (min_le_left q r.size))
      (sub_le_sub_left hleft q) hhigh
    rw [worth]
    linarith

/-- On falling rates it is worth the most. -/
theorem Falling.worth_isGreatest (hsized : Sized rungs) (hfalling : Falling rungs) (hq : 0 ≤ q)
    (hdepth : q ≤ depth rungs) : IsGreatest (worths rungs q) (worth rungs q) := by
  refine ⟨worth_mem_worths hsized hq hdepth, fun w hw => ?_⟩
  have h := (worth_isLeast hsized.negate hfalling.negate hq (by rwa [depth_negate])).2
    (neg_mem_worths_negate hw)
  rw [worth_negate] at h
  linarith

/-! ### Walks that stop at dust -/

/-- The accumulators of a walk. -/
structure Walk (K : Type) where
  remaining : K
  taken : K
  worth : K
  steps : ℕ

/-- One rung of a walk. -/
def Walk.take (s : Walk K) (r : Rung K) : Walk K where
  remaining := s.remaining - min s.remaining r.size
  taken := s.taken + min s.remaining r.size
  worth := s.worth + min s.remaining r.size * r.rate
  steps := s.steps + 1

/-- The walk over a ladder, which stops once no more than dust remains. -/
def walk (dust : K) : List (Rung K) → Walk K → Walk K
  | [], s => s
  | r :: rest, s => if s.remaining ≤ dust then s else walk dust rest (s.take r)

/-- How much of a quantity a walk takes. -/
def reach (dust : K) : List (Rung K) → K → K
  | [], _ => 0
  | r :: rest, q =>
    if q ≤ dust then 0 else min q r.size + reach dust rest (q - min q r.size)

/-- How many rungs it visits. -/
def steps (dust : K) : List (Rung K) → K → ℕ
  | [], _ => 0
  | r :: rest, q => if q ≤ dust then 0 else steps dust rest (q - min q r.size) + 1

variable {dust : K}

omit [IsStrictOrderedRing K] in
theorem reach_of_le (h : q ≤ dust) : reach dust rungs q = 0 := by
  cases rungs with
  | nil => rfl
  | cons r rest => rw [reach, if_pos h]

omit [IsStrictOrderedRing K] in
/-- A quantity that fits on the first rung is taken whole. -/
theorem reach_cons_of_le (hdust : 0 ≤ dust) (hq : dust < q) (hfits : q ≤ r.size) :
    reach dust (r :: rest) q = q := by
  rw [reach, if_neg (not_le.mpr hq), min_eq_left hfits, sub_self, reach_of_le hdust, add_zero]

omit [IsStrictOrderedRing K] in
/-- Of any other the first rung is taken. -/
theorem reach_cons_of_lt (hq : dust < q) (hover : r.size < q) :
    reach dust (r :: rest) q = r.size + reach dust rest (q - r.size) := by
  rw [reach, if_neg (not_le.mpr hq), min_eq_right hover.le]

/-- A walk takes no more than it is asked, and no more than there is. -/
theorem reach_bounds (hdust : 0 ≤ dust) (hsized : Sized rungs) (hq : 0 ≤ q) :
    0 ≤ reach dust rungs q ∧ reach dust rungs q ≤ q ∧ reach dust rungs q ≤ depth rungs := by
  induction rungs generalizing q with
  | nil => exact ⟨le_refl 0, hq, le_refl 0⟩
  | cons r rest ih =>
    have hdepth := depth_nonneg hsized.tail
    have hsize := hsized.head
    rw [depth_cons]
    rcases le_or_gt q dust with hle | hgt
    · rw [reach_of_le hle]
      exact ⟨le_refl 0, hq, by linarith⟩
    · rcases le_or_gt q r.size with hfits | hover
      · rw [reach_cons_of_le hdust hgt hfits]
        exact ⟨hq, le_refl q, by linarith⟩
      · obtain ⟨hlow, hasked, hthere⟩ := ih hsized.tail (sub_nonneg.mpr hover.le)
        rw [reach_cons_of_lt hgt hover]
        exact ⟨by linarith, by linarith, by linarith⟩

/-- **Reach.** A walk leaves no more than dust, or takes all there is. -/
theorem reach_spec (hdust : 0 ≤ dust) (hsized : Sized rungs) (hq : 0 ≤ q) :
    q - reach dust rungs q ≤ dust ∨ reach dust rungs q = depth rungs := by
  induction rungs generalizing q with
  | nil => exact Or.inr rfl
  | cons r rest ih =>
    rcases le_or_gt q dust with hle | hgt
    · rw [reach_of_le hle, sub_zero]
      exact Or.inl hle
    · rcases le_or_gt q r.size with hfits | hover
      · rw [reach_cons_of_le hdust hgt hfits, sub_self]
        exact Or.inl hdust
      · rw [reach_cons_of_lt hgt hover, depth_cons, ← sub_sub]
        rcases ih hsized.tail (sub_nonneg.mpr hover.le) with h | h
        · exact Or.inl h
        · exact Or.inr (by rw [h])

/-- A walk for more than dust takes something. -/
theorem reach_pos (hdust : 0 ≤ dust) (hsized : Sized rungs) (hne : rungs ≠ []) (hq : dust < q) :
    0 < reach dust rungs q := by
  cases rungs with
  | nil => exact absurd rfl hne
  | cons r rest =>
    rcases le_or_gt q r.size with hfits | hover
    · rw [reach_cons_of_le hdust hq hfits]
      exact lt_of_le_of_lt hdust hq
    · have hrest := (reach_bounds hdust hsized.tail (sub_nonneg.mpr hover.le)).1
      rw [reach_cons_of_lt hq hover]
      exact add_pos_of_pos_of_nonneg hsized.head hrest

/-- **Monotonicity.** A walk for more takes more. -/
theorem reach_le_reach (hdust : 0 ≤ dust) (hsized : Sized rungs) (hq : 0 ≤ q) (hle : q ≤ q') :
    reach dust rungs q ≤ reach dust rungs q' := by
  induction rungs generalizing q q' with
  | nil => exact le_refl 0
  | cons r rest ih =>
    rcases le_or_gt q dust with hdusty | hgt
    · rw [reach_of_le hdusty]
      exact (reach_bounds hdust hsized (hq.trans hle)).1
    · have hgt' : dust < q' := lt_of_lt_of_le hgt hle
      rcases le_or_gt q' r.size with hfits | hover
      · rw [reach_cons_of_le hdust hgt (hle.trans hfits), reach_cons_of_le hdust hgt' hfits]
        exact hle
      · rw [reach_cons_of_lt hgt' hover]
        rcases le_or_gt q r.size with hfits | hover'
        · have hrest := (reach_bounds hdust hsized.tail (sub_nonneg.mpr hover.le)).1
          rw [reach_cons_of_le hdust hgt hfits]
          linarith
        · rw [reach_cons_of_lt hgt hover']
          have hrest := ih hsized.tail (sub_nonneg.mpr hover'.le) (sub_le_sub_right hle r.size)
          linarith

/-- **Walks.** A walk takes its reach from the rungs it visits, and is worth what it takes. -/
theorem walk_eq (hdust : 0 ≤ dust) (hsized : Sized rungs) (s : Walk K) (hs : 0 ≤ s.remaining) :
    walk dust rungs s =
      { remaining := s.remaining - reach dust rungs s.remaining
        taken := s.taken + reach dust rungs s.remaining
        worth := s.worth + worth rungs (reach dust rungs s.remaining)
        steps := s.steps + steps dust rungs s.remaining } := by
  induction rungs generalizing s with
  | nil => simp [walk, reach, steps]
  | cons r rest ih =>
    rcases le_or_gt s.remaining dust with hle | hgt
    -- what is left is dust: the walk stops
    · rw [walk, if_pos hle, reach_of_le hle, worth_zero hsized, steps, if_pos hle]
      simp
    · have hnonneg : 0 ≤ s.remaining - min s.remaining r.size :=
        sub_nonneg.mpr (min_le_left _ _)
      have hrest := ih hsized.tail (s.take r) hnonneg
      rw [walk, if_neg (not_le.mpr hgt), hrest, steps, if_neg (not_le.mpr hgt)]
      -- the rung covers the rest, or is used up
      rcases le_or_gt s.remaining r.size with hfits | hover
      · have hzero : reach dust rest 0 = 0 := reach_of_le hdust
        simp only [Walk.take, min_eq_left hfits, sub_self, hzero, worth_zero hsized.tail,
          reach_cons_of_le hdust hgt hfits, worth_cons_of_le hfits, add_zero, Walk.mk.injEq,
          true_and]
        omega
      · have hpos := (reach_bounds hdust hsized.tail (sub_nonneg.mpr hover.le)).1
        simp only [Walk.take, min_eq_right hover.le, reach_cons_of_lt hgt hover,
          worth_cons_add hpos, Walk.mk.injEq]
        refine ⟨?_, ?_, ?_, ?_⟩
        · ring
        · ring
        · ring
        · omega

/-! ### The rungs a walk visits -/

omit [IsStrictOrderedRing K] in
/-- A walk for more than dust visits something. -/
theorem steps_pos (hne : rungs ≠ []) (hq : dust < q) : 0 < steps dust rungs q := by
  cases rungs with
  | nil => exact absurd rfl hne
  | cons r rest =>
    rw [steps, if_neg (not_le.mpr hq)]
    omega

/-- What is taken comes from the rungs visited. -/
theorem reach_le_depth_take :
    reach dust rungs q ≤ depth (rungs.take (steps dust rungs q)) := by
  induction rungs generalizing q with
  | nil => exact le_refl 0
  | cons r rest ih =>
    rcases le_or_gt q dust with hle | hgt
    · rw [reach_of_le hle, steps, if_pos hle, List.take_zero, depth_nil]
    · rw [reach, steps, if_neg (not_le.mpr hgt), if_neg (not_le.mpr hgt), List.take_succ_cons,
        depth_cons]
      exact add_le_add (min_le_right _ _) ih

omit [IsStrictOrderedRing K] in
theorem Sized.take (h : Sized rungs) (k : ℕ) : Sized (rungs.take k) :=
  fun r hr => h r (List.mem_of_mem_take hr)

/-- A quantity that the first rungs hold is worth the same on them. -/
theorem worth_take (hsized : Sized rungs) {k : ℕ} (hq : 0 ≤ q) (hdepth : q ≤ depth (rungs.take k)) :
    worth rungs q = worth (rungs.take k) q := by
  induction rungs generalizing q k with
  | nil => rw [List.take_nil]
  | cons r rest ih =>
    cases k with
    | zero =>
      rw [List.take_zero, depth_nil] at hdepth
      rw [le_antisymm hdepth hq, worth_zero hsized, List.take_zero, worth_nil]
    | succ k =>
      rw [List.take_succ_cons, depth_cons] at hdepth
      rw [List.take_succ_cons]
      rcases le_or_gt q r.size with hfits | hover
      · rw [worth_cons_of_le hfits, worth_cons_of_le hfits, worth_zero hsized.tail,
          worth_zero (hsized.tail.take k)]
      · rw [worth_cons_of_lt hover, worth_cons_of_lt hover,
          ih hsized.tail (sub_nonneg.mpr hover.le) (by linarith)]

/-! ### Ladders turned around -/

/-- Every rung is worth something. -/
def Rated (rungs : List (Rung K)) : Prop := ∀ r ∈ rungs, 0 < r.rate

/-- The ladder by worth: a rung is as large as it is worth, at the reciprocal rate. -/
def flip (rungs : List (Rung K)) : List (Rung K) :=
  rungs.map (fun r => ⟨r.size * r.rate, r.rate⁻¹⟩)

omit [IsStrictOrderedRing K] in
theorem Rated.tail (h : Rated (r :: rest)) : Rated rest :=
  fun r' hr' => h r' (List.mem_cons_of_mem _ hr')

omit [IsStrictOrderedRing K] in
theorem Rated.head (h : Rated (r :: rest)) : 0 < r.rate := h r List.mem_cons_self

theorem Sized.flip (hsized : Sized rungs) (hrated : Rated rungs) : Sized (Rung.flip rungs) := by
  intro r hr
  obtain ⟨r', hr', rfl⟩ := List.mem_map.mp hr
  exact mul_pos (hsized r' hr') (hrated r' hr')

theorem Rated.flip (hrated : Rated rungs) : Rated (Rung.flip rungs) := by
  intro r hr
  obtain ⟨r', hr', rfl⟩ := List.mem_map.mp hr
  exact inv_pos.mpr (hrated r' hr')

/-- Rising rates turn into falling ones. -/
theorem Rising.flip (hrated : Rated rungs) (hrising : Rising rungs) : Falling (Rung.flip rungs) := by
  refine List.pairwise_map.mpr (List.Pairwise.imp_of_mem ?_ hrising)
  exact fun ha hb hle => inv_anti₀ (hrated _ ha) hle

omit [IsStrictOrderedRing K] in
/-- Turning a ladder around twice gives it back. -/
theorem flip_flip (hrated : Rated rungs) : flip (flip rungs) = rungs := by
  rw [flip, flip, List.map_map]
  refine (List.map_congr_left (fun r hr => ?_)).trans (List.map_id rungs)
  have hne := (hrated r hr).ne'
  show (⟨r.size * r.rate * r.rate⁻¹, r.rate⁻¹⁻¹⟩ : Rung K) = r
  rw [mul_assoc, mul_inv_cancel₀ hne, mul_one, inv_inv]

/-- What all there is is worth. -/
theorem depth_flip (hsized : Sized rungs) : depth (flip rungs) = worth rungs (depth rungs) := by
  induction rungs with
  | nil => rfl
  | cons r rest ih =>
    rw [depth_cons, worth_cons_add (depth_nonneg hsized.tail), ← ih hsized.tail]
    exact depth_cons

/-- **Inverse.** What a quantity is worth buys it back on the ladder turned around. -/
theorem worth_flip_worth (hsized : Sized rungs) (hrated : Rated rungs) (hq : 0 ≤ q)
    (hdepth : q ≤ depth rungs) : worth (flip rungs) (worth rungs q) = q := by
  induction rungs generalizing q with
  | nil => exact le_antisymm hq hdepth
  | cons r rest ih =>
    rw [depth_cons] at hdepth
    have hne := hrated.head.ne'
    have htail : Sized (flip rest) := hsized.tail.flip hrated.tail
    show worth (⟨r.size * r.rate, r.rate⁻¹⟩ :: flip rest) _ = q
    rcases le_or_gt q r.size with hfits | hover
    · have hless : q * r.rate ≤ r.size * r.rate :=
        mul_le_mul_of_nonneg_right hfits hrated.head.le
      rw [worth_cons_of_le hfits, worth_zero hsized.tail, add_zero, worth_cons_of_le hless,
        worth_zero htail, add_zero, mul_assoc, mul_inv_cancel₀ hne, mul_one]
    · have hrest : 0 ≤ q - r.size := sub_nonneg.mpr hover.le
      have hsome : 0 ≤ worth rest (q - r.size) := by
        have h := worth_le_worth hsized.tail (fun r' hr' => (hrated.tail r' hr').le) (le_refl 0)
          hrest (by linarith)
        rwa [worth_zero hsized.tail] at h
      have hback : worth (⟨r.size * r.rate, r.rate⁻¹⟩ :: flip rest)
          (r.size * r.rate + worth rest (q - r.size))
          = r.size * r.rate * r.rate⁻¹ + worth (flip rest) (worth rest (q - r.size)) :=
        worth_cons_add hsome
      rw [worth_cons_of_lt hover, hback, ih hsized.tail hrated.tail hrest (by linarith), mul_assoc,
        mul_inv_cancel₀ hne, mul_one]
      ring

/-- What a worth buys is worth it. -/
theorem worth_worth_flip (hsized : Sized rungs) (hrated : Rated rungs) {w : K} (hw : 0 ≤ w)
    (hdepth : w ≤ depth (flip rungs)) : worth rungs (worth (flip rungs) w) = w := by
  have h := worth_flip_worth (hsized.flip hrated) hrated.flip hw hdepth
  rwa [flip_flip hrated] at h

/-- The first rungs hold no more than all of them. -/
theorem depth_take_le (hsized : Sized rungs) (k : ℕ) : depth (rungs.take k) ≤ depth rungs := by
  have hsum : depth rungs = depth (rungs.take k) + depth (rungs.drop k) := by
    rw [← List.take_append_drop k rungs]
    simp [depth]
  have hrest : 0 ≤ depth (rungs.drop k) :=
    depth_nonneg (fun r hr => hsized r (List.mem_of_mem_drop hr))
  linarith

/-- A worth is positive where something is taken. -/
theorem worth_pos (hsized : Sized rungs) (hrated : Rated rungs) (hq : 0 < q)
    (hdepth : q ≤ depth rungs) : 0 < worth rungs q := by
  have hnonneg : 0 ≤ worth rungs q := by
    have h := worth_le_worth hsized (fun r hr => (hrated r hr).le) (le_refl 0) hq.le hdepth
    rwa [worth_zero hsized] at h
  refine lt_of_le_of_ne hnonneg (fun hzero => hq.ne ?_)
  have hback := worth_flip_worth hsized hrated hq.le hdepth
  rw [← hzero, worth_zero (hsized.flip hrated)] at hback
  exact hback

/-- **Walking back.** A walk over the ladder turned around, for what a quantity is worth, takes
    all of the worth but dust, and so gets back the quantity but for what dust buys at the lowest
    rate. -/
theorem walk_back (hdust : 0 ≤ dust) (hsized : Sized rungs) (hrated : Rated rungs) {k : ℕ}
    (hq : 0 ≤ q) (hdepth : q ≤ depth (rungs.take k)) (hrate : ∀ r ∈ rungs.take k, p ≤ r.rate) :
    worth (flip rungs) (reach dust (flip rungs) (worth rungs q)) ≤ q
      ∧ worth rungs q - reach dust (flip rungs) (worth rungs q) ≤ dust
      ∧ p * (q - worth (flip rungs) (reach dust (flip rungs) (worth rungs q))) ≤ dust
      ∧ worth rungs (worth (flip rungs) (reach dust (flip rungs) (worth rungs q)))
        = reach dust (flip rungs) (worth rungs q) := by
  have hall := hdepth.trans (depth_take_le hsized k)
  have hflip := hsized.flip hrated
  have hworth : 0 ≤ worth rungs q := by
    have h := worth_le_worth hsized (fun r hr => (hrated r hr).le) (le_refl 0) hq hall
    rwa [worth_zero hsized] at h
  have htop : worth rungs q ≤ depth (flip rungs) := by
    rw [depth_flip hsized]
    exact worth_le_worth hsized (fun r hr => (hrated r hr).le) hq hall (le_refl _)
  obtain ⟨hlow, hasked, hthere⟩ := reach_bounds hdust hflip hworth
  have hleft : worth rungs q - reach dust (flip rungs) (worth rungs q) ≤ dust := by
    rcases reach_spec hdust hflip hworth with h | h
    · exact h
    · rw [h]
      linarith
  have hback := worth_worth_flip hsized hrated hlow hthere
  have hless : worth (flip rungs) (reach dust (flip rungs) (worth rungs q)) ≤ q := by
    have h := worth_le_worth hflip (fun r hr => (hrated.flip r hr).le) hlow hasked htop
    rwa [worth_flip_worth hsized hrated hq hall] at h
  have hsome : 0 ≤ worth (flip rungs) (reach dust (flip rungs) (worth rungs q)) := by
    have h := worth_le_worth hflip (fun r hr => (hrated.flip r hr).le) (le_refl 0) hlow hthere
    rwa [worth_zero hflip] at h
  refine ⟨hless, hleft, ?_, hback⟩
  -- on the rungs visited, the quantity missing is worth at least the lowest rate
  have hgain := le_worth_sub (hsized.take k) hrate hsome hless hdepth
  rw [← worth_take hsized hq hdepth, ← worth_take hsized hsome (hless.trans hdepth), hback] at hgain
  exact hgain.trans hleft

end Rung

end InefficiencyEngine
