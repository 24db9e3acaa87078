import Mathlib.Tactic.NormNum
import Mathlib.Data.Nat.Notation

namespace InefficiencyEngine.Calendar

/-!
# The proleptic Gregorian calendar

Dates and their ordinals: the ordinal of the first of January of the year 1 is 1.  A date is
found again from its ordinal (`ofOrdinal_spec`), and the ordinals of dates are in the order
of year, month and day (`toOrdinal_lt_iff`).
-/

/-! ### Years and months -/

/-- A leap year. -/
def isLeap (year : ℕ) : Bool := year % 4 = 0 && (year % 100 ≠ 0 || year % 400 = 0)

/-- The days before the first of January of a year. -/
def daysBeforeYear (year : ℕ) : ℕ :=
  (year - 1) * 365 + (year - 1) / 4 - (year - 1) / 100 + (year - 1) / 400

/-- The days of the months before a month, in a year that is leap or not. -/
def daysBeforeMonth (leap : Bool) (month : ℕ) : ℕ :=
  [0, 31, 59, 90, 120, 151, 181, 212, 243, 273, 304, 334].getD (month - 1) 0
    + if leap ∧ 2 < month then 1 else 0

/-- The days of a month, in a year that is leap or not. -/
def daysInMonth (leap : Bool) (month : ℕ) : ℕ :=
  [31, 28, 31, 30, 31, 30, 31, 31, 30, 31, 30, 31].getD (month - 1) 0
    + if leap ∧ month = 2 then 1 else 0

/-- The days of a year that is leap or not. -/
def daysInYear (leap : Bool) : ℕ := if leap then 366 else 365

theorem isLeap_iff (year : ℕ) :
    isLeap year = true ↔ year % 4 = 0 ∧ (year % 100 ≠ 0 ∨ year % 400 = 0) := by
  simp [isLeap]

theorem daysBeforeYear_succ {year : ℕ} (hyear : 1 ≤ year) :
    daysBeforeYear (year + 1) = daysBeforeYear year + daysInYear (isLeap year) := by
  obtain ⟨k, rfl⟩ := Nat.exists_eq_add_of_le' hyear
  have hiff := isLeap_iff (k + 1)
  have hquarter : k / 100 ≤ k / 4 := by omega
  unfold daysBeforeYear daysInYear
  -- each of the three quotients grows by one exactly at its multiples
  rw [Nat.add_sub_cancel, Nat.add_sub_cancel, Nat.succ_div, Nat.succ_div, Nat.succ_div]
  simp only [Nat.dvd_iff_mod_eq_zero]
  by_cases hleap : isLeap (k + 1) = true
  · rw [if_pos hleap]
    obtain ⟨h4, h100 | h400⟩ := hiff.mp hleap
    · have h400 : (k + 1) % 400 ≠ 0 := by omega
      rw [if_pos h4, if_neg h100, if_neg h400]
      omega
    · have h100 : (k + 1) % 100 = 0 := by omega
      rw [if_pos h4, if_pos h100, if_pos h400]
      omega
  · rw [if_neg hleap]
    by_cases h4 : (k + 1) % 4 = 0
    · have hnot : ¬ ((k + 1) % 100 ≠ 0 ∨ (k + 1) % 400 = 0) := fun h => hleap (hiff.mpr ⟨h4, h⟩)
      have h100 : (k + 1) % 100 = 0 := by omega
      have h400 : (k + 1) % 400 ≠ 0 := by omega
      rw [if_pos h4, if_pos h100, if_neg h400]
      omega
    · have h100 : (k + 1) % 100 ≠ 0 := by omega
      have h400 : (k + 1) % 400 ≠ 0 := by omega
      rw [if_neg h4, if_neg h100, if_neg h400]
      omega

/-- The days of a year are over before a later year. -/
theorem daysBeforeYear_le {year year' : ℕ} (hyear : 1 ≤ year) (hlt : year < year') :
    daysBeforeYear year + daysInYear (isLeap year) ≤ daysBeforeYear year' := by
  induction year', hlt using Nat.le_induction with
  | base => exact (daysBeforeYear_succ hyear).ge
  | succ year' hle ih =>
    have hstep : daysBeforeYear (year' + 1) = _ := daysBeforeYear_succ (by omega)
    omega

/-- The days of a month are over before a later month. -/
theorem daysBeforeMonth_le (leap : Bool) : ∀ month < 13, ∀ month' < 13, 1 ≤ month → month < month' →
    daysBeforeMonth leap month + daysInMonth leap month ≤ daysBeforeMonth leap month' := by
  revert leap
  decide

/-- The days of a month are days of the year. -/
theorem daysBeforeMonth_add_le (leap : Bool) : ∀ month < 13, 1 ≤ month →
    daysBeforeMonth leap month + daysInMonth leap month ≤ daysInYear leap := by
  revert leap
  decide

/-! ### Dates -/

/-- A date. -/
@[ext]
structure Date where
  year : ℕ
  month : ℕ
  day : ℕ
  deriving DecidableEq

namespace Date

/-- The date is one of the calendar. -/
structure Valid (date : Date) : Prop where
  year_pos : 1 ≤ date.year
  month_pos : 1 ≤ date.month
  month_le : date.month ≤ 12
  day_pos : 1 ≤ date.day
  day_le : date.day ≤ daysInMonth (isLeap date.year) date.month

/-- The ordinal of a date. -/
def toOrdinal (date : Date) : ℕ :=
  daysBeforeYear date.year + daysBeforeMonth (isLeap date.year) date.month + date.day

/-- The order of year, month and day. -/
def Before (a b : Date) : Prop :=
  a.year < b.year ∨ (a.year = b.year ∧ (a.month < b.month ∨ (a.month = b.month ∧ a.day < b.day)))

/-- The month and the day of the `n`-th day of a year, counted from 0. -/
def monthDay (leap : Bool) (n : ℕ) : ℕ × ℕ :=
  let month := (n + 50) / 32
  if n < daysBeforeMonth leap month then
    (month - 1, n - (daysBeforeMonth leap month - daysInMonth leap (month - 1)) + 1)
  else
    (month, n - daysBeforeMonth leap month + 1)

/-- The date of an ordinal: cycles of 400, 100, 4 years and single years are counted off. -/
def ofOrdinal (ordinal : ℕ) : Date :=
  let n400 := (ordinal - 1) / 146097
  let r400 := (ordinal - 1) % 146097
  let n100 := r400 / 36524
  let r100 := r400 % 36524
  let n4 := r100 / 1461
  let r4 := r100 % 1461
  let n1 := r4 / 365
  let n := r4 % 365
  let year := n400 * 400 + n100 * 100 + n4 * 4 + n1 + 1
  -- the last day of a cycle of 4 or 400 years
  if n1 = 4 ∨ n100 = 4 then
    ⟨year - 1, 12, 31⟩
  else
    let found := monthDay (n1 = 3 && (n4 ≠ 24 || n100 = 3)) n
    ⟨year, found.1, found.2⟩

/-- A later date has a larger ordinal. -/
theorem toOrdinal_lt {a b : Date} (ha : a.Valid) (hb : b.Valid) (hlt : a.Before b) :
    a.toOrdinal < b.toOrdinal := by
  have hmonth := daysBeforeMonth_add_le (isLeap a.year) a.month (by have := ha.month_le; omega)
    ha.month_pos
  have hday := ha.day_le
  have hdayPos := hb.day_pos
  unfold toOrdinal
  rcases hlt with hyear | ⟨hyear, hmonths | ⟨hmonths, hdays⟩⟩
  · have hyears := daysBeforeYear_le ha.year_pos hyear
    omega
  · have hlater := daysBeforeMonth_le (isLeap a.year) a.month (by have := ha.month_le; omega)
      b.month (by have := hb.month_le; omega) ha.month_pos hmonths
    rw [← hyear]
    omega
  · rw [← hyear, ← hmonths]
    omega

/-- Of two dates one is before the other, unless they are the same. -/
theorem before_trichotomy (a b : Date) : a.Before b ∨ a = b ∨ b.Before a := by
  obtain ⟨year, month, day⟩ := a
  obtain ⟨year', month', day'⟩ := b
  simp only [Before, Date.mk.injEq]
  omega

/-- **Order.** The ordinals of dates are in the order of year, month and day. -/
theorem toOrdinal_lt_iff {a b : Date} (ha : a.Valid) (hb : b.Valid) :
    a.toOrdinal < b.toOrdinal ↔ a.Before b := by
  refine ⟨fun hlt => ?_, toOrdinal_lt ha hb⟩
  rcases before_trichotomy a b with hbefore | rfl | hafter
  · exact hbefore
  · exact absurd hlt (lt_irrefl _)
  · exact absurd (toOrdinal_lt hb ha hafter) (by omega)

/-! ### The date of an ordinal -/

/-- The month and the day of a day of the year. -/
theorem monthDay_spec (leap : Bool) : ∀ n < 366, n < daysInYear leap →
    1 ≤ (monthDay leap n).1 ∧ (monthDay leap n).1 ≤ 12 ∧ 1 ≤ (monthDay leap n).2
      ∧ (monthDay leap n).2 ≤ daysInMonth leap (monthDay leap n).1
      ∧ daysBeforeMonth leap (monthDay leap n).1 + (monthDay leap n).2 = n + 1 := by
  revert leap
  decide +kernel

/-- The days before a year, by the cycles it lies in. -/
theorem daysBeforeYear_cycles {a b c d : ℕ} (hb : b ≤ 3) (hc : c ≤ 24) (hd : d ≤ 3) :
    daysBeforeYear (a * 400 + b * 100 + c * 4 + d + 1)
      = a * 146097 + b * 36524 + c * 1461 + d * 365 := by
  unfold daysBeforeYear
  omega

/-- The leap years, by the cycles they lie in. -/
theorem isLeap_cycles {a b c d : ℕ} (hb : b ≤ 3) (hc : c ≤ 24) (hd : d ≤ 3) :
    isLeap (a * 400 + b * 100 + c * 4 + d + 1) = (d = 3 && (c ≠ 24 || b = 3)) := by
  rw [Bool.eq_iff_iff, isLeap_iff]
  simp only [Bool.and_eq_true, Bool.or_eq_true, decide_eq_true_eq]
  omega

/-- The date of a day of a year. -/
theorem monthDay_date {year n : ℕ} (hpos : 1 ≤ year) (hn : n < daysInYear (isLeap year)) :
    Valid ⟨year, (monthDay (isLeap year) n).1, (monthDay (isLeap year) n).2⟩
      ∧ toOrdinal ⟨year, (monthDay (isLeap year) n).1, (monthDay (isLeap year) n).2⟩
        = daysBeforeYear year + n + 1 := by
  have hn366 : n < 366 := by
    unfold daysInYear at hn
    split at hn <;> omega
  obtain ⟨hmonthPos, hmonthLe, hdayPos, hdayLe, hday⟩ := monthDay_spec (isLeap year) n hn366 hn
  refine ⟨⟨hpos, hmonthPos, hmonthLe, hdayPos, hdayLe⟩, ?_⟩
  unfold toOrdinal
  dsimp only
  rw [Nat.add_assoc, hday, Nat.add_assoc]

/-- The last day of a leap year. -/
theorem monthDay_last : monthDay true 365 = (12, 31) := by decide

/-- **The date of an ordinal** is a date of the calendar and has the ordinal. -/
theorem ofOrdinal_spec {ordinal : ℕ} (hordinal : 1 ≤ ordinal) :
    (ofOrdinal ordinal).Valid ∧ (ofOrdinal ordinal).toOrdinal = ordinal := by
  unfold ofOrdinal
  dsimp only
  -- the cycles before the day, and the day in its year
  generalize ha : (ordinal - 1) / 146097 = a
  generalize hr400 : (ordinal - 1) % 146097 = r400
  generalize hb : r400 / 36524 = b
  generalize hr100 : r400 % 36524 = r100
  generalize hc : r100 / 1461 = c
  generalize hr4 : r100 % 1461 = r4
  generalize hd : r4 / 365 = d
  generalize hn : r4 % 365 = n
  by_cases hlast : d = 4 ∨ b = 4
  · rw [if_pos hlast]
    -- the year before is the last one of its cycle, and leap
    obtain ⟨b', c', hb', hc', hyear, hleap, hsum⟩ : ∃ b' c', b' ≤ 3 ∧ c' ≤ 24
        ∧ a * 400 + b * 100 + c * 4 + d + 1 - 1 = a * 400 + b' * 100 + c' * 4 + 3 + 1
        ∧ (c' ≠ 24 ∨ b' = 3)
        ∧ ordinal = a * 146097 + b' * 36524 + c' * 1461 + 3 * 365 + 365 + 1 := by
      by_cases hb4 : b = 4
      · exact ⟨3, 24, by omega, by omega, by omega, by omega, by omega⟩
      · exact ⟨b, c, by omega, by omega, by omega, by omega, by omega⟩
    have hleapYear : isLeap (a * 400 + b' * 100 + c' * 4 + 3 + 1) = true := by
      rw [isLeap_cycles hb' hc' (Nat.le_refl 3)]
      simpa using hleap
    have hdate := monthDay_date (n := 365) (Nat.le_add_left 1 (a * 400 + b' * 100 + c' * 4 + 3))
      (by rw [hleapYear]; decide)
    rw [hleapYear, monthDay_last, daysBeforeYear_cycles hb' hc' (Nat.le_refl 3), ← hsum] at hdate
    rw [hyear]
    exact hdate
  · rw [if_neg hlast]
    rw [not_or] at hlast
    have hb3 : b ≤ 3 := by omega
    have hc24 : c ≤ 24 := by omega
    have hd3 : d ≤ 3 := by omega
    have hsum : ordinal = a * 146097 + b * 36524 + c * 1461 + d * 365 + n + 1 := by omega
    have hin : n < daysInYear (isLeap (a * 400 + b * 100 + c * 4 + d + 1)) := by
      have hn365 : n < 365 := by omega
      unfold daysInYear
      split <;> omega
    have hdate := monthDay_date (Nat.le_add_left 1 (a * 400 + b * 100 + c * 4 + d)) hin
    rw [daysBeforeYear_cycles hb3 hc24 hd3, ← hsum] at hdate
    rw [← isLeap_cycles (a := a) hb3 hc24 hd3]
    exact hdate

end Date

end InefficiencyEngine.Calendar
