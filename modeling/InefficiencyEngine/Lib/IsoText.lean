import InefficiencyEngine.Lib.Calendar
import Mathlib.Data.String.Basic
import Mathlib.Order.Defs.LinearOrder

namespace InefficiencyEngine.Calendar

/-!
# Moments in UTC and their ISO text

The text of a moment is `YYYY-MM-DDTHH:MM:SS+00:00`, with a fraction `.ffffff` before the offset
if the microseconds are not 0.  The texts have two lengths, and yet their order is the order of
the moments (`isoformat_lt_iff`): the numbers are padded to a fixed width, and where one text has
a fraction and the other one has not, `+` comes before `.`.
-/

/-! ### Padded numbers -/

/-- A number in decimal, padded with zeros to a width. -/
def pad : ℕ → ℕ → List Char
  | 0, _ => []
  | width + 1, n => Nat.digitChar (n / 10 ^ width) :: pad width (n % 10 ^ width)

theorem digitChar_lt_iff : ∀ a < 10, ∀ b < 10, Nat.digitChar a < Nat.digitChar b ↔ a < b := by
  decide

theorem digitChar_inj : ∀ a < 10, ∀ b < 10, Nat.digitChar a = Nat.digitChar b ↔ a = b := by
  decide

/-- Texts that begin with numbers of one width are in the order of the numbers, and then of the
    rests. The first digits are the quotients by the power of ten, so the induction on the width
    compares them first and the remainders after. -/
theorem pad_append_lt_iff {width n m : ℕ} (hn : n < 10 ^ width) (hm : m < 10 ^ width)
    (s t : List Char) :
    pad width n ++ s < pad width m ++ t ↔ n < m ∨ (n = m ∧ s < t) := by
  induction width generalizing n m with
  | zero =>
    have hn0 : n = 0 := by simpa using hn
    have hm0 : m = 0 := by simpa using hm
    simp [pad, hn0, hm0]
  | succ width ih =>
    have hpos : 0 < 10 ^ width := Nat.pos_of_ne_zero (by simp)
    have hfirst : n / 10 ^ width < 10 := by
      rw [Nat.div_lt_iff_lt_mul hpos, Nat.mul_comm, ← Nat.pow_succ]
      exact hn
    have hfirst' : m / 10 ^ width < 10 := by
      rw [Nat.div_lt_iff_lt_mul hpos, Nat.mul_comm, ← Nat.pow_succ]
      exact hm
    have hrest := ih (Nat.mod_lt n hpos) (Nat.mod_lt m hpos)
    have hsplit := Nat.div_add_mod n (10 ^ width)
    have hsplit' := Nat.div_add_mod m (10 ^ width)
    rw [pad, pad, List.cons_append, List.cons_append, List.cons_lt_cons_iff,
      digitChar_lt_iff _ hfirst _ hfirst', digitChar_inj _ hfirst _ hfirst', hrest]
    have hmodn := Nat.mod_lt n hpos
    have hmodm := Nat.mod_lt m hpos
    generalize n / 10 ^ width = q at *
    generalize n % 10 ^ width = r at *
    generalize m / 10 ^ width = q' at *
    generalize m % 10 ^ width = r' at *
    generalize 10 ^ width = p at *
    subst hsplit hsplit'
    -- a smaller first digit outweighs whatever the remainders are
    rcases lt_trichotomy q q' with hlt | rfl | hgt
    · have hmul : p * q + p ≤ p * q' := by
        rw [← Nat.mul_succ]
        exact Nat.mul_le_mul_left p hlt
      constructor
      · exact fun _ => Or.inl (by omega)
      · exact fun _ => Or.inl hlt
    -- equal first digits leave the comparison to the remainders and the rests
    · constructor
      · rintro (hlt | ⟨-, hr | ⟨rfl, hst⟩⟩)
        · exact absurd hlt (lt_irrefl _)
        · exact Or.inl (by omega)
        · exact Or.inr ⟨rfl, hst⟩
      · rintro (hlt | ⟨heq, hst⟩)
        · exact Or.inr ⟨rfl, Or.inl (by omega)⟩
        · exact Or.inr ⟨rfl, Or.inr ⟨by omega, hst⟩⟩
    · have hmul : p * q' + p ≤ p * q := by
        rw [← Nat.mul_succ]
        exact Nat.mul_le_mul_left p hgt
      constructor
      · rintro (hlt | ⟨heq, -⟩) <;> omega
      · rintro (hlt | ⟨heq, -⟩) <;> omega

/-! ### Moments -/

/-- The microseconds of a day. -/
def microsPerDay : ℕ := 86400000000

/-- A moment in UTC: the microseconds since the first of January of the year 1, within the years
    up to 9999. -/
structure UtcTime where
  micros : ℕ
  lt_max : micros < 3652059 * microsPerDay
  deriving DecidableEq

namespace UtcTime

theorem micros_injective : Function.Injective micros := by
  rintro ⟨micros, _⟩ ⟨micros', _⟩ h
  subst h
  rfl

instance : LinearOrder UtcTime := LinearOrder.lift' micros micros_injective

theorem lt_iff (a b : UtcTime) : a < b ↔ a.micros < b.micros := Iff.rfl

theorem le_iff (a b : UtcTime) : a ≤ b ↔ a.micros ≤ b.micros := Iff.rfl

/-- The moment some microseconds later, if it is within the years of the calendar. -/
def add? (t : UtcTime) (delta : ℤ) : Option UtcTime :=
  if h : 0 ≤ t.micros + delta ∧ t.micros + delta < 3652059 * microsPerDay then
    some ⟨(t.micros + delta).toNat, by omega⟩
  else
    none

section Fields

variable (t : UtcTime)

/-- The date. -/
def date : Date := Date.ofOrdinal (t.micros / microsPerDay + 1)

def hour : ℕ := t.micros / 3600000000 % 24

def minute : ℕ := t.micros / 60000000 % 60

def second : ℕ := t.micros / 1000000 % 60

def microsecond : ℕ := t.micros % 1000000

/-- The part of the text after the seconds. -/
def tail (microsecond : ℕ) : List Char :=
  if microsecond = 0 then
    ['+', '0', '0', ':', '0', '0']
  else
    '.' :: (pad 6 microsecond ++ ['+', '0', '0', ':', '0', '0'])

/-- The characters of the text. -/
def isoChars : List Char :=
  pad 4 t.date.year ++ '-' :: (pad 2 t.date.month ++ '-' :: (pad 2 t.date.day
    ++ 'T' :: (pad 2 t.hour ++ ':' :: (pad 2 t.minute ++ ':' :: (pad 2 t.second
      ++ tail t.microsecond)))))

/-- `isoformat`. -/
def isoformat : String := String.ofList t.isoChars

end Fields

/-- The date of a moment is one of the calendar, with its ordinal. -/
theorem date_spec (t : UtcTime) :
    t.date.Valid ∧ t.date.toOrdinal = t.micros / microsPerDay + 1 :=
  Date.ofOrdinal_spec (Nat.le_add_left 1 _)

/-- A year has four digits, a month and a day have two. -/
theorem date_lt (t : UtcTime) :
    t.date.year < 10 ^ 4 ∧ t.date.month < 10 ^ 2 ∧ t.date.day < 10 ^ 2 := by
  obtain ⟨hvalid, hordinal⟩ := t.date_spec
  have hmonth := hvalid.month_le
  have hday := hvalid.day_le
  have hdays : daysInMonth (isLeap t.date.year) t.date.month ≤ 31 := by
    have hall : ∀ leap : Bool, ∀ month < 13, daysInMonth leap month ≤ 31 := by decide
    exact hall _ _ (by omega)
  refine ⟨?_, by omega, by omega⟩
  by_contra hyear
  have hbefore : daysBeforeYear 9999 + daysInYear (isLeap 9999) ≤ daysBeforeYear t.date.year :=
    daysBeforeYear_le (by decide) (by omega)
  have hmax : daysBeforeYear 9999 + daysInYear (isLeap 9999) = 3652059 := by decide
  have hlt := t.lt_max
  have hdayPos := hvalid.day_pos
  unfold Date.toOrdinal at hordinal
  unfold microsPerDay at *
  omega

/-- A moment is the sum of its day and the fields of its time. -/
theorem micros_eq (t : UtcTime) :
    t.micros = microsPerDay * (t.micros / microsPerDay) + 3600000000 * t.hour
        + 60000000 * t.minute + 1000000 * t.second + t.microsecond
      ∧ t.hour < 24 ∧ t.minute < 60 ∧ t.second < 60 ∧ t.microsecond < 1000000 := by
  unfold hour minute second microsecond microsPerDay
  omega

/-- The time of a moment is before that of another one. -/
def TimeBefore (a b : UtcTime) : Prop :=
  a.hour < b.hour ∨ (a.hour = b.hour ∧ (a.minute < b.minute ∨ (a.minute = b.minute
    ∧ (a.second < b.second ∨ (a.second = b.second ∧ a.microsecond < b.microsecond)))))

/-- Moments are in the order of their dates, and then of their times. The ordinal of the date
    counts the days, so days are compared by it and times of one day by their fields. -/
theorem lt_iff_fields (a b : UtcTime) :
    a < b ↔ a.date.Before b.date ∨ (a.date = b.date ∧ TimeBefore a b) := by
  obtain ⟨ha, hordinal⟩ := a.date_spec
  obtain ⟨hb, hordinal'⟩ := b.date_spec
  obtain ⟨hsum, hhour, hminute, hsecond, hmicro⟩ := a.micros_eq
  obtain ⟨hsum', hhour', hminute', hsecond', hmicro'⟩ := b.micros_eq
  have hbefore := Date.toOrdinal_lt_iff ha hb
  have hafter := Date.toOrdinal_lt_iff hb ha
  rw [hordinal, hordinal'] at hbefore hafter
  rw [lt_iff]
  unfold microsPerDay at *
  generalize a.micros / 86400000000 = day at *
  generalize b.micros / 86400000000 = day' at *
  rcases lt_trichotomy day day' with hlt | rfl | hgt
  -- an earlier day
  · exact ⟨fun _ => Or.inl (hbefore.mp (by omega)), fun _ => by omega⟩
  -- the same day, and the times decide
  · have hsame : a.date = b.date := by
      rcases Date.before_trichotomy a.date b.date with h | h | h
      · exact absurd (hbefore.mpr h) (lt_irrefl _)
      · exact h
      · exact absurd (hafter.mpr h) (lt_irrefl _)
    have hnot : ¬ a.date.Before b.date := fun h => lt_irrefl _ (hbefore.mpr h)
    rw [or_iff_right hnot, and_iff_right hsame, TimeBefore]
    constructor
    · intro hlt
      omega
    · intro hlt
      omega
  · refine ⟨fun hlt => by omega, fun h => ?_⟩
    rcases h with h | ⟨h, -⟩
    · have hlt := hbefore.mpr h
      omega
    · rw [h] at hordinal
      omega

/-- The part after the seconds is in the order of the microseconds. -/
theorem tail_lt_iff {n m : ℕ} (hn : n < 10 ^ 6) (hm : m < 10 ^ 6) : tail n < tail m ↔ n < m := by
  have hplus : '+' < '.' := by decide
  unfold tail
  by_cases hn0 : n = 0 <;> by_cases hm0 : m = 0
  · rw [if_pos hn0, if_pos hm0, hn0, hm0]
    exact iff_of_false (lt_irrefl _) (lt_irrefl _)
  · rw [if_pos hn0, if_neg hm0, List.cons_lt_cons_iff]
    exact iff_of_true (Or.inl hplus) (by omega)
  · rw [if_neg hn0, if_pos hm0, List.cons_lt_cons_iff]
    refine iff_of_false ?_ (by omega)
    rintro (hlt | ⟨heq, -⟩)
    · exact absurd hlt (by decide)
    · exact absurd heq (by decide)
  · rw [if_neg hn0, if_neg hm0, List.cons_lt_cons_self, pad_append_lt_iff hn hm]
    exact or_iff_left (fun h => lt_irrefl _ h.2)

/-- **The order of the texts** is the order of the moments. -/
theorem isoformat_lt_iff (a b : UtcTime) : a.isoformat < b.isoformat ↔ a < b := by
  obtain ⟨hyear, hmonth, hday⟩ := a.date_lt
  obtain ⟨hyear', hmonth', hday'⟩ := b.date_lt
  obtain ⟨-, hhour, hminute, hsecond, hmicro⟩ := a.micros_eq
  obtain ⟨-, hhour', hminute', hsecond', hmicro'⟩ := b.micros_eq
  rw [String.lt_iff_toList_lt, isoformat, isoformat, String.toList_ofList, String.toList_ofList,
    isoChars, isoChars, pad_append_lt_iff hyear hyear', List.cons_lt_cons_self,
    pad_append_lt_iff hmonth hmonth', List.cons_lt_cons_self, pad_append_lt_iff hday hday',
    List.cons_lt_cons_self, pad_append_lt_iff (by omega) (by omega), List.cons_lt_cons_self,
    pad_append_lt_iff (by omega) (by omega), List.cons_lt_cons_self,
    pad_append_lt_iff (by omega) (by omega), tail_lt_iff (by omega) (by omega), lt_iff_fields,
    Date.Before, Date.ext_iff, TimeBefore]
  tauto

/-- The texts decide `≤` as the moments do. -/
theorem isoformat_le_iff (a b : UtcTime) : a.isoformat ≤ b.isoformat ↔ a ≤ b := by
  rw [← not_lt, ← not_lt, isoformat_lt_iff]

example : (⟨(Date.toOrdinal ⟨2026, 1, 1⟩ - 1) * microsPerDay + 5500000, by decide⟩ :
    UtcTime).isoformat = "2026-01-01T00:00:05.500000+00:00" := by decide +kernel

end UtcTime

end InefficiencyEngine.Calendar
