import Mathlib.Data.Nat.Cast.Defs
import Mathlib.Data.Nat.Pairing

namespace InefficiencyEngine

/-!
# Numbers

The numerals that are written in a field, and the pairing of two numbers as one.
-/

/-! Numerals that are at least two. -/

instance two_atLeastTwo : Nat.AtLeastTwo 2 := ⟨by decide⟩

instance five_atLeastTwo : Nat.AtLeastTwo 5 := ⟨by decide⟩

instance twoHundred_atLeastTwo : Nat.AtLeastTwo 200 := ⟨by decide⟩

/-- A pair is read back from its number. -/
theorem pair_injective2 : Function.Injective2 Nat.pair :=
  fun _ _ _ _ h => Nat.pair_eq_pair.mp h

end InefficiencyEngine
