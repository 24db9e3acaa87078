import Mathlib.Data.List.Nodup

namespace InefficiencyEngine

/-!
# Hash chains

A log of rows each of which carries a payload, the hash of the row it was put on top of and
a hash of its own.  In a *chain* every row sits on the row right before it.  A chain grows
by one row exactly if that row was put on top of the last one (`chain_append_singleton`);
when the hashes differ, which row a hash belongs to can be read off it
(`lastHash_take_eq_iff`).
-/

/-- How the rows of a log are hashed. -/
structure HashFormat (ρ H B : Type) where
  /-- The hash of the row it was put on top of. -/
  previous : ρ → Option H
  payload : ρ → B
  hash : ρ → H
  digest : Option H → B → H

namespace HashFormat

variable {ρ H B : Type} (F : HashFormat ρ H B) {rows : List ρ} {row : ρ}

/-- A row's hash is that of its predecessor's hash and its payload. -/
def Sealed (row : ρ) : Prop := F.hash row = F.digest (F.previous row) (F.payload row)

/-- The hash of the last row. -/
def lastHash (rows : List ρ) : Option H := rows.getLast?.map F.hash

/-- Every row sits on the row right before it, the first one on none, and is sealed. -/
def Chain (rows : List ρ) : Prop :=
  ∀ i row, rows[i]? = some row → F.previous row = F.lastHash (rows.take i) ∧ F.Sealed row

theorem chain_nil : F.Chain [] := fun i row h => by cases h

/-- **Growth.** A chain grows by a sealed row put on top of its last one, and by no other. -/
theorem chain_append_singleton :
    F.Chain (rows ++ [row])
      ↔ F.Chain rows ∧ F.previous row = F.lastHash rows ∧ F.Sealed row := by
  constructor
  · intro h
    refine ⟨fun i r hr => ?_, ?_⟩
    · have hi : i < rows.length := (List.getElem?_eq_some_iff.mp hr).1
      have hrow := h i r (by rw [List.getElem?_append_left hi, hr])
      rwa [List.take_append_of_le_length (Nat.le_of_lt hi)] at hrow
    · have hrow := h rows.length row List.getElem?_concat_length
      rwa [List.take_left] at hrow
  · rintro ⟨h, hlast⟩ i r hr
    rcases Nat.lt_or_ge i rows.length with hi | hi
    · rw [List.getElem?_append_left hi] at hr
      rw [List.take_append_of_le_length (Nat.le_of_lt hi)]
      exact h i r hr
    · rw [List.getElem?_append_right hi, List.getElem?_singleton] at hr
      split at hr
      · rename_i hzero
        obtain rfl : row = r := Option.some.inj hr
        obtain rfl : i = rows.length := Nat.le_antisymm (Nat.sub_eq_zero_iff_le.mp hzero) hi
        rwa [List.take_left]
      · cases hr

/-- When the hashes of the rows differ, the last hash of a beginning is the last hash of the
    log only if the beginning is all of it. -/
theorem lastHash_take_eq_iff (hdistinct : (rows.map F.hash).Nodup) {k : ℕ}
    (hk : k ≤ rows.length) :
    F.lastHash (rows.take k) = F.lastHash rows ↔ k = rows.length := by
  constructor
  · intro h
    rcases Nat.eq_or_lt_of_le hk with heq | hlt
    · exact heq
    -- The two last rows are rows of the same log with one hash.
    have hlength : (rows.take k).length = k := List.length_take_of_le hk
    rw [lastHash, lastHash, List.getLast?_eq_getElem?, List.getLast?_eq_getElem?, hlength] at h
    cases k with
    | zero =>
      rw [List.getElem?_eq_getElem (i := rows.length - 1) (by omega)] at h
      cases h
    | succ k =>
      rw [Nat.add_sub_cancel, List.getElem?_take_of_lt (Nat.lt_succ_self k), ← List.getElem?_map,
        ← List.getElem?_map] at h
      have hindex : k = rows.length - 1 :=
        (List.getElem?_inj (by rw [List.length_map]; omega) hdistinct).mp h
      omega
  · rintro rfl
    rw [List.take_length]

end HashFormat

end InefficiencyEngine
