import Mathlib.Data.List.Nodup
import Mathlib.Data.List.Perm.Subperm
import Mathlib.Order.Lattice

namespace InefficiencyEngine

/-!
# Tables with a primary key

A table is the list of its rows in key order; that no two rows share a key is part of the
type.  Such a table is determined by its set of rows (`KeyedTable.eq_of_mem_iff`), and a
list of rows in key order that are rows of the table, as many as it has, is the whole table
(`KeyedTable.eq_rows_of_subset`).
-/

/-- The keys are told apart by their order. -/
instance linearOrder_lawfulBEq (K : Type) [LinearOrder K] : LawfulBEq K := inferInstance

/-- The rows of a table, in the order of their keys. -/
structure KeyedTable (K V : Type) [LinearOrder K] where
  rows : List (K × V)
  sorted : rows.Pairwise (fun a b => a.1 < b.1)

namespace KeyedTable

variable {K V : Type} [LinearOrder K]

/-- A table without rows. -/
def empty : KeyedTable K V := ⟨[], List.Pairwise.nil⟩

theorem ext {t t' : KeyedTable K V} (h : t.rows = t'.rows) : t = t' := by
  cases t
  cases t'
  cases h
  rfl

/-! ### Lists in key order -/

/-- Lists in key order with the same rows are equal. -/
theorem eq_of_mem_iff {rows rows' : List (K × V)}
    (hrows : rows.Pairwise (fun a b => a.1 < b.1)) (hrows' : rows'.Pairwise (fun a b => a.1 < b.1))
    (h : ∀ row, row ∈ rows ↔ row ∈ rows') : rows = rows' := by
  have hne : ∀ {a b : K × V}, a.1 < b.1 → a ≠ b := fun hlt heq => by
    rw [heq] at hlt
    exact lt_irrefl _ hlt
  have hperm : rows.Perm rows' :=
    (List.perm_ext_iff_of_nodup (hrows.imp hne) (hrows'.imp hne)).mpr h
  exact hperm.eq_of_pairwise (fun a b _ _ hab hba => absurd hba (lt_asymm hab)) hrows hrows'

/-- Rows in key order, all of the table and as many as it has, are its rows. -/
theorem eq_rows_of_subset {t : KeyedTable K V} {rows : List (K × V)}
    (hrows : rows.Pairwise (fun a b => a.1 < b.1)) (hsubset : rows ⊆ t.rows)
    (hlength : rows.length = t.rows.length) : rows = t.rows := by
  have hnodup : rows.Nodup := hrows.imp (fun hlt heq => by
    rw [heq] at hlt
    exact lt_irrefl _ hlt)
  have hperm := (hnodup.subperm hsubset).perm_of_length_le (Nat.le_of_eq hlength.symm)
  exact eq_of_mem_iff hrows t.sorted (fun row => hperm.mem_iff)

/-- The keys of a table differ. -/
theorem nodup_keys (t : KeyedTable K V) : (t.rows.map Prod.fst).Nodup :=
  List.pairwise_map.mpr (t.sorted.imp ne_of_lt)

/-- A key has one row. -/
theorem row_unique {t : KeyedTable K V} {row row' : K × V} (h : row ∈ t.rows) (h' : row' ∈ t.rows)
    (hkey : row.1 = row'.1) : row = row' :=
  List.inj_on_of_nodup_map t.nodup_keys h h' hkey

/-! ### Insertion -/

section Insertion

variable (t : KeyedTable K V) (row : K × V)

/-- Insert a row, replacing the row of its key. -/
def upsert : KeyedTable K V where
  rows := t.rows.filter (fun r => r.1 < row.1) ++ row :: t.rows.filter (fun r => row.1 < r.1)
  sorted := by
    rw [List.pairwise_append, List.pairwise_cons]
    refine ⟨t.sorted.filter _, ⟨fun r hr => of_decide_eq_true (List.mem_filter.mp hr).2,
      t.sorted.filter _⟩, ?_⟩
    intro a ha b hb
    have ha' : a.1 < row.1 := of_decide_eq_true (List.mem_filter.mp ha).2
    rcases List.mem_cons.mp hb with rfl | hb
    · exact ha'
    · exact ha'.trans (of_decide_eq_true (List.mem_filter.mp hb).2)

/-- Whether the table has a row with a key. -/
def hasKey (key : K) : Bool := t.rows.any (fun r => r.1 = key)

/-- Insert a row unless its key is taken. -/
def insertIgnore : KeyedTable K V := if t.hasKey row.1 then t else t.upsert row

variable {t row}

theorem mem_upsert {r : K × V} :
    r ∈ (t.upsert row).rows ↔ r = row ∨ r ∈ t.rows ∧ r.1 ≠ row.1 := by
  rw [upsert, List.mem_append, List.mem_cons, List.mem_filter, List.mem_filter]
  constructor
  · rintro (⟨hr, hlt⟩ | rfl | ⟨hr, hlt⟩)
    · exact Or.inr ⟨hr, (of_decide_eq_true hlt).ne⟩
    · exact Or.inl rfl
    · exact Or.inr ⟨hr, (of_decide_eq_true hlt).ne'⟩
  · rintro (rfl | ⟨hr, hne⟩)
    · exact Or.inr (Or.inl rfl)
    · rcases lt_or_gt_of_ne hne with hlt | hlt
      · exact Or.inl ⟨hr, decide_eq_true hlt⟩
      · exact Or.inr (Or.inr ⟨hr, decide_eq_true hlt⟩)

theorem hasKey_iff {key : K} : t.hasKey key = true ↔ ∃ r ∈ t.rows, r.1 = key := by
  rw [hasKey, List.any_eq_true]
  exact exists_congr (fun r => and_congr_right (fun _ => decide_eq_true_iff))

/-- A row is in the table after an insertion if it was before, or if it is the one inserted
    and its key was free. -/
theorem mem_insertIgnore {r : K × V} :
    r ∈ (t.insertIgnore row).rows ↔ r ∈ t.rows ∨ r = row ∧ t.hasKey row.1 = false := by
  unfold insertIgnore
  split
  · rename_i hkey
    rw [hkey]
    exact ⟨Or.inl, fun h => h.resolve_right (fun h => by cases h.2)⟩
  · rename_i hkey
    rw [mem_upsert]
    have hfree : ∀ r ∈ t.rows, r.1 ≠ row.1 := fun r hr heq => hkey (hasKey_iff.mpr ⟨r, hr, heq⟩)
    constructor
    · rintro (rfl | ⟨hr, -⟩)
      · exact Or.inr ⟨rfl, Bool.eq_false_iff.mpr hkey⟩
      · exact Or.inl hr
    · rintro (hr | ⟨rfl, -⟩)
      · exact Or.inr ⟨hr, hfree r hr⟩
      · exact Or.inl rfl

/-- Rows inserted are in the table, and no others are new. -/
theorem mem_foldl_insertIgnore {rows : List (K × V)} {r : K × V}
    (h : r ∈ (rows.foldl insertIgnore t).rows) : r ∈ t.rows ∨ r ∈ rows := by
  induction rows generalizing t with
  | nil => exact Or.inl h
  | cons first rest ih =>
    rcases ih h with hmem | hmem
    · rcases mem_insertIgnore.mp hmem with hmem | ⟨rfl, -⟩
      · exact Or.inl hmem
      · exact Or.inr List.mem_cons_self
    · exact Or.inr (List.mem_cons_of_mem _ hmem)

/-- Insertions keep every row of the table. -/
theorem subset_foldl_insertIgnore (rows : List (K × V)) :
    t.rows ⊆ (rows.foldl insertIgnore t).rows := by
  induction rows generalizing t with
  | nil => exact List.Subset.refl _
  | cons first rest ih =>
    exact List.Subset.trans (fun r h => mem_insertIgnore.mpr (Or.inl h)) ih

/-- Rows that agree with the table's, one for each key, are all in it after they are inserted. -/
theorem mem_foldl_insertIgnore_iff {u : KeyedTable K V} {rows : List (K × V)} {r : K × V}
    (ht : t.rows ⊆ u.rows) (hrows : rows ⊆ u.rows) :
    r ∈ (rows.foldl insertIgnore t).rows ↔ r ∈ t.rows ∨ r ∈ rows := by
  induction rows generalizing t with
  | nil => simp
  | cons first rest ih =>
    obtain ⟨hfirst, hrest⟩ := List.cons_subset.mp hrows
    have hmem : ∀ r, r ∈ (t.insertIgnore first).rows ↔ r ∈ t.rows ∨ r = first := by
      intro r
      rw [mem_insertIgnore]
      refine or_congr_right' (fun hr => and_iff_left_of_imp ?_)
      rintro rfl
      rw [Bool.eq_false_iff, Ne, hasKey_iff]
      rintro ⟨r', hr', hkey⟩
      exact hr (row_unique (ht hr') hfirst hkey ▸ hr')
    have hsubset : (t.insertIgnore first).rows ⊆ u.rows := fun r hr => by
      rcases (hmem r).mp hr with hr | rfl
      · exact ht hr
      · exact hfirst
    rw [List.foldl_cons, ih hsubset hrest, hmem, List.mem_cons, or_assoc]

end Insertion

end KeyedTable

end InefficiencyEngine
