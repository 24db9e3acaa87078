import InefficiencyEngine.Lib.KeyedTable
import Mathlib.Data.Finset.Sort

namespace InefficiencyEngine

/-!
# Grouping rows by their key

Rows can be grouped at once, each key with the merged values of its rows (`groupBy`), or one
row after the other, each merged into the row its key has by then (`KeyedTable.mergeAll`).
Both give the same table (`rows_mergeAll`), so that the second may stop and go on later.
-/

/-- The least element of a list. -/
def leastOf {α : Type} [LinearOrder α] : List α → Option α
  | [] => none
  | x :: xs => some (xs.foldl min x)

/-- The greatest element of a list. -/
def greatestOf {α : Type} [LinearOrder α] : List α → Option α
  | [] => none
  | x :: xs => some (xs.foldl max x)

/-- The least element does not depend on whether a list is reduced at once. -/
theorem leastOf_append_singleton {α : Type} [LinearOrder α] (xs : List α) (x : α) :
    leastOf (xs ++ [x]) = some ((leastOf xs).elim x (fun least => min least x)) := by
  cases xs with
  | nil => rfl
  | cons first rest =>
    show some ((rest ++ [x]).foldl min first) = _
    rw [List.foldl_append]
    rfl

/-- The greatest element does not depend on whether a list is reduced at once. -/
theorem greatestOf_append_singleton {α : Type} [LinearOrder α] (xs : List α) (x : α) :
    greatestOf (xs ++ [x]) = some ((greatestOf xs).elim x (fun greatest => max greatest x)) := by
  cases xs with
  | nil => rfl
  | cons first rest =>
    show some ((rest ++ [x]).foldl max first) = _
    rw [List.foldl_append]
    rfl

variable {K V A : Type} [LinearOrder K]

/-! ### Looking up a key -/

namespace KeyedTable

/-- The value of a key. -/
def lookup (t : KeyedTable K V) (key : K) : Option V :=
  (t.rows.find? (fun row => row.1 = key)).map Prod.snd

variable {t : KeyedTable K V} {row : K × V} {key : K} {value : V}

theorem lookup_eq_some_iff : t.lookup key = some value ↔ (key, value) ∈ t.rows := by
  rw [lookup, Option.map_eq_some_iff]
  constructor
  · rintro ⟨found, hfound, rfl⟩
    have hkey : found.1 = key := by simpa using List.find?_some hfound
    rw [← hkey]
    exact List.mem_of_find?_eq_some hfound
  · intro hmem
    have hsome : (t.rows.find? (fun row => row.1 = key)).isSome := by
      rw [List.find?_isSome]
      exact ⟨(key, value), hmem, decide_eq_true rfl⟩
    obtain ⟨found, hfound⟩ := Option.isSome_iff_exists.mp hsome
    have hkey : found.1 = key := by simpa using List.find?_some hfound
    refine ⟨found, hfound, ?_⟩
    rw [row_unique (List.mem_of_find?_eq_some hfound) hmem hkey]

theorem lookup_upsert (key : K) :
    (t.upsert row).lookup key = if key = row.1 then some row.2 else t.lookup key := by
  refine Option.ext (fun value => ?_)
  rw [lookup_eq_some_iff, mem_upsert]
  by_cases hkey : key = row.1
  · rw [if_pos hkey, Option.some.injEq]
    constructor
    · rintro (heq | ⟨-, hne⟩)
      · rw [← heq]
      · exact absurd hkey hne
    · rintro rfl
      exact Or.inl (Prod.ext hkey rfl)
  · rw [if_neg hkey, lookup_eq_some_iff]
    constructor
    · rintro (heq | ⟨hmem, -⟩)
      · exact absurd (congrArg Prod.fst heq) hkey
      · exact hmem
    · intro hmem
      exact Or.inr ⟨hmem, hkey⟩

/-! ### Merging rows into a table -/

/-- What a value becomes when another one is merged into it, or when it is the first one. -/
abbrev Merge (A V : Type) : Type := Option A → V → A

/-- Insert a value, merging it into the one its key has. -/
def mergeRow (merge : Merge A V) (t : KeyedTable K A) (row : K × V) : KeyedTable K A :=
  t.upsert (row.1, merge (t.lookup row.1) row.2)

/-- Insert values one after the other. -/
def mergeAll (merge : Merge A V) (t : KeyedTable K A) (rows : List (K × V)) : KeyedTable K A :=
  rows.foldl (mergeRow merge) t

theorem mergeAll_append (merge : Merge A V) (t : KeyedTable K A) (first second : List (K × V)) :
    t.mergeAll merge (first ++ second) = (t.mergeAll merge first).mergeAll merge second :=
  List.foldl_append

end KeyedTable

/-- The values of a key, in order. -/
def valuesOf (rows : List (K × V)) (key : K) : List V :=
  (rows.filter (fun row => row.1 = key)).map Prod.snd

theorem valuesOf_append_singleton (rows : List (K × V)) (row : K × V) (key : K) :
    valuesOf (rows ++ [row]) key
      = if key = row.1 then valuesOf rows key ++ [row.2] else valuesOf rows key := by
  rw [valuesOf, List.filter_append, List.map_append]
  by_cases hkey : key = row.1
  · simp [valuesOf, hkey]
  · simp [valuesOf, hkey, Ne.symm hkey]

theorem valuesOf_eq_nil_iff {rows : List (K × V)} {key : K} :
    valuesOf rows key = [] ↔ key ∉ rows.map Prod.fst := by
  rw [valuesOf, List.map_eq_nil_iff, List.filter_eq_nil_iff, List.mem_map]
  constructor
  · rintro h ⟨row, hrow, rfl⟩
    exact h row hrow (decide_eq_true rfl)
  · intro h row hrow hkey
    exact h ⟨row, hrow, of_decide_eq_true hkey⟩

/-- An aggregate of the values of a group, one of them at a time. -/
structure Aggregates (merge : KeyedTable.Merge A V) (aggregate : List V → Option A) : Prop where
  nil : aggregate [] = none
  step : ∀ values value,
    aggregate (values ++ [value]) = some (merge (aggregate values) value)

/-- The keys of some rows in order, each with the aggregate of its values. -/
def groupBy (aggregate : List V → Option A) (rows : List (K × V)) : List (K × A) :=
  ((rows.map Prod.fst).toFinset.sort (· ≤ ·)).filterMap
    (fun key => (aggregate (valuesOf rows key)).map (Prod.mk key))

section Aggregates

variable {merge : KeyedTable.Merge A V} {aggregate : List V → Option A}

/-- What is merged for a key is the aggregate of its values. -/
theorem Aggregates.lookup_mergeAll (h : Aggregates merge aggregate) (rows : List (K × V))
    (key : K) :
    (KeyedTable.empty.mergeAll merge rows).lookup key = aggregate (valuesOf rows key) := by
  induction rows using List.reverseRecOn with
  | nil => exact h.nil.symm
  | append_singleton rows row ih =>
    rw [KeyedTable.mergeAll_append]
    show ((KeyedTable.empty.mergeAll merge rows).upsert _).lookup key = _
    rw [KeyedTable.lookup_upsert, valuesOf_append_singleton]
    by_cases hkey : key = row.1
    · subst hkey
      rw [if_pos rfl, if_pos rfl, h.step, ih]
    · rw [if_neg hkey, if_neg hkey, ih]

theorem mem_groupBy {rows : List (K × V)} {key : K} {a : A} :
    (key, a) ∈ groupBy aggregate rows
      ↔ key ∈ rows.map Prod.fst ∧ aggregate (valuesOf rows key) = some a := by
  rw [groupBy, List.mem_filterMap]
  constructor
  · rintro ⟨key', hkey', hsome⟩
    obtain ⟨b, hb, heq⟩ := Option.map_eq_some_iff.mp hsome
    obtain ⟨rfl, rfl⟩ := Prod.mk.inj heq
    rw [Finset.mem_sort, List.mem_toFinset] at hkey'
    exact ⟨hkey', hb⟩
  · rintro ⟨hkey, hsome⟩
    refine ⟨key, ?_, by rw [hsome]; rfl⟩
    rw [Finset.mem_sort, List.mem_toFinset]
    exact hkey

theorem sorted_groupBy (rows : List (K × V)) :
    (groupBy aggregate rows).Pairwise (fun a b => a.1 < b.1) := by
  rw [groupBy, List.pairwise_filterMap]
  refine (Finset.sortedLT_sort _).pairwise.imp (fun hlt a ha b hb => ?_)
  obtain ⟨a', -, rfl⟩ := Option.map_eq_some_iff.mp ha
  obtain ⟨b', -, rfl⟩ := Option.map_eq_some_iff.mp hb
  exact hlt

/-- **Grouping.** Merging rows one after the other groups them. -/
theorem Aggregates.rows_mergeAll (h : Aggregates merge aggregate) (rows : List (K × V)) :
    (KeyedTable.empty.mergeAll merge rows).rows = groupBy aggregate rows := by
  refine KeyedTable.eq_of_mem_iff (KeyedTable.sorted _) (sorted_groupBy rows) ?_
  rintro ⟨key, a⟩
  rw [← KeyedTable.lookup_eq_some_iff, h.lookup_mergeAll, mem_groupBy]
  refine (and_iff_right_of_imp (fun hsome => ?_)).symm
  by_contra hkey
  rw [valuesOf_eq_nil_iff.mpr hkey, h.nil] at hsome
  cases hsome

end Aggregates

end InefficiencyEngine
