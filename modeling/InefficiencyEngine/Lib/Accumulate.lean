import InefficiencyEngine.Lib.Dict
import InefficiencyEngine.Lib.StableSort
import Mathlib.Data.List.Induction

namespace InefficiencyEngine.Dict

/-!
# Dictionaries that a loop fills

A loop over rows may update the entry of the row's key (`accumulate`): the entry is then what the
rows of the key make of it, in their order.  Or it may store rows under their own keys
(`setDefault`, `set`): where equal keys are those of equal rows, the dictionary holds the rows, in
whatever order they come (`Holds`), and its sorted values are those of any other dictionary that
holds the same rows (`sortOn_values_congr`).  Rows grouped by their keys show as much of each group
as passes a test (`shown`), and rows that fail it show nothing more (`shown_group_append`).
-/

variable {κ ν α : Type} [DecidableEq κ]

/-! ### Updating entries -/

/-- `for x in xs: d[key(x)] = merge(d.get(key(x)), x)`. -/
def accumulate (key : α → κ) (merge : Option ν → α → ν) (d : Dict κ ν) (xs : List α) : Dict κ ν :=
  xs.foldl (fun d x => d.set (key x) (merge (d.get? (key x)) x)) d

/-- An entry is what the rows of its key make of it. -/
theorem get?_accumulate (key : α → κ) (merge : Option ν → α → ν) (d : Dict κ ν) (xs : List α)
    (k : κ) :
    (accumulate key merge d xs).get? k
      = (xs.filter (fun x => key x = k)).foldl (fun entry x => some (merge entry x)) (d.get? k) := by
  induction xs generalizing d with
  | nil => rfl
  | cons x rest ih =>
    show (accumulate key merge (d.set (key x) (merge (d.get? (key x)) x)) rest).get? k = _
    rw [ih]
    by_cases hk : key x = k
    · subst hk
      rw [get?_set_self, List.filter_cons_of_pos (by simp), List.foldl_cons]
    · rw [get?_set_of_ne _ _ hk, List.filter_cons_of_neg (by simpa using hk)]

/-! ### Storing rows -/

/-- `d.setdefault(k, v)`. -/
def setDefault (d : Dict κ ν) (k : κ) (v : ν) : Dict κ ν :=
  if (d.get? k).isSome then d else d.set k v

theorem get?_setDefault_self (d : Dict κ ν) (k : κ) (v : ν) :
    (d.setDefault k v).get? k = some ((d.get? k).getD v) := by
  rw [setDefault]
  cases hget : d.get? k with
  | none => simp
  | some w => simpa using hget

theorem get?_setDefault_of_ne (d : Dict κ ν) {k k' : κ} (v : ν) (h : k ≠ k') :
    (d.setDefault k v).get? k' = d.get? k' := by
  rw [setDefault]
  split
  · rfl
  · exact get?_set_of_ne d v h

/-- A dictionary holds some rows under their keys. -/
def Holds (key : ν → κ) (rows : List ν) (d : Dict κ ν) : Prop :=
  ∀ k v, d.get? k = some v ↔ v ∈ rows ∧ key v = k

section Holds

variable {key : ν → κ} {rows : List ν} {d : Dict κ ν} {v : ν}

theorem holds_empty : Holds key [] (empty : Dict κ ν) := fun k v => by
  simp [empty, get?, lookup]

theorem Holds.mem_values (h : Holds key rows d) : v ∈ d.values ↔ v ∈ rows := by
  rw [values, List.mem_map]
  constructor
  · rintro ⟨⟨k, w⟩, hmem, rfl⟩
    exact ((h k w).mp ((mem_items_iff d).mp hmem)).1
  · intro hv
    exact ⟨(key v, v), (mem_items_iff d).mpr ((h _ v).mpr ⟨hv, rfl⟩), rfl⟩

/-- The values have different keys. -/
theorem Holds.nodup_map_key (h : Holds key rows d) : (d.values.map key).Nodup := by
  have heq : d.values.map key = d.items.map Prod.fst := by
    rw [values, List.map_map]
    refine List.map_congr_left (fun item hitem => ?_)
    exact ((h item.1 item.2).mp ((mem_items_iff d).mp hitem)).2
  rw [heq]
  exact d.nodup_keys

/-- One more row, which replaces what is under its key or leaves it: it is the same row. -/
theorem Holds.of_get?_self (h : Holds key rows d) (hkey : ∀ w ∈ rows, key w = key v → w = v)
    {d' : Dict κ ν} (hself : d'.get? (key v) = some v)
    (hne : ∀ k, key v ≠ k → d'.get? k = d.get? k) : Holds key (rows ++ [v]) d' := by
  intro k w
  rw [List.mem_append, List.mem_singleton]
  by_cases hk : key v = k
  · subst hk
    rw [hself, Option.some.injEq]
    constructor
    · rintro rfl
      exact ⟨Or.inr rfl, rfl⟩
    · rintro ⟨hmem | rfl, hw⟩
      · exact (hkey w hmem hw).symm
      · rfl
  · rw [hne k hk, h k w]
    refine and_congr_left (fun hw => ⟨Or.inl, ?_⟩)
    rintro (hmem | rfl)
    · exact hmem
    · exact absurd hw hk

theorem Holds.set (h : Holds key rows d) (hkey : ∀ w ∈ rows, key w = key v → w = v) :
    Holds key (rows ++ [v]) (d.set (key v) v) :=
  h.of_get?_self hkey (get?_set_self _ _ _) (fun _ hk => get?_set_of_ne _ _ hk)

theorem Holds.setDefault (h : Holds key rows d) (hkey : ∀ w ∈ rows, key w = key v → w = v) :
    Holds key (rows ++ [v]) (d.setDefault (key v) v) := by
  refine h.of_get?_self hkey ?_ (fun _ hk => get?_setDefault_of_ne _ _ hk)
  rw [get?_setDefault_self]
  cases hget : d.get? (key v) with
  | none => rfl
  | some w =>
    obtain ⟨hmem, hw⟩ := (h _ w).mp hget
    rw [Option.getD_some, hkey w hmem hw]

/-- All rows are held after a loop that stores them one way or the other. -/
theorem Holds.foldl {store : Dict κ ν → ν → Dict κ ν} {more : List ν}
    (hstore : ∀ {rows d v}, Holds key rows d → (∀ w ∈ rows, key w = key v → w = v) →
      Holds key (rows ++ [v]) (store d v))
    (h : Holds key rows d)
    (hkey : ∀ v ∈ rows ++ more, ∀ w ∈ rows ++ more, key w = key v → w = v) :
    Holds key (rows ++ more) (more.foldl store d) := by
  induction more generalizing rows d with
  | nil => simpa using h
  | cons v rest ih =>
    rw [List.append_cons] at hkey ⊢
    refine ih (hstore h (fun w hw => ?_)) hkey
    exact hkey v (by simp) w (by simp [hw])

/-- Dictionaries that hold the same rows list them alike, once they are sorted by their keys. -/
theorem Holds.sortOn_values_congr [LinearOrder κ] {others : List ν} {d' : Dict κ ν}
    (h : Holds key rows d) (h' : Holds key others d') (hmem : ∀ v, v ∈ rows ↔ v ∈ others) :
    sortOn key d.values = sortOn key d'.values := by
  have hnodup := h.nodup_map_key
  have hperm : d.values.Perm d'.values := by
    rw [List.perm_ext_iff_of_nodup hnodup.of_map h'.nodup_map_key.of_map]
    intro v
    rw [h.mem_values, h'.mem_values, hmem]
  have hsorted : (sortOn key d.values).Perm (sortOn key d'.values) :=
    ((perm_sortOn _).trans hperm).trans (perm_sortOn _).symm
  refine hsorted.eq_of_pairwise (fun v w hv hw hle hge => ?_) (pairwise_sortOn _)
    (pairwise_sortOn _)
  refine List.inj_on_of_nodup_map hnodup (mem_sortOn.mp hv) ?_ (le_antisymm hle hge)
  exact hperm.mem_iff.mpr (mem_sortOn.mp hw)

end Holds

/-! ### Groups up to some row -/

theorem group_concat (key : α → κ) (xs : List α) (x : α) :
    group key (xs ++ [x])
      = (group key xs).set (key x) (((group key xs).get? (key x)).getD [] ++ [x]) := by
  rw [group, List.foldl_append]
  rfl

/-- Under each key are the elements that have it. -/
theorem getD_get?_group (key : α → κ) (xs : List α) (k : κ) :
    ((group key xs).get? k).getD [] = xs.filter (fun x => key x = k) := by
  rw [get?_group]
  split
  · rename_i hnil
    exact hnil.symm
  · rfl

/-- What passes a test at the front of each list. -/
def shown (p : α → Bool) (items : List (κ × List α)) : List (κ × List α) :=
  (items.map (fun item => (item.1, item.2.takeWhile p))).filter (fun item => ! item.2.isEmpty)

omit [DecidableEq κ] in
theorem shown_cons (p : α → Bool) (item : κ × List α) (items : List (κ × List α)) :
    shown p (item :: items)
      = if (item.2.takeWhile p).isEmpty then shown p items
        else (item.1, item.2.takeWhile p) :: shown p items := by
  rw [shown, List.map_cons, List.filter_cons]
  cases (item.2.takeWhile p).isEmpty with
  | true => rfl
  | false => rfl

theorem takeWhile_concat_of_neg {p : α → Bool} {x : α} (hx : ¬ p x) (xs : List α) :
    (xs ++ [x]).takeWhile p = xs.takeWhile p := by
  induction xs with
  | nil => exact List.takeWhile_cons_of_neg hx
  | cons y rest ih =>
    show (y :: (rest ++ [x])).takeWhile p = _
    by_cases hy : p y
    · rw [List.takeWhile_cons_of_pos hy, List.takeWhile_cons_of_pos hy, ih]
    · rw [List.takeWhile_cons_of_neg hy, List.takeWhile_cons_of_neg hy]

/-- An element that fails the test shows nothing more of its list. -/
theorem shown_assign {p : α → Bool} {x : α} (hx : ¬ p x) (k : κ) (items : List (κ × List α)) :
    shown p (assign k ((lookup k items).getD [] ++ [x]) items) = shown p items := by
  induction items with
  | nil =>
    show shown p [(k, [x])] = []
    rw [shown_cons, List.takeWhile_cons_of_neg hx]
    rfl
  | cons item rest ih =>
    by_cases hk : item.1 = k
    · rw [lookup, if_pos hk, assign, if_pos hk, shown_cons, shown_cons, hk]
      show (if ((item.2 ++ [x]).takeWhile p).isEmpty then shown p rest
        else (k, (item.2 ++ [x]).takeWhile p) :: shown p rest) = _
      rw [takeWhile_concat_of_neg hx]
    · rw [lookup, if_neg hk, assign, if_neg hk, shown_cons, shown_cons, ih]

/-- **Rows that fail the test** show nothing more of the groups. -/
theorem shown_group_append {p : α → Bool} {more : List α} (h : ∀ x ∈ more, ¬ p x) (key : α → κ)
    (xs : List α) : shown p (group key (xs ++ more)).items = shown p (group key xs).items := by
  induction more using List.reverseRecOn with
  | nil => rw [List.append_nil]
  | append_singleton more x ih =>
    rw [← List.append_assoc, group_concat]
    refine (shown_assign (h x (by simp)) (key x) _).trans (ih (fun y hy => h y ?_))
    exact List.mem_append_left _ hy

/-- Replacing every value leaves the keys where they are. -/
theorem items_foldl_set {ω : Type} (f : ν → ω) (d : Dict κ ν) :
    (d.items.foldl (fun (e : Dict κ ω) item => e.set item.1 (f item.2)) empty).items
      = d.items.map (fun item => (item.1, f item.2)) := by
  have hloop : ∀ (items : List (κ × ν)) (e : Dict κ ω), (items.map Prod.fst).Nodup →
      (∀ item ∈ items, e.get? item.1 = none) →
      (items.foldl (fun (e : Dict κ ω) item => e.set item.1 (f item.2)) e).items
        = e.items ++ items.map (fun item => (item.1, f item.2)) := by
    intro items
    induction items with
    | nil => exact fun e _ _ => (List.append_nil _).symm
    | cons item rest ih =>
      intro e hnodup hnone
      rw [List.map_cons, List.nodup_cons] at hnodup
      rw [List.foldl_cons, ih _ hnodup.2, items_set_of_get?_none _ _ (hnone item (by simp)),
        List.append_assoc, List.map_cons]
      · rfl
      · intro other hother
        have hne : item.1 ≠ other.1 := fun heq =>
          hnodup.1 (heq ▸ List.mem_map_of_mem hother)
        rw [get?_set_of_ne _ _ hne]
        exact hnone other (List.mem_cons_of_mem _ hother)
  exact hloop d.items empty d.nodup_keys (fun _ _ => rfl)

end InefficiencyEngine.Dict
