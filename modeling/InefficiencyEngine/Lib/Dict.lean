import InefficiencyEngine.Lib.Loop
import Mathlib.Algebra.BigOperators.Group.List.Basic
import Mathlib.Data.List.Nodup
import Mathlib.Order.Lattice
import Mathlib.Tactic.Abel

namespace InefficiencyEngine

/-!
# Insertion-ordered dictionaries

A dictionary is the list of its items in the order in which their keys were first
assigned, with the keys pairwise distinct.  Assigning a key that is present replaces
the value in place; a new key goes to the end.  The distinctness is a field, so a
dictionary with two values under one key cannot be built.

On top of the structure there are two ways of indexing a list by a key — the last
element of the list wins (`Dict.collect`), or the newest one by a stamp wins
(`Dict.collectNewest`) — and the accumulating assignment `d[k] += x` (`Dict.add`).
-/

variable {κ ν α : Type} [DecidableEq κ]

/-! ### Association lists -/

/-- The value under the first occurrence of `k`. -/
def lookup (k : κ) : List (κ × ν) → Option ν
  | [] => none
  | p :: rest => if p.1 = k then some p.2 else lookup k rest

/-- Replace the value under `k` in place, or append the new item. -/
def assign (k : κ) (v : ν) : List (κ × ν) → List (κ × ν)
  | [] => [(k, v)]
  | p :: rest => if p.1 = k then (k, v) :: rest else p :: assign k v rest

/-- `lookup` fails exactly on the keys that do not occur. -/
theorem lookup_eq_none_iff (k : κ) (l : List (κ × ν)) :
    lookup k l = none ↔ k ∉ l.map Prod.fst := by
  induction l with
  | nil => simp [lookup]
  | cons p rest ih =>
    by_cases hp : p.1 = k
    · simp [lookup, hp]
    · simp only [lookup, if_neg hp, ih, List.map_cons, List.mem_cons, not_or]
      exact ⟨fun h => ⟨fun he => hp he.symm, h⟩, fun h => h.2⟩

/-- Assigning a key that does not occur appends the item. -/
theorem assign_of_not_mem {k : κ} (v : ν) {l : List (κ × ν)} (hk : k ∉ l.map Prod.fst) :
    assign k v l = l ++ [(k, v)] := by
  induction l with
  | nil => rfl
  | cons p rest ih =>
    rw [List.map_cons, List.mem_cons, not_or] at hk
    rw [assign, if_neg (fun he => hk.1 he.symm), ih hk.2, List.cons_append]

/-- Assigning a key that occurs keeps the list of keys. -/
theorem map_fst_assign_of_mem {k : κ} (v : ν) {l : List (κ × ν)} (hk : k ∈ l.map Prod.fst) :
    (assign k v l).map Prod.fst = l.map Prod.fst := by
  induction l with
  | nil => simp at hk
  | cons p rest ih =>
    by_cases hp : p.1 = k
    · rw [assign, if_pos hp, List.map_cons, List.map_cons, hp]
    · have hrest : k ∈ rest.map Prod.fst := by
        rcases List.mem_cons.mp hk with he | he
        · exact absurd he.symm hp
        · exact he
      rw [assign, if_neg hp, List.map_cons, List.map_cons, ih hrest]

/-- Assignment keeps the keys distinct. -/
theorem nodup_assign (k : κ) (v : ν) {l : List (κ × ν)} (hl : (l.map Prod.fst).Nodup) :
    ((assign k v l).map Prod.fst).Nodup := by
  by_cases hk : k ∈ l.map Prod.fst
  · rw [map_fst_assign_of_mem v hk]
    exact hl
  · rw [assign_of_not_mem v hk, List.map_append, List.map_singleton]
    exact hl.append (List.nodup_singleton k) (by simpa using hk)

/-- Reading after an assignment. -/
theorem lookup_assign (k k' : κ) (v : ν) (l : List (κ × ν)) :
    lookup k' (assign k v l) = if k = k' then some v else lookup k' l := by
  induction l with
  | nil => rfl
  | cons p rest ih =>
    by_cases hp : p.1 = k
    · by_cases hk : k = k'
      · simp [assign, lookup, hp, hk]
      · simp [assign, lookup, hp, hk]
    · by_cases hk : k = k'
      · have hp' : p.1 ≠ k' := fun he => hp (he.trans hk.symm)
        simp only [assign, if_neg hp, lookup, if_neg hp', ih]
      · simp only [assign, if_neg hp, lookup, ih, if_neg hk]

/-- With distinct keys, an item of the list is what `lookup` finds. -/
theorem lookup_eq_some_iff {k : κ} {v : ν} {l : List (κ × ν)} (hl : (l.map Prod.fst).Nodup) :
    lookup k l = some v ↔ (k, v) ∈ l := by
  induction l with
  | nil => simp [lookup]
  | cons p rest ih =>
    obtain ⟨k₀, v₀⟩ := p
    rw [List.map_cons, List.nodup_cons] at hl
    by_cases hp : k₀ = k
    · subst hp
      have hnot : (k₀, v) ∉ rest := fun h => hl.1 (List.mem_map.mpr ⟨_, h, rfl⟩)
      simp only [lookup, if_true, Option.some.injEq, List.mem_cons, Prod.mk.injEq, true_and,
        hnot, or_false]
      exact eq_comm
    · have hne : ¬ k = k₀ := fun he => hp he.symm
      simp only [lookup, if_neg hp, ih hl.2, List.mem_cons, Prod.mk.injEq, hne, false_and,
        false_or]

/-- Leaving out a key takes exactly its item out of a sum over the list. -/
theorem sum_filter_ne_add {M : Type} [AddCommMonoid M] {k : κ} {v : ν} {l : List (κ × ν)}
    (hl : (l.map Prod.fst).Nodup) (hmem : (k, v) ∈ l) (f : κ × ν → M) :
    ((l.filter (fun p => p.1 ≠ k)).map f).sum + f (k, v) = (l.map f).sum := by
  induction l with
  | nil => simp at hmem
  | cons p rest ih =>
    rw [List.map_cons, List.nodup_cons] at hl
    rcases List.mem_cons.mp hmem with rfl | hrest
    · have hkeep : rest.filter (fun p => p.1 ≠ k) = rest := by
        refine List.filter_eq_self.mpr (fun q hq => ?_)
        have hne : q.1 ≠ k := fun he => hl.1 (List.mem_map.mpr ⟨q, hq, he⟩)
        simpa using hne
      rw [List.filter_cons_of_neg (by simp), hkeep, List.map_cons, List.sum_cons, add_comm]
    · have hne : p.1 ≠ k := by
        intro he
        rw [he] at hl
        exact hl.1 (List.mem_map_of_mem hrest)
      rw [List.filter_cons_of_pos (by simpa using hne), List.map_cons, List.map_cons,
        List.sum_cons, List.sum_cons, add_assoc, ih hl.2 hrest]

/-! ### The structure -/

/-- A dictionary: items in insertion order, one for each key. -/
structure Dict (κ ν : Type) where
  /-- The items in the order in which their keys were first assigned. -/
  items : List (κ × ν)
  /-- No key occurs twice. -/
  nodup_keys : (items.map Prod.fst).Nodup

namespace Dict

/-- The dictionary with no item. -/
def empty : Dict κ ν := ⟨[], List.nodup_nil⟩

/-- `d.get(k)`. -/
def get? (d : Dict κ ν) (k : κ) : Option ν := lookup k d.items

/-- `d[k] = v`. -/
def set (d : Dict κ ν) (k : κ) (v : ν) : Dict κ ν :=
  ⟨assign k v d.items, nodup_assign k v d.nodup_keys⟩

/-- `d.values()`. -/
def values (d : Dict κ ν) : List ν := d.items.map Prod.snd

@[simp] theorem get?_empty (k : κ) : (empty : Dict κ ν).get? k = none := rfl

omit [DecidableEq κ] in
@[simp] theorem items_empty : (empty : Dict κ ν).items = [] := rfl

theorem get?_set (d : Dict κ ν) (k k' : κ) (v : ν) :
    (d.set k v).get? k' = if k = k' then some v else d.get? k' :=
  lookup_assign k k' v d.items

@[simp] theorem get?_set_self (d : Dict κ ν) (k : κ) (v : ν) :
    (d.set k v).get? k = some v := by
  rw [get?_set, if_pos rfl]

theorem get?_set_of_ne (d : Dict κ ν) {k k' : κ} (v : ν) (h : k ≠ k') :
    (d.set k v).get? k' = d.get? k' := by
  rw [get?_set, if_neg h]

/-- The items are the graph of `get?`. -/
theorem mem_items_iff (d : Dict κ ν) {k : κ} {v : ν} :
    (k, v) ∈ d.items ↔ d.get? k = some v :=
  (lookup_eq_some_iff d.nodup_keys).symm

/-- A new key goes to the end. -/
theorem items_set_of_get?_none (d : Dict κ ν) {k : κ} (v : ν) (h : d.get? k = none) :
    (d.set k v).items = d.items ++ [(k, v)] :=
  assign_of_not_mem v ((lookup_eq_none_iff k d.items).mp h)

/-- `d.pop(k, None)`. -/
def erase (d : Dict κ ν) (k : κ) : Dict κ ν :=
  ⟨d.items.filter (fun p => p.1 ≠ k),
    (List.Sublist.map Prod.fst List.filter_sublist).nodup d.nodup_keys⟩

/-- Looking a key up after leaving out another one. -/
private theorem lookup_filter_ne (k k' : κ) (l : List (κ × ν)) :
    lookup k' (l.filter (fun p => p.1 ≠ k)) = if k = k' then none else lookup k' l := by
  induction l with
  | nil => simp [lookup]
  | cons p rest ih =>
    by_cases hp : p.1 = k
    · rw [List.filter_cons_of_neg (by simpa using hp), ih]
      by_cases hk : k = k'
      · simp [hk]
      · have hp' : p.1 ≠ k' := fun he => hk (hp.symm.trans he)
        simp [hk, lookup, hp']
    · rw [List.filter_cons_of_pos (by simpa using hp), lookup, lookup, ih]
      by_cases hk : k = k'
      · have hp' : p.1 ≠ k' := fun he => hp (he.trans hk.symm)
        simp [hk, hp']
      · simp [hk]

theorem get?_erase (d : Dict κ ν) (k k' : κ) :
    (d.erase k).get? k' = if k = k' then none else d.get? k' :=
  lookup_filter_ne k k' d.items

/-- Reading after erasing a list of keys. -/
theorem get?_foldl_erase (ks : List κ) (d : Dict κ ν) (k : κ) :
    (ks.foldl erase d).get? k = if k ∈ ks then none else d.get? k := by
  induction ks generalizing d with
  | nil => simp
  | cons k₀ ks ih =>
    rw [List.foldl_cons, ih, get?_erase]
    by_cases hmem : k ∈ ks
    · simp [hmem]
    · by_cases hk : k₀ = k
      · simp [hk]
      · simp [hmem, hk, Ne.symm hk]

/-! ### Accumulating assignment -/

section Accumulate

variable {M : Type} [AddCommMonoid M]

/-- `d[k] += x` on a dictionary whose missing values count as `0`. -/
def add (d : Dict κ M) (k : κ) (x : M) : Dict κ M := d.set k ((d.get? k).getD 0 + x)

/-- Accumulating under a key changes what is read under that key. -/
theorem getD_get?_add (d : Dict κ M) (k k' : κ) (x : M) :
    ((d.add k x).get? k').getD 0 = (d.get? k').getD 0 + if k = k' then x else 0 := by
  rw [add, get?_set]
  by_cases hk : k = k'
  · rw [if_pos hk, if_pos hk, hk, Option.getD_some]
  · rw [if_neg hk, if_neg hk, add_zero]

/-- Accumulating under several keys, once for each time a key is listed. -/
theorem getD_get?_foldl_add_count (ks : List κ) (d : Dict κ M) (k : κ) (x : M) :
    ((ks.foldl (fun d k => d.add k x) d).get? k).getD 0
      = (d.get? k).getD 0 + ks.count k • x := by
  induction ks generalizing d with
  | nil => simp
  | cons k₀ rest ih =>
    rw [List.foldl_cons, ih, getD_get?_add, add_assoc]
    by_cases hk : k₀ = k
    · subst hk
      rw [if_pos rfl, List.count_cons_self, succ_nsmul']
    · rw [if_neg hk, zero_add, List.count_cons_of_ne hk]

/-- Accumulating once under each of several distinct keys. -/
theorem getD_get?_foldl_add {ks : List κ} (hks : ks.Nodup) (d : Dict κ M) (k : κ) (x : M) :
    ((ks.foldl (fun d k => d.add k x) d).get? k).getD 0
      = (d.get? k).getD 0 + if k ∈ ks then x else 0 := by
  rw [getD_get?_foldl_add_count, hks.count, ite_smul, one_nsmul, zero_nsmul]

/-- The sum of the values, over an association list. -/
private theorem sum_assign_add (k : κ) (x : M) (l : List (κ × M)) :
    ((assign k ((lookup k l).getD 0 + x) l).map Prod.snd).sum = (l.map Prod.snd).sum + x := by
  induction l with
  | nil => simp [assign, lookup]
  | cons p rest ih =>
    by_cases hp : p.1 = k
    · simp only [assign, lookup, if_pos hp, Option.getD_some, List.map_cons, List.sum_cons]
      abel
    · simp only [assign, lookup, if_neg hp, List.map_cons, List.sum_cons, ih]
      abel

/-- Accumulating `x` under any key raises the total by `x`. -/
theorem sum_values_add (d : Dict κ M) (k : κ) (x : M) :
    (d.add k x).values.sum = d.values.sum + x :=
  sum_assign_add k x d.items

end Accumulate

/-! ### Indexing a list by a key -/

/-- `{key(x): x for x in xs}`: of several elements with one key the last one stays. -/
def collect (key : α → κ) (xs : List α) : Dict κ α :=
  xs.foldl (fun d x => d.set (key x) x) empty

/-- Reading an index started from `d`: the last element with the key, else what `d` had. -/
private theorem get?_foldl_set (key : α → κ) (xs : List α) (d : Dict κ α) (k : κ) :
    (xs.foldl (fun d x => d.set (key x) x) d).get? k
      = ((xs.filter (fun x => key x = k)).getLast?).or (d.get? k) := by
  induction xs generalizing d with
  | nil => rfl
  | cons x rest ih =>
    rw [List.foldl_cons, ih, get?_set]
    by_cases hx : key x = k
    · rw [List.filter_cons_of_pos (by simpa using hx), if_pos hx]
      cases hrest : rest.filter (fun y => key y = k) with
      | nil => rfl
      | cons y ys => simp [List.getLast?_cons]
    · rw [List.filter_cons_of_neg (by simpa using hx), if_neg hx]

/-- **Last wins.** The index holds the last element of the list with the key. -/
theorem get?_collect (key : α → κ) (xs : List α) (k : κ) :
    (collect key xs).get? k = (xs.filter (fun x => key x = k)).getLast? := by
  rw [collect, get?_foldl_set, get?_empty, Option.or_none]

/-- `x` is the last element of the list with key `k`. -/
def LastListed (key : α → κ) (xs : List α) (k : κ) (x : α) : Prop :=
  ∃ before after, xs = before ++ x :: after ∧ key x = k ∧ ∀ y ∈ after, key y ≠ k

/-- The index holds, under each key, the last listed element with it. -/
theorem get?_collect_eq_some_iff {key : α → κ} {xs : List α} {k : κ} {x : α} :
    (collect key xs).get? k = some x ↔ LastListed key xs k x := by
  rw [get?_collect, List.getLast?_eq_some_iff]
  constructor
  · rintro ⟨ys, hys⟩
    obtain ⟨before, rest, rfl, -, hrest⟩ := List.filter_eq_append_iff.mp hys
    obtain ⟨skipped, after, rfl, hskipped, hx, hafter⟩ := List.filter_eq_cons_iff.mp hrest
    refine ⟨before ++ skipped, after, by simp, by simpa using hx, fun y hy => ?_⟩
    simpa using List.filter_eq_nil_iff.mp hafter y hy
  · rintro ⟨before, after, rfl, hx, hafter⟩
    refine ⟨before.filter (fun y => key y = k), ?_⟩
    have hnil : after.filter (fun y => key y = k) = [] :=
      List.filter_eq_nil_iff.mpr (fun y hy => by simpa using hafter y hy)
    rw [List.filter_append, List.filter_cons_of_pos (by simpa using hx), hnil]

/-- An index knows a key exactly when some element of the list has it. -/
theorem exists_get?_collect_iff {key : α → κ} {xs : List α} {k : κ} :
    (∃ x, (collect key xs).get? k = some x) ↔ ∃ x ∈ xs, key x = k := by
  constructor
  · rintro ⟨x, hx⟩
    obtain ⟨before, after, rfl, hkey, -⟩ := get?_collect_eq_some_iff.mp hx
    exact ⟨x, by simp, hkey⟩
  · rintro ⟨x, hx, hkey⟩
    have hne : xs.filter (fun y => key y = k) ≠ [] :=
      List.ne_nil_of_mem (List.mem_filter.mpr ⟨hx, by simpa using hkey⟩)
    exact ⟨_, (get?_collect key xs k).trans (List.getLast?_eq_some_getLast hne)⟩

/-- What a last-wins index returns is an element of the list with that key. -/
theorem mem_of_get?_collect {key : α → κ} {xs : List α} {k : κ} {x : α}
    (h : (collect key xs).get? k = some x) : x ∈ xs ∧ key x = k := by
  rw [get?_collect] at h
  have hmem := List.mem_of_getLast? h
  simpa using hmem

/-- The values of a last-wins index have its keys. -/
theorem map_values_collect (key : α → κ) (xs : List α) :
    (collect key xs).values.map key = (collect key xs).items.map Prod.fst := by
  rw [values, List.map_map]
  refine List.map_congr_left (fun item hitem => ?_)
  exact (mem_of_get?_collect ((mem_items_iff _).mp hitem)).2

/-- The values of a last-wins index are elements of the list. -/
theorem mem_of_mem_values_collect {key : α → κ} {xs : List α} {x : α}
    (h : x ∈ (collect key xs).values) : x ∈ xs := by
  obtain ⟨item, hitem, rfl⟩ := List.mem_map.mp h
  exact (mem_of_get?_collect ((mem_items_iff _).mp hitem)).1

/-- Every key of the list is the key of a value. -/
theorem exists_mem_values_collect (key : α → κ) {xs : List α} {x : α} (hx : x ∈ xs) :
    ∃ y ∈ (collect key xs).values, key y = key x := by
  obtain ⟨y, hy⟩ := exists_get?_collect_iff.mpr ⟨x, hx, Eq.refl (key x)⟩
  exact ⟨y, List.mem_map.mpr ⟨_, (mem_items_iff _).mpr hy, rfl⟩, (mem_of_get?_collect hy).2⟩

/-- In an index of elements with distinct keys each is found under its own key. -/
theorem get?_collect_of_nodup {key : α → κ} {xs : List α} (h : (xs.map key).Nodup) {x : α}
    (hx : x ∈ xs) : (collect key xs).get? (key x) = some x := by
  obtain ⟨before, after, rfl⟩ := List.append_of_mem hx
  refine get?_collect_eq_some_iff.mpr ⟨before, after, rfl, rfl, fun y hy hkey => ?_⟩
  rw [List.map_append, List.map_cons] at h
  refine (List.nodup_middle.mp h).notMem (List.mem_append_right _ ?_)
  rw [← hkey]
  exact List.mem_map_of_mem hy

/-- An index of elements with distinct keys has just these values. -/
theorem values_collect_of_nodup {key : α → κ} {xs : List α} (h : (xs.map key).Nodup) :
    (collect key xs).values = xs := by
  suffices hitems : ∀ (rest seen : List α) (d : Dict κ α), xs = seen ++ rest →
      d.items = seen.map (fun x => (key x, x)) →
      (rest.foldl (fun d x => d.set (key x) x) d).items = xs.map (fun x => (key x, x)) by
    rw [values, collect, hitems xs [] empty rfl rfl, List.map_map]
    exact List.map_id xs
  intro rest
  induction rest with
  | nil =>
    intro seen d hxs hd
    rw [List.append_nil] at hxs
    rw [hxs]
    exact hd
  | cons x rest ih =>
    intro seen d hxs hd
    rw [List.foldl_cons]
    refine ih (seen ++ [x]) _ (by rw [hxs, List.append_cons]) ?_
    have hnew : d.get? (key x) = none := by
      refine (lookup_eq_none_iff (key x) d.items).mpr (fun hmem => ?_)
      rw [hd, List.map_map] at hmem
      rw [hxs, List.map_append, List.map_cons] at h
      exact (List.nodup_middle.mp h).notMem (List.mem_append_left _ hmem)
    rw [items_set_of_get?_none d x hnew, hd, List.map_append]
    rfl

/-- `for x in xs: d.setdefault(key(x), []).append(x)`. -/
def group (key : α → κ) (xs : List α) : Dict κ (List α) :=
  xs.foldl (fun d x => d.set (key x) ((d.get? (key x)).getD [] ++ [x])) empty

/-- Under each key are the elements that have it, in the order of the list. -/
theorem get?_group (key : α → κ) (xs : List α) (k : κ) :
    (group key xs).get? k
      = if xs.filter (fun x => key x = k) = [] then none
        else some (xs.filter (fun x => key x = k)) := by
  refine foldl_invariant (P := fun seen (d : Dict κ (List α)) => d.get? k
    = if seen.filter (fun x => key x = k) = [] then none
      else some (seen.filter (fun x => key x = k))) ?_ xs rfl
  intro seen d x hseen
  by_cases hk : key x = k
  · subst hk
    have hlast : (seen ++ [x]).filter (fun y => key y = key x)
        = seen.filter (fun y => key y = key x) ++ [x] := by simp
    rw [get?_set_self, hlast, if_neg (by simp), hseen]
    by_cases hempty : seen.filter (fun y => key y = key x) = []
    · rw [if_pos hempty, hempty]
      rfl
    · rw [if_neg hempty]
      rfl
  · have hsame : (seen ++ [x]).filter (fun y => key y = k) = seen.filter (fun y => key y = k) := by
      simp [hk]
    rw [get?_set_of_ne _ _ hk, hseen, hsame]

/-- A group has elements, all of them with its key. -/
theorem of_mem_items_group {key : α → κ} {xs : List α} {item : κ × List α}
    (h : item ∈ (group key xs).items) :
    item.2 ≠ [] ∧ ∀ x ∈ item.2, x ∈ xs ∧ key x = item.1 := by
  have hget := (mem_items_iff _).mp h
  rw [get?_group] at hget
  split at hget
  · cases hget
  · rename_i hne
    injection hget with hget
    rw [← hget]
    exact ⟨hne, fun x hx => by simpa using hx⟩

/-- Every element is in the group of its key. -/
theorem exists_mem_items_group (key : α → κ) {xs : List α} {x : α} (hx : x ∈ xs) :
    ∃ item ∈ (group key xs).items, item.1 = key x ∧ x ∈ item.2 := by
  have hmem : x ∈ xs.filter (fun y => key y = key x) := by simpa using hx
  refine ⟨(key x, xs.filter (fun y => key y = key x)), (mem_items_iff _).mpr ?_, rfl, hmem⟩
  rw [get?_group, if_neg (List.ne_nil_of_mem hmem)]

/-- One step of the newest-wins index: an element replaces the one before it only when
    its stamp is strictly later. -/
def keepNewest {τ : Type} [LT τ] [DecidableLT τ] (key : α → κ) (stamp : α → τ)
    (d : Dict κ α) (x : α) : Dict κ α :=
  match d.get? (key x) with
  | none => d.set (key x) x
  | some previous => if stamp previous < stamp x then d.set (key x) x else d

/-- Of several elements with one key the one with the latest stamp stays, the earliest
    listed among equal stamps. -/
def collectNewest {τ : Type} [LT τ] [DecidableLT τ] (key : α → κ) (stamp : α → τ)
    (xs : List α) : Dict κ α :=
  xs.foldl (keepNewest key stamp) empty

section Newest

variable {τ : Type} [LinearOrder τ] (key : α → κ) (stamp : α → τ)

/-- After a step the key of the element is bound to something at least as new. -/
private theorem get?_keepNewest_self (d : Dict κ α) (x : α) :
    ∃ y, (keepNewest key stamp d x).get? (key x) = some y ∧ stamp x ≤ stamp y := by
  unfold keepNewest
  cases hd : d.get? (key x) with
  | none => exact ⟨x, get?_set_self d _ x, le_refl _⟩
  | some previous =>
    by_cases hlt : stamp previous < stamp x
    · exact ⟨x, by simp [hlt], le_refl _⟩
    · exact ⟨previous, by simp [hlt, hd], not_lt.mp hlt⟩

/-- A step never makes a binding older. -/
private theorem get?_keepNewest_mono (d : Dict κ α) (x : α) {k : κ} {z : α}
    (hz : d.get? k = some z) :
    ∃ y, (keepNewest key stamp d x).get? k = some y ∧ stamp z ≤ stamp y := by
  by_cases hk : key x = k
  · subst hk
    unfold keepNewest
    rw [hz]
    by_cases hlt : stamp z < stamp x
    · exact ⟨x, by simp [hlt], le_of_lt hlt⟩
    · exact ⟨z, by simp [hlt, hz], le_refl _⟩
  · refine ⟨z, ?_, le_refl _⟩
    unfold keepNewest
    cases d.get? (key x) with
    | none => exact (get?_set_of_ne d x hk).trans hz
    | some previous =>
      by_cases hlt : stamp previous < stamp x
      · simp only [if_pos hlt]
        exact (get?_set_of_ne d x hk).trans hz
      · simp only [if_neg hlt]
        exact hz

/-- A step binds only the element itself, under its own key. -/
private theorem get?_keepNewest_cases (d : Dict κ α) (x : α) {k : κ} {y : α}
    (hy : (keepNewest key stamp d x).get? k = some y) :
    d.get? k = some y ∨ (y = x ∧ key x = k) := by
  have hset : ∀ {y}, (d.set (key x) x).get? k = some y → d.get? k = some y ∨ (y = x ∧ key x = k) := by
    intro y h
    rw [get?_set] at h
    by_cases hk : key x = k
    · rw [if_pos hk, Option.some.injEq] at h
      exact Or.inr ⟨h.symm, hk⟩
    · rw [if_neg hk] at h
      exact Or.inl h
  unfold keepNewest at hy
  split at hy
  · exact hset hy
  · split at hy
    · exact hset hy
    · exact Or.inl hy

/-- After a step exactly the key of the element is bound besides those bound before. -/
theorem exists_get?_keepNewest_iff (d : Dict κ α) (x : α) {k : κ} :
    (∃ y, (keepNewest key stamp d x).get? k = some y)
      ↔ (∃ y, d.get? k = some y) ∨ key x = k := by
  constructor
  · rintro ⟨y, hy⟩
    rcases get?_keepNewest_cases key stamp d x hy with h | ⟨-, h⟩
    · exact Or.inl ⟨y, h⟩
    · exact Or.inr h
  · rintro (⟨z, hz⟩ | rfl)
    · obtain ⟨y, hy, -⟩ := get?_keepNewest_mono key stamp d x hz
      exact ⟨y, hy⟩
    · obtain ⟨y, hy, -⟩ := get?_keepNewest_self key stamp d x
      exact ⟨y, hy⟩

/-- The fold behind the newest-wins index keeps every binding at least as new. -/
private theorem get?_foldl_keepNewest_mono (xs : List α) (d : Dict κ α) {k : κ} {z : α}
    (hz : d.get? k = some z) :
    ∃ y, (xs.foldl (keepNewest key stamp) d).get? k = some y ∧ stamp z ≤ stamp y := by
  induction xs generalizing d z with
  | nil => exact ⟨z, hz, le_refl _⟩
  | cons x rest ih =>
    obtain ⟨w, hw, hzw⟩ := get?_keepNewest_mono key stamp d x hz
    obtain ⟨y, hy, hwy⟩ := ih (keepNewest key stamp d x) hw
    exact ⟨y, hy, hzw.trans hwy⟩

/-- The fold behind the newest-wins index reaches every element of the list. -/
private theorem le_get?_foldl_keepNewest (xs : List α) (d : Dict κ α) {x : α} (hx : x ∈ xs) :
    ∃ y, (xs.foldl (keepNewest key stamp) d).get? (key x) = some y ∧ stamp x ≤ stamp y := by
  induction xs generalizing d with
  | nil => simp at hx
  | cons x₀ rest ih =>
    rcases List.mem_cons.mp hx with rfl | hx
    · obtain ⟨w, hw, hxw⟩ := get?_keepNewest_self key stamp d x
      obtain ⟨y, hy, hwy⟩ := get?_foldl_keepNewest_mono key stamp rest _ hw
      exact ⟨y, hy, hxw.trans hwy⟩
    · exact ih (keepNewest key stamp d x₀) hx

/-- **Newest wins.** Every listed element with a key is at most as new as the binding of
    that key. -/
theorem le_get?_collectNewest {xs : List α} {x : α} (hx : x ∈ xs) :
    ∃ y, (collectNewest key stamp xs).get? (key x) = some y ∧ stamp x ≤ stamp y :=
  le_get?_foldl_keepNewest key stamp xs empty hx

/-- What a newest-wins index returns is an element of the list with that key. -/
theorem mem_of_get?_collectNewest {xs : List α} {k : κ} {y : α}
    (hy : (collectNewest key stamp xs).get? k = some y) : y ∈ xs ∧ key y = k := by
  suffices h : ∀ (l : List α) (d : Dict κ α), (l.foldl (keepNewest key stamp) d).get? k = some y →
      d.get? k = some y ∨ (y ∈ l ∧ key y = k) by
    rcases h xs empty hy with he | hl
    · simp at he
    · exact hl
  intro l
  induction l with
  | nil => exact fun d h => Or.inl h
  | cons x rest ih =>
    intro d h
    rcases ih _ h with h | ⟨hmem, hkey⟩
    · rcases get?_keepNewest_cases key stamp d x h with h | ⟨rfl, hkey⟩
      · exact Or.inl h
      · exact Or.inr ⟨List.mem_cons_self, hkey⟩
    · exact Or.inr ⟨List.mem_cons_of_mem x hmem, hkey⟩

end Newest

end Dict

end InefficiencyEngine
