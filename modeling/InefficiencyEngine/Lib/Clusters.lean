import InefficiencyEngine.Lib.Dict
import Mathlib.Data.Finset.Card
import Mathlib.Data.Finset.Dedup

namespace InefficiencyEngine.Dict

/-!
# Counting groups

The groups of a list by a key, counted as a set of keys: how many there are, and how many have a
property of their elements.  An element with a key that the list already has adds no group; it can
only take one away from those in which all elements have a property, and only add one to those in
which some element has it.  An element in the place of another with its key changes just their group
(`values_group_replace`).
-/

variable {κ α : Type} [DecidableEq κ] {key : α → κ} {xs ys before after : List α} {x : α}

/-- The keys of the groups that have a property. -/
def groupsWith (key : α → κ) (p : List α → Bool) (xs : List α) : Finset κ :=
  (xs.map key).toFinset.filter (fun k => p (xs.filter (fun x => key x = k)))

/-- The keys of the groups are those of the elements. -/
theorem mem_keys_group {k : κ} :
    k ∈ (group key xs).items.map Prod.fst ↔ k ∈ (xs.map key).toFinset := by
  rw [List.mem_toFinset, List.mem_map, List.mem_map]
  constructor
  · rintro ⟨item, hitem, rfl⟩
    obtain ⟨hne, hkeys⟩ := of_mem_items_group hitem
    obtain ⟨x, hx⟩ := List.exists_mem_of_ne_nil _ hne
    exact ⟨x, hkeys x hx⟩
  · rintro ⟨x, hx, rfl⟩
    obtain ⟨item, hitem, hkey, -⟩ := exists_mem_items_group key hx
    exact ⟨item, hitem, hkey⟩

/-- A group holds the elements with its key. -/
theorem snd_eq_of_mem_items_group {item : κ × List α} (h : item ∈ (group key xs).items) :
    item.2 = xs.filter (fun x => key x = item.1) := by
  have hget := (mem_items_iff _).mp h
  rw [get?_group] at hget
  split at hget
  · cases hget
  · exact (Option.some.inj hget).symm

/-- As many groups as keys. -/
theorem length_values_group (key : α → κ) (xs : List α) :
    (group key xs).values.length = (xs.map key).toFinset.card := by
  rw [values, List.length_map, ← List.length_map (f := Prod.fst),
    ← List.toFinset_card_of_nodup (group key xs).nodup_keys]
  congr 1
  ext k
  rw [List.mem_toFinset, mem_keys_group]

/-- **Counting** the groups with a property. -/
theorem countP_values_group (key : α → κ) (p : List α → Bool) (xs : List α) :
    (group key xs).values.countP p = (groupsWith key p xs).card := by
  have hitems : (group key xs).values.countP p
      = (group key xs).items.countP (fun item => p (xs.filter (fun x => key x = item.1))) := by
    rw [values, List.countP_map]
    refine List.countP_congr (fun item hitem => ?_)
    rw [Function.comp_apply, snd_eq_of_mem_items_group hitem]
  have hkeys : (group key xs).items.countP (fun item => p (xs.filter (fun x => key x = item.1)))
      = ((group key xs).items.map Prod.fst).countP (fun k => p (xs.filter (fun x => key x = k))) :=
    by rw [List.countP_map]; rfl
  rw [hitems, hkeys, List.countP_eq_length_filter,
    ← List.toFinset_card_of_nodup ((group key xs).nodup_keys.filter _)]
  congr 1
  ext k
  rw [List.mem_toFinset, List.mem_filter, mem_keys_group, groupsWith, Finset.mem_filter]

/-! ### Another order -/

/-! ### One more element -/

/-- An element with a key of the list adds no key. -/
theorem keys_insert (hx : key x ∈ (before ++ after).map key) :
    ((before ++ x :: after).map key).toFinset = ((before ++ after).map key).toFinset := by
  ext k
  simp only [List.mem_toFinset, List.map_append, List.map_cons, List.mem_append, List.mem_cons]
    at hx ⊢
  constructor
  · rintro (h | rfl | h)
    · exact Or.inl h
    · exact hx
    · exact Or.inr h
  · rintro (h | h)
    · exact Or.inl h
    · exact Or.inr (Or.inr h)

/-- The elements of a group are among those of the group with one more. -/
theorem sublist_filter_insert (k : κ) :
    ((before ++ after).filter (fun y => key y = k)).Sublist
      ((before ++ x :: after).filter (fun y => key y = k)) :=
  (List.Sublist.append_left (List.sublist_cons_self x after) before).filter _

/-- A property of all elements can only be lost. -/
theorem groupsWith_all_insert (pred : α → Bool) (hx : key x ∈ (before ++ after).map key) :
    groupsWith key (fun group => group.all pred) (before ++ x :: after)
      ⊆ groupsWith key (fun group => group.all pred) (before ++ after) := by
  intro k hk
  rw [groupsWith, Finset.mem_filter, keys_insert hx] at hk
  refine Finset.mem_filter.mpr ⟨hk.1, List.all_eq_true.mpr (fun y hy => ?_)⟩
  exact List.all_eq_true.mp hk.2 y ((sublist_filter_insert k).subset hy)

/-- A property of some element can only be gained. -/
theorem groupsWith_any_insert (pred : α → Bool) (hx : key x ∈ (before ++ after).map key) :
    groupsWith key (fun group => group.any pred) (before ++ after)
      ⊆ groupsWith key (fun group => group.any pred) (before ++ x :: after) := by
  intro k hk
  rw [groupsWith, Finset.mem_filter] at hk
  rw [groupsWith, Finset.mem_filter, keys_insert hx]
  obtain ⟨y, hy, hpred⟩ := List.any_eq_true.mp hk.2
  exact ⟨hk.1, List.any_eq_true.mpr ⟨y, (sublist_filter_insert k).subset hy, hpred⟩⟩

/-! ### An element in the place of another -/

/-- The keys in the order in which they first occur. -/
def firstKeys (ks : List κ) : List κ :=
  ks.foldl (fun seen k => if k ∈ seen then seen else seen ++ [k]) []

/-- The groups come in the order of their first elements. -/
theorem keys_group (key : α → κ) (xs : List α) :
    (group key xs).items.map Prod.fst = firstKeys (xs.map key) := by
  suffices h : ∀ (xs : List α) (d : Dict κ (List α)),
      (xs.foldl (fun d x => d.set (key x) ((d.get? (key x)).getD [] ++ [x])) d).items.map Prod.fst
        = (xs.map key).foldl (fun seen k => if k ∈ seen then seen else seen ++ [k])
          (d.items.map Prod.fst) from h xs empty
  intro xs
  induction xs with
  | nil => exact fun d => rfl
  | cons x rest ih =>
    intro d
    rw [List.foldl_cons, ih, List.map_cons, List.foldl_cons]
    congr 1
    by_cases hmem : key x ∈ d.items.map Prod.fst
    · rw [if_pos hmem]
      exact map_fst_assign_of_mem _ hmem
    · rw [if_neg hmem, items_set_of_get?_none d _ ((lookup_eq_none_iff _ _).mpr hmem),
        List.map_append, List.map_singleton]

/-- The groups, key by key. -/
theorem values_group (key : α → κ) (xs : List α) :
    (group key xs).values
      = (firstKeys (xs.map key)).map (fun k => xs.filter (fun x => key x = k)) := by
  rw [← keys_group, List.map_map, values]
  exact List.map_congr_left (fun item hitem => snd_eq_of_mem_items_group hitem)

/-- **Replacing.** An element in the place of another with its key changes just their group. -/
theorem values_group_replace {y : α} (hkey : key y = key x) :
    ∃ groups groups' ahead behind,
      (group key (before ++ x :: after)).values = groups ++ (ahead ++ x :: behind) :: groups'
        ∧ (group key (before ++ y :: after)).values
          = groups ++ (ahead ++ y :: behind) :: groups'
        ∧ ahead ++ x :: behind = (before ++ x :: after).filter (fun w => key w = key x) := by
  have hkeys : (before ++ y :: after).map key = (before ++ x :: after).map key := by
    simp [hkey]
  have hmem : key x ∈ firstKeys ((before ++ x :: after).map key) := by
    rw [← keys_group, mem_keys_group]
    simp
  have hnodup : (firstKeys ((before ++ x :: after).map key)).Nodup := by
    rw [← keys_group]
    exact (group key _).nodup_keys
  obtain ⟨ks, ks', hsplit⟩ := List.append_of_mem hmem
  rw [hsplit] at hnodup
  have hother : ∀ k, k ∈ ks ∨ k ∈ ks' → k ≠ key x := by
    rintro k hk rfl
    exact (List.nodup_middle.mp hnodup).notMem (by simpa using hk)
  -- the other groups have neither element
  have hgroup : ∀ z, key z = key x → ∀ k, k ∈ ks ∨ k ∈ ks' →
      (before ++ z :: after).filter (fun w => key w = k)
        = (before ++ after).filter (fun w => key w = k) := by
    intro z hz k hk
    have hne : ¬ key z = k := fun he => hother k hk (he.symm.trans hz)
    simp [hne]
  refine ⟨ks.map (fun k => (before ++ after).filter (fun w => key w = k)),
    ks'.map (fun k => (before ++ after).filter (fun w => key w = k)),
    before.filter (fun w => key w = key x), after.filter (fun w => key w = key x), ?_, ?_,
    by simp⟩
  · rw [values_group, hsplit, List.map_append, List.map_cons,
      List.map_congr_left (fun k hk => hgroup x rfl k (Or.inl hk)),
      List.map_congr_left (fun k hk => hgroup x rfl k (Or.inr hk))]
    simp
  · rw [values_group, hkeys, hsplit, List.map_append, List.map_cons,
      List.map_congr_left (fun k hk => hgroup y hkey k (Or.inl hk)),
      List.map_congr_left (fun k hk => hgroup y hkey k (Or.inr hk))]
    simp [hkey]

end InefficiencyEngine.Dict
