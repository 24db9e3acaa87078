import Mathlib.Data.List.Pairwise
import Mathlib.Data.List.Perm.Basic
import Mathlib.Order.Lattice

namespace InefficiencyEngine

/-!
# A value that the newest row writes

A record has one stamp and some values.  A row with a time writes its value only when it is at
least as new as the stamp, and a row may have nothing to write.  What is held in the end then
depends on the order of the rows, unless the newest row has a value or no row that can be written
has another one (`settled_iff`).  The same holds for rows of two kinds, the second of which come
after the first (`settledTwice_iff`).
-/

variable {α α' τ β : Type}

/-- The value of a record. -/
def held (state : Option (τ × Option β)) : Option β := state.bind Prod.snd

@[simp] theorem held_none : held (none : Option (τ × Option β)) = none := rfl
@[simp] theorem held_some {t : τ} {v : Option β} : held (some (t, v)) = v := rfl

/-- Some row of a list comes first in another order of it. -/
theorem exists_perm_cons {a : α} {rows : List α} (ha : a ∈ rows) :
    ∃ rest, (a :: rest).Perm rows := by
  obtain ⟨before, after, rfl⟩ := List.append_of_mem ha
  exact ⟨before ++ after, List.perm_middle.symm⟩

/-- Times are distinct in any order of the rows. -/
theorem pairwise_of_perm {time : α → τ} {rows others : List α}
    (hdistinct : rows.Pairwise (fun a b => time a ≠ time b)) (hperm : others.Perm rows) :
    others.Pairwise (fun a b => time a ≠ time b) :=
  hperm.symm.pairwise hdistinct (fun h => h.symm)

/-- Times that are distinct tell the rows apart. -/
theorem eq_of_time_eq {time : α → τ} {rows : List α} {a b : α}
    (hdistinct : rows.Pairwise (fun a b => time a ≠ time b)) (ha : a ∈ rows) (hb : b ∈ rows)
    (h : time a = time b) : a = b := by
  have : Std.Symm (fun a b : α => time a ≠ time b) := ⟨fun _ _ hab => hab.symm⟩
  by_contra hne
  exact hdistinct.forall ha hb hne h

variable [LinearOrder τ]

section Write

variable (time : α → τ) (val : α → Option β)

/-- The stamp and the value after a row; the first row makes the record. -/
def writeRow (state : Option (τ × Option β)) (a : α) : τ × Option β :=
  match state with
  | none => (time a, val a)
  | some (t, v) => if t ≤ time a then (time a, (val a).or v) else (t, v)

/-- The stamp and the value after some rows. -/
def writeRows (state : Option (τ × Option β)) (rows : List α) : Option (τ × Option β) :=
  rows.foldl (fun state a => some (writeRow time val state a)) state

end Write

/-- A time at which a row is written. -/
def Reaches (state : Option (τ × Option β)) (t : τ) : Prop := ∀ entry, state = some entry → entry.1 ≤ t

variable {time : α → τ} {val : α → Option β} {time' : α' → τ} {val' : α' → Option β}
  {state : Option (τ × Option β)} {rows others : List α} {rows' others' : List α'}
  {a b : α} {t : τ} {v : Option β}

theorem reaches_none : Reaches (none : Option (τ × Option β)) t := by simp [Reaches]

@[simp] theorem reaches_some {t' : τ} : Reaches (some (t', v)) t ↔ t' ≤ t := by simp [Reaches]

theorem writeRows_cons (state : Option (τ × Option β)) (a : α) (rows : List α) :
    writeRows time val state (a :: rows)
      = writeRows time val (some (writeRow time val state a)) rows := rfl

theorem writeRows_append (state : Option (τ × Option β)) (rows others : List α) :
    writeRows time val state (rows ++ others)
      = writeRows time val (writeRows time val state rows) others := List.foldl_append

/-- A loop whose body updates a stamp and a value by the rule writes rows. -/
theorem map_foldl_eq_writeRows {ι : Type} {step : Option ι → α → ι} {read : ι → τ × Option β}
    (hstep : ∀ found a, read (step found a) = writeRow time val (found.map read) a)
    (found : Option ι) (rows : List α) :
    (rows.foldl (fun found a => some (step found a)) found).map read
      = writeRows time val (found.map read) rows := by
  induction rows generalizing found with
  | nil => rfl
  | cons a rest ih =>
    rw [List.foldl_cons, ih, writeRows_cons, Option.map_some, hstep]

/-! ### One row -/

theorem writeRow_of_reaches (h : Reaches state (time a)) :
    writeRow time val state a = (time a, (val a).or (held state)) := by
  rcases state with _ | ⟨t, v⟩
  · simp [writeRow]
  · rw [reaches_some] at h
    simp [writeRow, h]

theorem writeRow_of_lt (h : time a < t) : writeRow time val (some (t, v)) a = (t, v) := by
  simp [writeRow, not_le.mpr h]

/-- What is written after a row is written before it was, and is as new as the row. -/
theorem reaches_writeRow :
    Reaches (some (writeRow time val state a)) t ↔ Reaches state t ∧ time a ≤ t := by
  rcases state with _ | ⟨t', v⟩
  · simp [writeRow, Reaches]
  · rcases le_or_gt t' (time a) with hle | hlt
    · rw [writeRow_of_reaches (reaches_some.mpr hle), reaches_some, reaches_some]
      exact ⟨fun h => ⟨hle.trans h, h⟩, And.right⟩
    · rw [writeRow_of_lt hlt, reaches_some]
      exact ⟨fun h => ⟨h, hlt.le.trans h⟩, And.left⟩

/-! ### All rows -/

/-- The stamp is the newest time. -/
theorem reaches_writeRows :
    Reaches (writeRows time val state rows) t ↔ Reaches state t ∧ ∀ a ∈ rows, time a ≤ t := by
  induction rows generalizing state with
  | nil => simp [writeRows]
  | cons a rest ih =>
    rw [writeRows_cons, ih, reaches_writeRow, List.forall_mem_cons, and_assoc]

/-- Rows that are older than the stamp, or as old with the same value, change nothing. -/
theorem writeRows_of_forall_le (h : ∀ b ∈ rows, time b ≤ t ∧ (time b = t → val b = v)) :
    writeRows time val (some (t, v)) rows = some (t, v) := by
  induction rows with
  | nil => rfl
  | cons b rest ih =>
    rw [List.forall_mem_cons] at h
    obtain ⟨⟨hle, hval⟩, hrest⟩ := h
    have hstep : writeRow time val (some (t, v)) b = (t, v) := by
      rcases lt_or_eq_of_le hle with hlt | heq
      · exact writeRow_of_lt hlt
      · rw [writeRow_of_reaches (reaches_some.mpr heq.ge), hval heq, heq, held_some]
        simp
    rw [writeRows_cons, hstep, ih hrest]

/-- **The newest row** has the last word when it has a value. -/
theorem writeRows_of_newest (ha : a ∈ rows) (hreach : Reaches state (time a))
    (hnewest : ∀ b ∈ rows, time b ≤ time a ∧ (time b = time a → val b = val a))
    (hsome : (val a).isSome) : writeRows time val state rows = some (time a, val a) := by
  obtain ⟨before, after, rfl⟩ := List.append_of_mem ha
  have hbefore : Reaches (writeRows time val state before) (time a) :=
    reaches_writeRows.mpr ⟨hreach, fun b hb => (hnewest b (List.mem_append_left _ hb)).1⟩
  have hor : (val a).or (held (writeRows time val state before)) = val a := by
    obtain ⟨x, hx⟩ := Option.isSome_iff_exists.mp hsome
    rw [hx]
    rfl
  rw [writeRows_append, writeRows_cons, writeRow_of_reaches hbefore, hor]
  refine writeRows_of_forall_le (fun b hb => hnewest b ?_)
  exact List.mem_append_right _ (List.mem_cons_of_mem a hb)

/-- Rows that have nothing else to write keep the value. -/
theorem held_writeRows_of_forall
    (h : ∀ b ∈ rows, Reaches state (time b) → val b = none ∨ val b = held state) :
    held (writeRows time val state rows) = held state := by
  induction rows generalizing state with
  | nil => rfl
  | cons b rest ih =>
    rw [List.forall_mem_cons] at h
    have hstep : held (some (writeRow time val state b)) = held state := by
      by_cases hreach : Reaches state (time b)
      · rw [writeRow_of_reaches hreach, held_some]
        rcases h.1 hreach with hnone | heq
        · simp [hnone]
        · simp [heq]
      · rcases state with _ | ⟨t, v⟩
        · exact absurd reaches_none hreach
        · rw [writeRow_of_lt (not_le.mp (fun hle => hreach (reaches_some.mpr hle)))]
    rw [writeRows_cons, ih (fun c hc hreach => ?_), hstep]
    rw [hstep]
    exact h.2 c hc (reaches_writeRow.mp hreach).1

/-- When the newest row comes first, the others are not written. -/
theorem held_writeRows_newest_first (hreach : Reaches state (time a))
    (hrest : ∀ b ∈ rows, time b < time a) :
    held (writeRows time val state (a :: rows)) = (val a).or (held state) := by
  rw [writeRows_cons, writeRow_of_reaches hreach, writeRows_of_forall_le (fun b hb => ?_), held_some]
  exact ⟨(hrest b hb).le, fun heq => absurd heq (ne_of_lt (hrest b hb))⟩

/-! ### Settled values -/

/-- The newest of some rows. -/
def Newest (time : α → τ) (rows : List α) (a : α) : Prop := a ∈ rows ∧ ∀ b ∈ rows, time b ≤ time a

/-- The value does not depend on the order of the rows: the newest row has one, or no row that can
    be written has another one. -/
def Settled (time : α → τ) (val : α → Option β) (state : Option (τ × Option β)) (rows : List α) :
    Prop :=
  (∃ a, Newest time rows a ∧ Reaches state (time a) ∧ (val a).isSome)
  ∨ ∀ b ∈ rows, Reaches state (time b) → val b = none ∨ val b = held state

theorem exists_newest (time : α → τ) (h : rows ≠ []) : ∃ a, Newest time rows a := by
  induction rows with
  | nil => exact absurd rfl h
  | cons a rest ih =>
    by_cases hrest : rest = []
    · subst hrest
      exact ⟨a, by simp [Newest]⟩
    · obtain ⟨b, hb, hnewest⟩ := ih hrest
      rcases le_total (time a) (time b) with hab | hba
      · exact ⟨b, List.mem_cons_of_mem a hb, List.forall_mem_cons.mpr ⟨hab, hnewest⟩⟩
      · refine ⟨a, List.mem_cons_self, List.forall_mem_cons.mpr ⟨le_refl _, fun c hc => ?_⟩⟩
        exact (hnewest c hc).trans hba

theorem Newest.of_perm (h : Newest time rows a) (hperm : others.Perm rows) :
    Newest time others a :=
  ⟨hperm.mem_iff.mpr h.1, fun b hb => h.2 b (hperm.mem_iff.mp hb)⟩

/-- The newest of rows with distinct times is newer than the others. -/
theorem Newest.lt (hdistinct : rows.Pairwise (fun a b => time a ≠ time b))
    (h : Newest time rows a) (hb : b ∈ rows) (hne : b ≠ a) : time b < time a :=
  lt_of_le_of_ne (h.2 b hb) (fun heq => hne (eq_of_time_eq hdistinct hb h.1 heq))

/-- The newest of rows with distinct times writes its value. -/
theorem Newest.held_writeRows (hdistinct : rows.Pairwise (fun a b => time a ≠ time b))
    (h : Newest time rows a) (hreach : Reaches state (time a)) (hsome : (val a).isSome) :
    held (writeRows time val state rows) = val a := by
  rw [writeRows_of_newest h.1 hreach (fun b hb => ⟨h.2 b hb, fun heq => ?_⟩) hsome, held_some]
  rw [eq_of_time_eq hdistinct hb h.1 heq]

/-- A settled value is the same for every order. -/
theorem Settled.held_eq (hdistinct : rows.Pairwise (fun a b => time a ≠ time b))
    (h : Settled time val state rows) (hperm : others.Perm rows) :
    held (writeRows time val state others) = held (writeRows time val state rows) := by
  rcases h with ⟨a, hnewest, hreach, hsome⟩ | hnone
  · rw [hnewest.held_writeRows hdistinct hreach hsome,
      (hnewest.of_perm hperm).held_writeRows (pairwise_of_perm hdistinct hperm) hreach hsome]
  · rw [held_writeRows_of_forall hnone,
      held_writeRows_of_forall (fun b hb => hnone b (hperm.mem_iff.mp hb))]

/-- **Order of rows.** The value is the same for every order exactly when it is settled. -/
theorem settled_iff (hdistinct : rows.Pairwise (fun a b => time a ≠ time b)) :
    Settled time val state rows
      ↔ ∀ others : List α, others.Perm rows →
          held (writeRows time val state others) = held (writeRows time val state rows) := by
  refine ⟨fun h others hperm => h.held_eq hdistinct hperm, fun h => ?_⟩
  by_cases hempty : rows = []
  · exact Or.inr (by simp [hempty])
  obtain ⟨a, hnewest⟩ := exists_newest time hempty
  by_cases hsome : Reaches state (time a) ∧ (val a).isSome
  · exact Or.inl ⟨a, hnewest, hsome⟩
  refine Or.inr (fun b hb hb' => ?_)
  -- the newest row can be written when `b` can, so it has no value
  have hreach : Reaches state (time a) := fun entry hentry =>
    (hb' entry hentry).trans (hnewest.2 b hb)
  have hnone : val a = none := by
    rw [← Option.not_isSome_iff_eq_none]
    exact fun hvalue => hsome ⟨hreach, hvalue⟩
  rcases eq_or_ne b a with rfl | hne
  · exact Or.inl hnone
  -- compare the order that starts with `a` with the one that starts with `b` and `a`
  obtain ⟨rest, hrest⟩ : ∃ rest, (b :: a :: rest).Perm rows := by
    obtain ⟨l, hl⟩ := exists_perm_cons hb
    have ha : a ∈ l := by
      rcases List.mem_cons.mp (hl.mem_iff.mpr hnewest.1) with heq | hmem
      · exact absurd heq.symm hne
      · exact hmem
    obtain ⟨rest, hrest⟩ := exists_perm_cons ha
    exact ⟨rest, (hrest.cons b).trans hl⟩
  have hdistinct' := List.pairwise_cons.mp (pairwise_of_perm hdistinct hrest).of_cons
  have hlt : ∀ c ∈ rest, time c < time a := fun c hc =>
    lt_of_le_of_ne (hnewest.2 c (hrest.subset (by simp [hc]))) (hdistinct'.1 c hc).symm
  have hba : time b < time a := hnewest.lt hdistinct hb hne
  have hfirst : held (writeRows time val state (a :: b :: rest)) = held state := by
    rw [held_writeRows_newest_first hreach (List.forall_mem_cons.mpr ⟨hba, hlt⟩), hnone]
    rfl
  have hsecond : held (writeRows time val state (b :: a :: rest)) = (val b).or (held state) := by
    have hreach' : Reaches (some (writeRow time val state b)) (time a) :=
      reaches_writeRow.mpr ⟨hreach, hba.le⟩
    rw [writeRows_cons, held_writeRows_newest_first hreach' hlt, hnone,
      writeRow_of_reaches hb', held_some]
    rfl
  have heq := (h _ hrest).trans (h _ ((List.Perm.swap b a rest).trans hrest)).symm
  rw [hfirst, hsecond] at heq
  cases hval : val b with
  | none => exact Or.inl rfl
  | some x =>
    rw [hval] at heq
    exact Or.inr heq

/-! ### Rows of two kinds -/

/-- The record after rows of one kind and then rows of another. -/
def writeTwice (time : α → τ) (val : α → Option β) (time' : α' → τ) (val' : α' → Option β)
    (rows : List α) (rows' : List α') : Option (τ × Option β) :=
  writeRows time' val' (writeRows time val none rows) rows'

/-- What rows settle on when there is no record before them. -/
def SettledTo (time : α → τ) (val : α → Option β) (rows : List α) (value : Option β) : Prop :=
  (∃ a, Newest time rows a ∧ (val a).isSome ∧ val a = value)
  ∨ (∀ b ∈ rows, val b = none) ∧ value = none

/-- The value does not depend on the order of the rows of either kind: the newest row of all is
    of the second kind and has one, or the rows of the first kind settle on a value and no row of
    the second kind that can be written has another one. -/
def SettledTwice (time : α → τ) (val : α → Option β) (time' : α' → τ) (val' : α' → Option β)
    (rows : List α) (rows' : List α') : Prop :=
  (∃ b, Newest time' rows' b ∧ (∀ a ∈ rows, time a ≤ time' b) ∧ (val' b).isSome)
  ∨ ∃ value, SettledTo time val rows value
    ∧ ∀ b ∈ rows', (∀ a ∈ rows, time a ≤ time' b) → val' b = none ∨ val' b = value

/-- A row is written after the rows of the first kind when it is as new as all of them. -/
theorem reaches_writeRows_none :
    Reaches (writeRows time val none rows) t ↔ ∀ a ∈ rows, time a ≤ t := by
  rw [reaches_writeRows]
  exact and_iff_right reaches_none

theorem SettledTo.held_eq (hdistinct : rows.Pairwise (fun a b => time a ≠ time b))
    (h : SettledTo time val rows v) : held (writeRows time val none rows) = v := by
  rcases h with ⟨a, hnewest, hsome, rfl⟩ | ⟨hnone, rfl⟩
  · exact hnewest.held_writeRows hdistinct reaches_none hsome
  · exact held_writeRows_of_forall (fun b hb _ => Or.inl (hnone b hb))

theorem SettledTo.of_perm (h : SettledTo time val rows v) (hperm : others.Perm rows) :
    SettledTo time val others v := by
  rcases h with ⟨a, hnewest, hsome, heq⟩ | ⟨hnone, heq⟩
  · exact Or.inl ⟨a, hnewest.of_perm hperm, hsome, heq⟩
  · exact Or.inr ⟨fun b hb => hnone b (hperm.mem_iff.mp hb), heq⟩

/-- A settled value with no record before the rows is one they settle on. -/
theorem Settled.settledTo (h : Settled time val none rows) : ∃ value, SettledTo time val rows value := by
  rcases h with ⟨a, hnewest, -, hsome⟩ | hnone
  · exact ⟨val a, Or.inl ⟨a, hnewest, hsome, rfl⟩⟩
  · refine ⟨none, Or.inr ⟨fun b hb => ?_, rfl⟩⟩
    rcases hnone b hb reaches_none with h | h
    · exact h
    · exact h

section Twice

variable (hdistinct : rows.Pairwise (fun a b => time a ≠ time b))
  (hdistinct' : rows'.Pairwise (fun a b => time' a ≠ time' b))
include hdistinct hdistinct'

/-- **Two kinds, settled.** The value is what the newest row has, or what the first kind settles
    on. -/
theorem SettledTwice.held_eq (h : SettledTwice time val time' val' rows rows')
    (hperm : others.Perm rows) (hperm' : others'.Perm rows') :
    held (writeTwice time val time' val' others others')
      = held (writeTwice time val time' val' rows rows') := by
  rcases h with ⟨b, hnewest, hreach, hsome⟩ | ⟨value, hsettled, hrest⟩
  · have hreach' : ∀ a ∈ others, time a ≤ time' b := fun a ha => hreach a (hperm.mem_iff.mp ha)
    rw [writeTwice, writeTwice,
      hnewest.held_writeRows hdistinct' (reaches_writeRows_none.mpr hreach) hsome,
      (hnewest.of_perm hperm').held_writeRows (pairwise_of_perm hdistinct' hperm')
        (reaches_writeRows_none.mpr hreach') hsome]
  · have hkeep : ∀ {xs : List α} {xs' : List α'}, xs.Perm rows → xs'.Perm rows' →
        held (writeTwice time val time' val' xs xs') = value := by
      intro xs xs' hxs hxs'
      have hfirst := (hsettled.of_perm hxs).held_eq (pairwise_of_perm hdistinct hxs)
      rw [writeTwice, held_writeRows_of_forall, hfirst]
      intro b hb hreach
      rw [hfirst]
      refine hrest b (hxs'.mem_iff.mp hb) (fun a ha => ?_)
      exact reaches_writeRows_none.mp hreach a (hxs.mem_iff.mpr ha)
    rw [hkeep hperm hperm', hkeep (List.Perm.refl _) (List.Perm.refl _)]

/-- **Two kinds.** The value is the same for every order of the rows of each kind exactly when it
    is settled. -/
theorem settledTwice_iff :
    SettledTwice time val time' val' rows rows'
      ↔ ∀ others others', others.Perm rows → others'.Perm rows' →
          held (writeTwice time val time' val' others others')
            = held (writeTwice time val time' val' rows rows') := by
  constructor
  · exact fun h others others' hperm hperm' => h.held_eq hdistinct hdistinct' hperm hperm'
  · intro h
    by_cases hnewest : ∃ b, Newest time' rows' b ∧ (∀ a ∈ rows, time a ≤ time' b)
        ∧ (val' b).isSome
    · exact Or.inl hnewest
    -- in every order of the first kind, the second kind has nothing else to write
    have hkeep : ∀ others : List α, others.Perm rows →
        ∀ b ∈ rows', (∀ a ∈ rows, time a ≤ time' b) →
          val' b = none ∨ val' b = held (writeRows time val none others) := by
      intro others hperm
      have hsettled : Settled time' val' (writeRows time val none others) rows' := by
        rw [settled_iff hdistinct']
        intro others' hperm'
        exact (h others others' hperm hperm').trans
          (h others rows' hperm (List.Perm.refl _)).symm
      rcases hsettled with ⟨b, hb, hreach, hsome⟩ | hrest
      · refine absurd ⟨b, hb, fun a ha => ?_, hsome⟩ hnewest
        exact reaches_writeRows_none.mp hreach a (hperm.mem_iff.mpr ha)
      · intro b hb hreach
        refine hrest b hb (reaches_writeRows_none.mpr (fun a ha => ?_))
        exact hreach a (hperm.mem_iff.mp ha)
    have hheld : ∀ others : List α, others.Perm rows →
        held (writeTwice time val time' val' others rows')
          = held (writeRows time val none others) := by
      intro others hperm
      refine held_writeRows_of_forall (fun b hb hreach => ?_)
      refine hkeep others hperm b hb (fun a ha => ?_)
      exact reaches_writeRows_none.mp hreach a (hperm.mem_iff.mpr ha)
    have hfirst : Settled time val none rows := by
      rw [settled_iff hdistinct]
      intro others hperm
      rw [← hheld others hperm, ← hheld rows (List.Perm.refl _)]
      exact h others rows' hperm (List.Perm.refl _)
    obtain ⟨value, hvalue⟩ := hfirst.settledTo
    refine Or.inr ⟨value, hvalue, fun b hb hreach => ?_⟩
    rw [← hvalue.held_eq hdistinct]
    exact hkeep rows (List.Perm.refl _) b hb hreach

end Twice

end InefficiencyEngine
