import Mathlib.Data.List.Basic

namespace InefficiencyEngine

/-!
# Texts with separators

A text is read back from what precedes and what follows the first occurrence of a
separator (`append_separator_inj`), and a list of lines from the lines written one after
the other (`unlines_injective`, `linesOf_unlines`).
-/

/-- Two texts that do not contain the separator can be told apart from what follows it. -/
theorem append_separator_inj {separator : Char} {first first' rest rest' : List Char}
    (h : separator ∉ first) (h' : separator ∉ first')
    (heq : first ++ separator :: rest = first' ++ separator :: rest') :
    first = first' ∧ rest = rest' := by
  induction first generalizing first' with
  | nil =>
    cases first' with
    | nil => exact ⟨rfl, (List.cons.inj heq).2⟩
    | cons c first' => exact absurd (List.cons.inj heq).1 (List.ne_of_not_mem_cons h')
  | cons c first ih =>
    cases first' with
    | nil => exact absurd (List.cons.inj heq).1.symm (List.ne_of_not_mem_cons h)
    | cons c' first' =>
      obtain ⟨rfl, htail⟩ := List.cons.inj heq
      obtain ⟨rfl, rfl⟩ :=
        ih (List.not_mem_of_not_mem_cons h) (List.not_mem_of_not_mem_cons h') htail
      exact ⟨rfl, rfl⟩

/-- The text of a list of lines. -/
def unlines (lines : List String) : String :=
  lines.foldr (fun line text => line ++ "\n" ++ text) ""

/-- Lists of lines without line breaks have different texts. -/
theorem unlines_injective {lines lines' : List String} (h : ∀ line ∈ lines, '\n' ∉ line.toList)
    (h' : ∀ line ∈ lines', '\n' ∉ line.toList) (heq : unlines lines = unlines lines') :
    lines = lines' := by
  -- the text of a line ends at the first line break, as the line has none
  have htext : ∀ line (rest : List String), (unlines (line :: rest)).toList
      = line.toList ++ '\n' :: (unlines rest).toList := by
    intro line rest
    rw [unlines, List.foldr_cons, String.toList_append, String.toList_append, List.append_assoc]
    rfl
  have hne : ∀ line (rest : List String), unlines [] ≠ unlines (line :: rest) := by
    intro line rest heq
    have hlist := congrArg String.toList heq
    rw [htext, unlines, List.foldr_nil, String.toList_empty] at hlist
    exact List.append_ne_nil_of_right_ne_nil _ (List.cons_ne_nil _ _) hlist.symm
  -- by induction on both lists
  induction lines generalizing lines' with
  | nil =>
    cases lines' with
    | nil => rfl
    | cons line' lines' => exact absurd heq (hne line' lines')
  | cons line lines ih =>
    cases lines' with
    | nil => exact absurd heq.symm (hne line lines)
    | cons line' lines' =>
      have hlist := congrArg String.toList heq
      rw [htext, htext] at hlist
      obtain ⟨hline, hrest⟩ := append_separator_inj (h line List.mem_cons_self)
        (h' line' List.mem_cons_self) hlist
      rw [String.toList_injective hline, ih (fun l hl => h l (List.mem_cons_of_mem _ hl))
        (fun l hl => h' l (List.mem_cons_of_mem _ hl)) (String.toList_injective hrest)]

/-! ### Reading lines -/

/-- The lines of a text that end in a line break, and what follows the last of these. -/
def splitLines : List Char → List (List Char) × List Char
  | [] => ([], [])
  | c :: rest =>
    if c = '\n' then ([] :: (splitLines rest).1, (splitLines rest).2)
    else
      match (splitLines rest).1 with
      | [] => ([], c :: (splitLines rest).2)
      | line :: lines => ((c :: line) :: lines, (splitLines rest).2)

/-- The first line of a text is what precedes the first line break. -/
theorem splitLines_line {line : List Char} (h : '\n' ∉ line) (rest : List Char) :
    splitLines (line ++ '\n' :: rest)
      = (line :: (splitLines rest).1, (splitLines rest).2) := by
  induction line with
  | nil => simp [splitLines]
  | cons c line ih =>
    have hc : c ≠ '\n' := (List.ne_of_not_mem_cons h).symm
    have hrest := ih (List.not_mem_of_not_mem_cons h)
    simp [splitLines, hc, hrest]

/-- The lines of a text that end in a line break, and what follows the last of these. -/
def linesOf (text : String) : List String × String :=
  ((splitLines text.toList).1.map String.ofList, String.ofList (splitLines text.toList).2)

/-- **Lines.** The lines of a text written line by line are those written. -/
theorem linesOf_unlines {lines : List String} (h : ∀ line ∈ lines, '\n' ∉ line.toList) :
    linesOf (unlines lines) = (lines, "") := by
  induction lines with
  | nil => rfl
  | cons line rest ih =>
    have hrest := ih (fun l hl => h l (List.mem_cons_of_mem _ hl))
    have htext : (unlines (line :: rest)).toList
        = line.toList ++ '\n' :: (unlines rest).toList := by
      simp [unlines]
    rw [linesOf, Prod.mk.injEq] at hrest
    rw [linesOf, htext, splitLines_line (h line List.mem_cons_self), List.map_cons, hrest.1,
      hrest.2, String.ofList_toList]

/-- A number as a text of that many digits. -/
def unary (n : ℕ) : String := String.ofList (List.replicate n '0')

theorem unary_injective : Function.Injective unary := by
  intro m n h
  simpa [unary] using congrArg String.length h

/-- A text is read back from what follows a mark. -/
theorem mark_injective (text text' : String) (h : "#" ++ text = "#" ++ text') : text = text' := by
  have hlist := congrArg String.toList h
  rw [String.toList_append, String.toList_append, List.append_cancel_left_eq] at hlist
  exact String.toList_injective hlist

/-- A text after a mark is not empty. -/
theorem mark_ne_empty (text : String) : "#" ++ text ≠ "" := by
  intro h
  have hlist := congrArg String.toList h
  rw [String.toList_append] at hlist
  exact List.append_ne_nil_of_left_ne_nil (by decide) _ hlist

end InefficiencyEngine
