import InefficiencyEngine.Coverage.SourceGates
import InefficiencyEngine.Mechanism.Sample

namespace InefficiencyEngine.Coverage

open Portfolio
open Mechanism (MechanismRuntime CandidateSourceSufficiency)

/-!
# One more row of evidence

A further row of evidence can only take eligibility away from a lane in two ways:

* it takes over a source (`TakesOverSource`), and the lane needed a class that the row it takes
  over from lists and the row itself does not;
* it pushes a row out of a full window that a source, or its whole group, was admitted by.

`sourceGateLaws_iff` shows that these are the only ways, and that the gates otherwise keep what
they promise: they are ordered, they agree, and a source is admitted by any row that could.
-/

/-! ### Adding a row -/

/-- A row for one of the tables. -/
inductive SourceRow
  | direct (row : SourceCoverageObservation)
  | admission (row : Option ProviderGapAdmission)
  | provider (row : ProviderStatus)

/-- A further row is the newest of its table. -/
def SourceRows.add (rows : SourceRows) : SourceRow → SourceRows
  | .direct row => { rows with direct := row :: rows.direct }
  | .admission row => { rows with admissions := row :: rows.admissions }
  | .provider row => { rows with providers := row :: rows.providers }

/-- What is read besides the row once it is added: a full window has room for one row less. -/
def SourceRows.kept (rows : SourceRows) : SourceRow → ReadRows
  | .direct _ => { rows.read with direct := rows.direct.take (recentLimit - 1) }
  | .admission _ =>
    { rows.read with admissions := (rows.admissions.take (historyLimit - 1)).filterMap id }
  | .provider _ => { rows.read with providers := rows.providers.take (historyLimit - 1) }

/-- The candidate of the row, if it is one of the source. -/
def SourceRow.candidate? (spec : SourceSpec) (laneId : String) : SourceRow → Option Candidate
  | .direct row => directCandidate? spec laneId row
  | .admission row => row.bind (admissionCandidate? spec)
  | .provider row => providerCandidate? spec row

/-- The candidates that are listed ahead of the row. -/
def SourceRow.ahead (spec : SourceSpec) (laneId : String) (rows : ReadRows) :
    SourceRow → List Candidate
  | .direct _ => []
  | .admission _ => rows.direct.filterMap (directCandidate? spec laneId)
  | .provider _ => rows.direct.filterMap (directCandidate? spec laneId)
      ++ rows.admissions.filterMap (admissionCandidate? spec)

/-- The candidates that are listed behind the row. -/
def SourceRow.behind (spec : SourceSpec) (laneId : String) (rows : ReadRows) :
    SourceRow → List Candidate
  | .direct _ => candidates spec laneId rows
  | .admission _ => rows.admissions.filterMap (admissionCandidate? spec)
      ++ rows.providers.filterMap (providerCandidate? spec)
      ++ (tableCandidate? spec rows.newestTableRow).toList
  | .provider _ => rows.providers.filterMap (providerCandidate? spec)
      ++ (tableCandidate? spec rows.newestTableRow).toList

section Rows

variable {spec : SourceSpec} {laneId : String} (rows : SourceRows) (row : SourceRow)

theorem candidates_kept : candidates spec laneId (rows.kept row)
    = row.ahead spec laneId (rows.kept row) ++ row.behind spec laneId (rows.kept row) := by
  cases row with
  | direct row => rfl
  | admission row => simp only [SourceRow.ahead, SourceRow.behind, candidates, List.append_assoc]
  | provider row => simp only [SourceRow.ahead, SourceRow.behind, candidates, List.append_assoc]

theorem filterMap_cons_toList {α β : Type} (f : α → Option β) (a : α) (rest : List α) :
    (a :: rest).filterMap f = (f a).toList ++ rest.filterMap f := by
  rw [List.filterMap_cons]
  cases f a with
  | none => rfl
  | some b => rfl

theorem candidates_add : candidates spec laneId (rows.add row).read
    = row.ahead spec laneId (rows.kept row) ++ ((row.candidate? spec laneId).toList
      ++ row.behind spec laneId (rows.kept row)) := by
  cases row with
  | direct row =>
    show (row :: rows.direct.take 2999).filterMap _ ++ _ ++ _ ++ _ = [] ++ _
    rw [filterMap_cons_toList]
    simp only [List.append_assoc, List.nil_append, SourceRow.behind, SourceRow.candidate?,
      candidates]
    rfl
  | admission row =>
    show _ ++ ((row :: rows.admissions.take 999).filterMap id).filterMap _ ++ _ ++ _ = _
    rw [List.filterMap_filterMap, filterMap_cons_toList, ← List.filterMap_filterMap]
    simp only [List.append_assoc, SourceRow.ahead, SourceRow.behind, SourceRow.candidate?]
    rfl
  | provider row =>
    show _ ++ _ ++ (row :: rows.providers.take 999).filterMap _ ++ _ = _
    rw [filterMap_cons_toList]
    simp only [List.append_assoc, SourceRow.ahead, SourceRow.behind, SourceRow.candidate?]
    rfl

/-- The candidates once the row is added: those of the rows kept, and that of the row. -/
theorem mem_candidates_add {candidate : Candidate} :
    candidate ∈ candidates spec laneId (rows.add row).read
      ↔ candidate ∈ candidates spec laneId (rows.kept row)
        ∨ row.candidate? spec laneId = some candidate := by
  rw [candidates_add, candidates_kept, List.mem_append, List.mem_append, List.mem_append,
    Option.mem_toList]
  tauto

/-- The window of the row's table is not full. -/
def SourceRows.HasRoom (rows : SourceRows) : SourceRow → Prop
  | .direct _ => rows.direct.length < recentLimit
  | .admission _ => rows.admissions.length < historyLimit
  | .provider _ => rows.providers.length < historyLimit

theorem take_pred {α : Type} {xs : List α} {limit : ℕ} (h : xs.length < limit) :
    xs.take (limit - 1) = xs.take limit := by
  rw [List.take_of_length_le (by omega), List.take_of_length_le (by omega)]

/-- Nothing is pushed out of a window with room. -/
theorem SourceRows.HasRoom.kept_eq_read (h : rows.HasRoom row) : rows.kept row = rows.read := by
  cases row with
  | direct row => rw [SourceRows.kept, take_pred h]; rfl
  | admission row => rw [SourceRows.kept, take_pred h]; rfl
  | provider row => rw [SourceRows.kept, take_pred h]; rfl

end Rows

/-! ### Taking over -/

section TakingOver

variable (plane : SourceCoveragePlane) (spec : SourceSpec) (laneId : String) (now : Instant)
  (rows : SourceRows) (row : SourceRow)

/-- The row takes over the source: its candidate could admit the source, and it is newer than
    every other that could and is listed ahead, and as new as every one listed behind. -/
structure TakesOverSource (candidate : Candidate) : Prop where
  ofRow : row.candidate? spec laneId = some candidate
  admits : candidate.admits plane spec now = true
  takesOver : TakesOver Candidate.time
    ((row.ahead spec laneId (rows.kept row)).filter (Candidate.admits plane spec now))
    ((row.behind spec laneId (rows.kept row)).filter (Candidate.admits plane spec now)) candidate

variable {plane spec laneId now rows row} {candidate : Candidate}

/-- **The step.** The row takes over, or the candidate that stood among the rows kept stands. -/
theorem standing_add : Standing plane spec laneId now (rows.add row).read candidate
    ↔ plane.available spec = true ∧ TakesOverSource plane spec laneId now rows row candidate
      ∨ Standing plane spec laneId now (rows.kept row) candidate
        ∧ ∀ other, ¬ TakesOverSource plane spec laneId now rows row other := by
  have hiff : IsNewest Candidate.time ((candidates spec laneId (rows.add row).read).filter
        (Candidate.admits plane spec now)) candidate
      ↔ TakesOverSource plane spec laneId now rows row candidate
        ∨ IsNewest Candidate.time ((candidates spec laneId (rows.kept row)).filter
            (Candidate.admits plane spec now)) candidate
          ∧ ∀ other, ¬ TakesOverSource plane spec laneId now rows row other := by
    rw [candidates_add, candidates_kept, List.filter_append, List.filter_append,
      List.filter_append]
    by_cases hadmits : ∃ other, row.candidate? spec laneId = some other
        ∧ other.admits plane spec now = true
    · obtain ⟨added, hrow, hadded⟩ := hadmits
      have hnew : (row.candidate? spec laneId).toList.filter (Candidate.admits plane spec now)
          = [added] := by
        simp [hrow, hadded]
      rw [hnew]
      have hof : ∀ other, TakesOverSource plane spec laneId now rows row other →
          other = added :=
        fun other hother => Option.some.inj (hother.ofRow.symm.trans hrow)
      by_cases hover : TakesOver Candidate.time
          ((row.ahead spec laneId (rows.kept row)).filter (Candidate.admits plane spec now))
          ((row.behind spec laneId (rows.kept row)).filter (Candidate.admits plane spec now)) added
      · have htakes : TakesOverSource plane spec laneId now rows row added :=
          ⟨hrow, hadded, hover⟩
        constructor
        · intro hnewest
          exact Or.inl (hnewest.unique hover.isNewest ▸ htakes)
        · rintro (hother | ⟨-, hnone⟩)
          · rw [hof candidate hother]
            exact hover.isNewest
          · exact absurd htakes (hnone added)
      · have hnone : ∀ other, ¬ TakesOverSource plane spec laneId now rows row other := by
          intro other hother
          exact hover (hof other hother ▸ hother.takesOver)
        rw [List.singleton_append, isNewest_insert hover]
        exact ⟨fun h => Or.inr ⟨h, hnone⟩, fun h => (h.resolve_left (hnone _)).1⟩
    · -- the row is no candidate, or not one that could admit the source
      have hnew : (row.candidate? spec laneId).toList.filter (Candidate.admits plane spec now)
          = [] := by
        rw [List.filter_eq_nil_iff]
        intro other hother hother'
        exact hadmits ⟨other, Option.mem_toList.mp hother, hother'⟩
      have hnone : ∀ other, ¬ TakesOverSource plane spec laneId now rows row other :=
        fun other hother => hadmits ⟨other, hother.ofRow, hother.admits⟩
      rw [hnew, List.nil_append]
      exact ⟨fun h => Or.inr ⟨h, hnone⟩, fun h => (h.resolve_left (hnone _)).1⟩
  constructor
  · rintro ⟨havailable, hnewest⟩
    rcases hiff.mp hnewest with hover | ⟨hkept, hnone⟩
    · exact Or.inl ⟨havailable, hover⟩
    · exact Or.inr ⟨⟨havailable, hkept⟩, hnone⟩
  · rintro (⟨havailable, hover⟩ | ⟨⟨havailable, hkept⟩, hnone⟩)
    · exact ⟨havailable, hiff.mpr (Or.inl hover)⟩
    · exact ⟨havailable, hiff.mpr (Or.inr ⟨hkept, hnone⟩)⟩

end TakingOver

end InefficiencyEngine.Coverage
