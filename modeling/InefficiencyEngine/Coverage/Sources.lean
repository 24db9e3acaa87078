import InefficiencyEngine.Coverage.Catalog
import InefficiencyEngine.Coverage.Snapshot
import InefficiencyEngine.Lib.Newest
import InefficiencyEngine.Portfolio.Market
import Mathlib.Data.Int.Order.Basic
import Mathlib.Order.WithBot

namespace InefficiencyEngine.Coverage

open Portfolio

/-!
# The status of a source

`SourceCoveragePlane._source_status`: every attempt on record to read a source is a candidate, and
the newest candidate that is healthy, fresh, authoritative, commercially permitted and point in
time admits the source with the evidence classes of that candidate.
-/

/-! ### The rows on record -/

/-- `SourceCoverageObservation`. A provider or a runtime reports what it has seen for one lane.
    -/
structure SourceCoverageObservation where
  sourceId : String
  laneId : String
  observedAt : Instant
  healthy : Bool
  itemCount : ℕ := 0
  evidenceClasses : List String := []
  authoritative : Bool := true
  commercialUsePermitted : Bool := true
  pointInTime : Bool := true
  sourceReference : Option String := none
  economicFieldsComplete : Bool := false
  forwardTestableEvidence : Bool := false
  errorType : Option String := none

/-- A row of `provider_statuses`; its time is there if `_time` can read it. -/
structure ProviderStatus where
  provider : String
  ok : Bool
  itemCount : ℤ
  errorType : Option String
  observedAt : Option Instant

/-- The payload of a row of `provider_gap_admissions`; what it leaves out is `none`. -/
structure ProviderGapAdmission where
  provider : String
  healthy : Bool
  itemCount : ℤ
  observedAt : Option Instant
  authoritative : Option Bool
  commercialUsePermitted : Option Bool
  pointInTime : Option Bool
  errorType : Option String
  sourceReference : Option String
  economicFieldsComplete : Option Bool
  forwardTestableEvidence : Option Bool

/-- The tables the plane reads, newest rows first.  The payload of an admission need not be
    readable, and `newestTableRow` is the time of the newest row a probe selects. -/
structure SourceRows where
  direct : List SourceCoverageObservation
  admissions : List (Option ProviderGapAdmission)
  providers : List ProviderStatus
  newestTableRow : TableProbe → Option (Option Instant)

/-- What `snapshot` hands to `_source_status`. -/
structure ReadRows where
  direct : List SourceCoverageObservation
  admissions : List ProviderGapAdmission
  providers : List ProviderStatus
  newestTableRow : TableProbe → Option (Option Instant)

/-- The limit of `SourceCoverageLedger.recent`. -/
def recentLimit : ℕ := 3000

/-- The limit of `_admission_history_rows` and `_provider_history_rows`. -/
def historyLimit : ℕ := 1000

/-- `ledger.recent()`, `_admission_history_rows` and `_provider_history_rows`. -/
def SourceRows.read (rows : SourceRows) : ReadRows where
  direct := rows.direct.take recentLimit
  admissions := (rows.admissions.take historyLimit).filterMap id
  providers := rows.providers.take historyLimit
  newestTableRow := rows.newestTableRow

/-! ### The plane -/

/-- `SourceCoveragePlane` and the environment it runs in. -/
structure SourceCoveragePlane where
  maxAgeHours : ℚ
  classSpecificFreshness : Bool
  /-- `env_flag(name, default=True)` -/
  envFlag : String → Bool
  /-- `bool(os.getenv(name))` -/
  credentialSet : String → Bool

/-- `_freshness_seconds`. -/
def SourceCoveragePlane.freshnessSeconds (plane : SourceCoveragePlane) (classes : List String) :
    ℚ :=
  let fallback := max 1 (plane.maxAgeHours * 3600)
  if ! plane.classSpecificFreshness then fallback
  else evidenceFreshnessSeconds classes fallback

/-- The policy switches the source off. -/
def SourceCoveragePlane.policyDisabled (plane : SourceCoveragePlane) (spec : SourceSpec) : Bool :=
  spec.enabledEnv.any (fun name => name ≠ "" && ! plane.envFlag name)

/-- The source needs a credential that is not set. -/
def SourceCoveragePlane.credentialMissing (plane : SourceCoveragePlane) (spec : SourceSpec) :
    Bool :=
  spec.credential.any (fun name => name ≠ "" && ! plane.credentialSet name)

/-! ### Candidates -/

/-- A candidate of `_source_status`. -/
structure Candidate where
  healthy : Bool
  observedAt : Option Instant
  itemCount : ℤ
  classes : List String
  authoritative : Bool
  commercial : Bool
  pointInTime : Bool
  errorType : Option String
  sourceReference : Option String
  economicFieldsComplete : Bool
  forwardTestableEvidence : Bool

/-- The candidate of a direct observation of the source in the lane. -/
def directCandidate? (spec : SourceSpec) (laneId : String) (row : SourceCoverageObservation) :
    Option Candidate :=
  if row.sourceId ≠ spec.sourceId ∨ row.laneId ≠ laneId then none
  else some
    { healthy := row.healthy
      observedAt := some row.observedAt
      itemCount := row.itemCount
      classes := if row.evidenceClasses.isEmpty then spec.classes else row.evidenceClasses
      authoritative := row.authoritative
      commercial := row.commercialUsePermitted
      pointInTime := row.pointInTime
      errorType := row.errorType
      sourceReference := row.sourceReference
      economicFieldsComplete := row.economicFieldsComplete
      forwardTestableEvidence := row.forwardTestableEvidence }

/-- `any(provider.startswith(prefix) for prefix in prefixes)`. -/
def ofProvider (spec : SourceSpec) (provider : String) : Bool :=
  spec.provider.any (fun start => start.toList.isPrefixOf provider.toList)

/-- The candidate of an admission of the source's provider. -/
def admissionCandidate? (spec : SourceSpec) (row : ProviderGapAdmission) : Option Candidate :=
  if ofProvider spec row.provider then some
    { healthy := row.healthy
      observedAt := row.observedAt
      itemCount := row.itemCount
      classes := spec.classes
      authoritative := row.authoritative.getD spec.authoritative
      commercial := row.commercialUsePermitted.getD true
      pointInTime := row.pointInTime.getD true
      errorType := row.errorType
      sourceReference := row.sourceReference
      economicFieldsComplete := row.economicFieldsComplete.getD false
      forwardTestableEvidence := row.forwardTestableEvidence.getD false }
  else none

/-- The candidate of an attempt of the source's provider. -/
def providerCandidate? (spec : SourceSpec) (row : ProviderStatus) : Option Candidate :=
  if ofProvider spec row.provider then some
    { healthy := row.ok
      observedAt := row.observedAt
      itemCount := row.itemCount
      classes := spec.classes
      authoritative := spec.authoritative
      commercial := true
      pointInTime := true
      errorType := row.errorType
      sourceReference := some row.provider
      economicFieldsComplete := false
      forwardTestableEvidence := false }
  else none

/-- The tables `_table_candidate` may read. -/
def safeTables : List String :=
  ["market_quotes", "funding_quotes", "order_books", "opportunities", "maker_shadow_outcomes",
    "capital_transfer_outcomes"]

/-- `_table_candidate`: the newest row of the source's table. Only the whitelisted tables and
    columns are asked, and a row counts as healthy and complete whatever it holds. -/
def tableCandidate? (spec : SourceSpec) (newestTableRow : TableProbe → Option (Option Instant)) :
    Option Candidate :=
  match spec.table with
  | none => none
  | some probe =>
    if probe.table ∉ safeTables then none
    else if probe.column.any (fun column => column ∉ ["venue", "asset", "strategy"]) then none
    else (newestTableRow probe).map (fun observedAt =>
      { healthy := true
        observedAt := observedAt
        itemCount := 1
        classes := spec.classes
        authoritative := spec.authoritative
        commercial := true
        pointInTime := true
        errorType := none
        sourceReference := some ("durable:" ++ probe.table)
        economicFieldsComplete := true
        forwardTestableEvidence := true })

/-- The `candidates` of `_source_status`, in the order they are appended. -/
def candidates (spec : SourceSpec) (laneId : String) (rows : ReadRows) : List Candidate :=
  rows.direct.filterMap (directCandidate? spec laneId)
    ++ rows.admissions.filterMap (admissionCandidate? spec)
    ++ rows.providers.filterMap (providerCandidate? spec)
    ++ (tableCandidate? spec rows.newestTableRow).toList

/-- The key candidates are sorted by; a candidate without a time is the oldest. -/
def Candidate.time (candidate : Candidate) : WithBot Instant := candidate.observedAt

section Freshness

variable (plane : SourceCoveragePlane) (spec : SourceSpec) (now : Instant)

/-- `candidate.get("classes") or spec["classes"]`. -/
def Candidate.evidenceClasses (candidate : Candidate) : List String :=
  if candidate.classes.isEmpty then spec.classes else candidate.classes

/-- The `age` of a candidate. -/
def Candidate.ageSeconds (candidate : Candidate) : Option ℚ :=
  candidate.observedAt.map (fun observedAt => max 0 (totalSeconds (now - observedAt)))

/-- The `ttl` of a candidate. -/
def Candidate.ttlSeconds (candidate : Candidate) : ℚ :=
  plane.freshnessSeconds (candidate.evidenceClasses spec)

/-- A candidate is fresh for its evidence classes. -/
def Candidate.fresh (candidate : Candidate) : Bool :=
  (candidate.ageSeconds now).any (· ≤ candidate.ttlSeconds plane spec)

/-- A candidate admits its source. -/
def Candidate.admits (candidate : Candidate) : Bool :=
  candidate.healthy && candidate.fresh plane spec now && candidate.authoritative
    && candidate.commercial && candidate.pointInTime

/-- The state of the latest attempt. -/
def Candidate.state (candidate : Candidate) : SourceState :=
  if ! candidate.healthy then .failed
  else if candidate.fresh plane spec now then .healthy
  else .stale

end Freshness

/-! ### The status -/

/-- The `latest_attempt_…` fields of a status. -/
structure LatestAttempt where
  state : SourceState
  observedAt : Option Instant
  errorType : Option String
  sourceReference : Option String
  itemCount : ℤ

/-- What `_source_status` returns. -/
structure SourceReport extends SourceStatus where
  name : String
  tier : String
  enabledEnv : Option String := none
  credentialEnv : Option String := none
  active : Option Bool := none
  observedAt : Option Instant := none
  ageSeconds : Option ℚ := none
  freshnessTtlSeconds : Option ℚ := none
  itemCount : ℤ := 0
  errorType : Option String := none
  sourceReference : Option String := none
  economicFieldsComplete : Bool := false
  forwardTestableEvidence : Bool := false
  latestAttempt : Option LatestAttempt := none
  usingPriorFreshEvidence : Bool := false

section Status

variable (plane : SourceCoveragePlane) (spec : SourceSpec) (laneId : String) (now : Instant)

/-- A status without any candidate. -/
def SourceSpec.base (state : SourceState) : SourceReport where
  sourceId := spec.sourceId
  group := spec.group
  state := state
  healthy := false
  fresh := false
  admitted := false
  authoritative := spec.authoritative
  classes := spec.classes
  name := spec.name
  tier := spec.tier

/-- `latest_attempt` in the status. -/
def Candidate.attempt (latest : Candidate) : LatestAttempt where
  state := latest.state plane spec now
  observedAt := latest.observedAt
  errorType := latest.errorType
  sourceReference := latest.sourceReference
  itemCount := latest.itemCount

/-- The status that shows a candidate. -/
def Candidate.report (shown latest : Candidate) (state : SourceState) (admitted prior : Bool) :
    SourceReport where
  sourceId := spec.sourceId
  group := spec.group
  state := state
  healthy := shown.healthy
  fresh := shown.fresh plane spec now
  admitted := admitted
  authoritative := shown.authoritative
  classes := shown.evidenceClasses spec
  name := spec.name
  tier := spec.tier
  observedAt := shown.observedAt
  ageSeconds := shown.ageSeconds now
  freshnessTtlSeconds := some (shown.ttlSeconds plane spec)
  itemCount := shown.itemCount
  errorType := shown.errorType
  sourceReference := shown.sourceReference
  economicFieldsComplete := shown.economicFieldsComplete
  forwardTestableEvidence := shown.forwardTestableEvidence
  latestAttempt := some (latest.attempt plane spec now)
  usingPriorFreshEvidence := prior

/-- `_source_status`. The newest candidate that admits is selected; without one, the latest
    attempt says why the source is not healthy. -/
def sourceStatus (rows : ReadRows) : SourceReport :=
  if plane.policyDisabled spec then
    { spec.base .notApplicable with enabledEnv := spec.enabledEnv }
  else if plane.credentialMissing spec then
    { spec.base .credentialRequired with credentialEnv := spec.credential }
  else
    match sortDescending Candidate.time (candidates spec laneId rows) with
    | [] => { spec.base .unobserved with active := some spec.active }
    | latest :: earlier =>
      match (latest :: earlier).find? (Candidate.admits plane spec now) with
      | none => latest.report plane spec now latest (latest.state plane spec now) false false
      | some selected =>
        -- the selected candidate is the latest attempt unless that one does not admit
        selected.report plane spec now latest .healthy true (! latest.admits plane spec now)

/-! ### Admission -/

/-- The source is switched on and has its credential. -/
def SourceCoveragePlane.available : Bool :=
  ! plane.policyDisabled spec && ! plane.credentialMissing spec

/-- A candidate admits an available source: it is the newest of those that could. -/
structure Standing (rows : ReadRows) (candidate : Candidate) : Prop where
  available : plane.available spec
  newest : IsNewest Candidate.time
    ((candidates spec laneId rows).filter (Candidate.admits plane spec now)) candidate

variable {plane spec laneId now} {rows : ReadRows} {candidate : Candidate}

theorem Standing.admits (h : Standing plane spec laneId now rows candidate) :
    candidate ∈ candidates spec laneId rows ∧ candidate.admits plane spec now :=
  List.mem_filter.mp h.newest.mem

/-- Some candidate stands once one could. -/
theorem exists_standing (havailable : plane.available spec)
    (hmem : candidate ∈ candidates spec laneId rows) (hadmits : candidate.admits plane spec now) :
    ∃ chosen, Standing plane spec laneId now rows chosen := by
  obtain ⟨chosen, hnewest⟩ : ∃ chosen, IsNewest Candidate.time
      ((candidates spec laneId rows).filter (Candidate.admits plane spec now)) chosen :=
    exists_isNewest (List.mem_filter.mpr ⟨hmem, hadmits⟩)
  exact ⟨chosen, havailable, hnewest⟩

/-- The status of an available source reads the candidates from the newest on. -/
theorem sourceStatus_of_available (havailable : plane.available spec) :
    sourceStatus plane spec laneId now rows
      = match sortDescending Candidate.time (candidates spec laneId rows) with
        | [] => { spec.base .unobserved with active := some spec.active }
        | latest :: earlier =>
          match (latest :: earlier).find? (Candidate.admits plane spec now) with
          | none => latest.report plane spec now latest (latest.state plane spec now) false false
          | some selected =>
            selected.report plane spec now latest .healthy true
              (! latest.admits plane spec now) := by
  rw [SourceCoveragePlane.available, Bool.and_eq_true, Bool.not_eq_true', Bool.not_eq_true']
    at havailable
  rw [sourceStatus, if_neg (by simp [havailable.1]), if_neg (by simp [havailable.2])]

/-- The status of a source shows the candidate that stands. -/
theorem Standing.sourceStatus_eq (h : Standing plane spec laneId now rows candidate) :
    ∃ latest : Candidate, sourceStatus plane spec laneId now rows
      = candidate.report plane spec now latest .healthy true
        (! latest.admits plane spec now) := by
  have hfind : (sortDescending Candidate.time (candidates spec laneId rows)).find?
      (Candidate.admits plane spec now) = some candidate := by
    rw [find?_sortDescending, newest_eq_some.mpr h.newest]
  rw [sourceStatus_of_available h.available]
  cases hsorted : sortDescending Candidate.time (candidates spec laneId rows) with
  | nil =>
    rw [hsorted] at hfind
    cases hfind
  | cons latest earlier =>
    rw [hsorted] at hfind
    refine ⟨latest, ?_⟩
    show (match (latest :: earlier).find? (Candidate.admits plane spec now) with
      | none => _
      | some selected => _) = _
    rw [hfind]

/-- **Admission.** A source is admitted exactly when some candidate stands for it. -/
theorem sourceStatus_admitted_iff :
    (sourceStatus plane spec laneId now rows).admitted = true
      ↔ ∃ candidate, Standing plane spec laneId now rows candidate := by
  constructor
  · intro hadmitted
    by_cases havailable : plane.available spec
    · cases hnewest : newest Candidate.time
          ((candidates spec laneId rows).filter (Candidate.admits plane spec now)) with
      | some candidate => exact ⟨candidate, havailable, newest_eq_some.mp hnewest⟩
      | none =>
        rw [← find?_sortDescending] at hnewest
        rw [sourceStatus_of_available havailable] at hadmitted
        cases hsorted : sortDescending Candidate.time (candidates spec laneId rows) with
        | nil =>
          rw [hsorted] at hadmitted
          cases hadmitted
        | cons latest earlier =>
          rw [hsorted] at hadmitted hnewest
          simp only [hnewest] at hadmitted
          cases hadmitted
    · -- a source that is not available has no candidates at all
      rw [SourceCoveragePlane.available, Bool.and_eq_true, Bool.not_eq_true',
        Bool.not_eq_true'] at havailable
      by_cases hdisabled : plane.policyDisabled spec
      · rw [sourceStatus, if_pos hdisabled] at hadmitted
        cases hadmitted
      · have hmissing : plane.credentialMissing spec = true := by
          simpa [hdisabled] using havailable
        rw [sourceStatus, if_neg hdisabled, if_pos hmissing] at hadmitted
        cases hadmitted
  · rintro ⟨candidate, hstanding⟩
    obtain ⟨latest, hstatus⟩ := hstanding.sourceStatus_eq
    rw [hstatus]
    rfl

/-- The attempts on record that could admit a source. -/
theorem exists_standing_iff : (∃ candidate, Standing plane spec laneId now rows candidate)
    ↔ plane.available spec = true
      ∧ ∃ candidate ∈ candidates spec laneId rows, candidate.admits plane spec now = true := by
  constructor
  · rintro ⟨candidate, hstanding⟩
    exact ⟨hstanding.available, candidate, hstanding.admits.1, hstanding.admits.2⟩
  · rintro ⟨havailable, candidate, hmem, hadmits⟩
    exact exists_standing havailable hmem hadmits

end Status

end InefficiencyEngine.Coverage
