import InefficiencyEngine.Coverage.Sources
import InefficiencyEngine.Mechanism.Sources

namespace InefficiencyEngine.Coverage

open Portfolio
open Mechanism (MechanismRuntime CandidateSourceSufficiency sortedSet)

/-!
# Source gates

The coverage of a lane, the snapshot of all lanes, and the gate of a candidate in a lane, which
the source plane (`candidate_sufficiency`), the executable alpha factory and the governed
mechanism service (`_gate_from_lane`) each compute for themselves.
-/

/-! ### Texts -/

/-- Text of lower-case letters, digits and hyphens. -/
def Plain (text : String) : Prop :=
  text.toList.all (fun c => c.isLower || c.isDigit || c = '-') = true

instance (text : String) : Decidable (Plain text) := inferInstanceAs (Decidable (_ = true))

/-- A runtime whose `str.lower` and `str.strip` leave plain text as it is. -/
structure SourceText extends MechanismRuntime where
  lower_plain : ∀ text, Plain text → lower text = text
  strip_plain : ∀ text, Plain text → strip text = text

/-! ### Coverage -/

section Snapshot

variable (plane : SourceCoveragePlane) (now : Instant) (rows : ReadRows)

/-- The entries of `SOURCES` that serve a lane. -/
def laneSources (laneId : String) : List SourceSpec :=
  sources.filter (fun spec => spec.lanes.contains laneId)

/-- The coverage of an entry of `LANES`. A class is covered if an admitted source of the lane
    lists it, and redundancy asks for two groups of authoritative sources. -/
def laneCoverage (definition : LaneDefinition) : LaneSourceCoverage :=
  let sourceRows := (laneSources definition.laneId).map (fun spec =>
    (sourceStatus plane spec definition.laneId now rows).toSourceStatus)
  let admitted := sourceRows.filter SourceStatus.admitted
  let covered := sortedDistinct (admitted.flatMap SourceStatus.classes)
  let missing := definition.required.filter (fun value => ! covered.contains value)
  let groups := sortedDistinct
    ((admitted.filter SourceStatus.authoritative).map SourceStatus.group)
  let policyDisabledSourceIds := ((sourceRows.filter (fun row =>
    row.state = .notApplicable && row.sourceId ≠ "")).map SourceStatus.sourceId).insertionSort
      (· ≤ ·)
  let redundancy : Bool := 2 ≤ groups.length
  let classOk := missing.isEmpty
  let researchEligible := ! admitted.isEmpty
  let forwardTestEligible := researchEligible && classOk
  let allocationSourceQualified := forwardTestEligible && redundancy
  { laneId := definition.laneId
    requiredEvidenceClasses := definition.required
    coveredEvidenceClasses := covered
    missingEvidenceClasses := missing
    healthySourceCount := admitted.length
    independentAuthoritativeSourceCount := groups.length
    admittedAuthoritativeSourceGroups := groups
    missingAuthoritativeSourceCount := 2 - groups.length
    policyDisabledSourceIds := policyDisabledSourceIds
    sourceRedundancySatisfied := redundancy
    evidenceClassCoverageSatisfied := classOk
    researchEligible := researchEligible
    forwardTestEligible := forwardTestEligible
    allocationSourceQualified := allocationSourceQualified
    sourceLayerSufficient := allocationSourceQualified
    -- the state names the first thing that is missing
    sourceState :=
      if allocationSourceQualified then .sufficient
      else if admitted.isEmpty then .providerGap
      else if ! missing.isEmpty then .evidenceClassGap
      else .concentrationRisk
    sources := sourceRows }

/-- `SourceCoveragePlane.snapshot`. -/
def snapshot (R : MechanismRuntime) : SourceCoverageSnapshot where
  observedAt := R.isoformat now
  lanes := lanes.map (laneCoverage plane now rows)

end Snapshot

/-! ### Gates -/

section Gates

variable (R : MechanismRuntime)

/-- The gate of a candidate, as the source plane and the alpha factory compute it; they report a
    primary source that is missing in words of their own. Missing research, missing classes and
    missing redundancy block in this order, and only the last leaves forward testing open. -/
def sufficiency (primaryBlocker : String) (lane : LaneSourceCoverage)
    (required primary : List String) : CandidateSourceSufficiency :=
  let admitted := lane.sources.filter SourceStatus.admitted
  let covered := sortedDistinct
    ((admitted.flatMap SourceStatus.classes).filter (fun name => required.contains name))
  let missing := required.filter (fun item => ! covered.contains item)
  let groups := sortedDistinct (((admitted.filter SourceStatus.authoritative).map
    SourceStatus.group).filter (fun group => group ≠ ""))
  let normalizedPrimary :=
    (primary.filter (fun item => R.strip item ≠ "")).map (fun item => R.lower (R.strip item))
  -- no primary source given: every admitted one will do
  let primaryOk := normalizedPrimary.isEmpty
    || admitted.any (fun row => normalizedPrimary.contains (R.lower (R.strip row.group)))
  let researchEligible := ! admitted.isEmpty && primaryOk
  let forwardTestEligible := researchEligible && missing.isEmpty
  { laneId := lane.laneId
    requiredEvidenceClasses := required
    coveredEvidenceClasses := covered
    missingEvidenceClasses := missing
    admittedSourceGroups := groups
    primarySourceGroups := sortedDistinct normalizedPrimary
    primaryGroupSatisfied := primaryOk
    researchEligible := researchEligible
    forwardTestEligible := forwardTestEligible
    allocationSourceQualified := forwardTestEligible && 2 ≤ groups.length
    blockers :=
      (if admitted.isEmpty then ["no fresh admitted authoritative source"] else [])
      ++ (if ! primaryOk then [primaryBlocker] else [])
      ++ missing.map ("missing evidence class:" ++ ·)
      ++ (if forwardTestEligible && groups.length < 2 then
          ["independent-source redundancy remains required for allocation"] else []) }

/-- `SourceCoveragePlane.candidate_sufficiency`, which raises for an unknown lane. -/
def candidateSufficiency (plane : SourceCoveragePlane) (now : Instant) (rows : ReadRows)
    (laneId : String) (required? : Option (List String)) (primary : List String) :
    Option CandidateSourceSufficiency :=
  ((snapshot plane now rows R).lanes.find? (fun lane => lane.laneId = laneId)).map (fun lane =>
    sufficiency R "candidate primary venue/protocol source is not freshly admitted" lane
      (required?.getD lane.requiredEvidenceClasses) primary)

/-- `ExecutableAlphaFactory._gate_from_lane`. -/
def alphaGateFromLane (lane : LaneSourceCoverage) (required primary : List String) :
    CandidateSourceSufficiency :=
  sufficiency R "candidate primary venue source is not freshly admitted" lane required primary

/-- A source as the governed service reads it. -/
def SourceReport.toLaneSource (row : SourceReport) : Mechanism.LaneSource where
  admitted := row.admitted
  authoritative := row.authoritative
  economicFieldsComplete := row.economicFieldsComplete
  classes := row.classes
  group := row.group

/-- A lane of the snapshot as the governed service reads it. -/
def governedLane (plane : SourceCoveragePlane) (now : Instant) (rows : ReadRows)
    (definition : LaneDefinition) : Mechanism.LaneSourceCoverage where
  laneId := definition.laneId
  sources := (laneSources definition.laneId).map (fun spec =>
    (sourceStatus plane spec definition.laneId now rows).toLaneSource)

end Gates

/-! ### Eligibility -/

/-- The eligibility flags of a lane or of a candidate. -/
structure Eligibility where
  research : Bool
  forwardTest : Bool
  allocation : Bool

/-- Allocation takes a forward test, and a forward test research. -/
def Eligibility.Ordered (flags : Eligibility) : Prop :=
  (flags.allocation = true → flags.forwardTest = true)
  ∧ (flags.forwardTest = true → flags.research = true)

/-- Nothing is revoked. -/
structure Eligibility.Keeps (before after : Eligibility) : Prop where
  research : before.research = true → after.research = true
  forwardTest : before.forwardTest = true → after.forwardTest = true
  allocation : before.allocation = true → after.allocation = true

/-- The eligibility of a lane. -/
def LaneSourceCoverage.eligibility (lane : LaneSourceCoverage) : Eligibility :=
  ⟨lane.researchEligible, lane.forwardTestEligible, lane.allocationSourceQualified⟩

/-- The eligibility of a candidate. -/
def eligibilityOf (gate : CandidateSourceSufficiency) : Eligibility :=
  ⟨gate.researchEligible, gate.forwardTestEligible, gate.allocationSourceQualified⟩

/-! ### Evidence

What the gates look at: the groups of the admitted sources, each with the classes it lists. -/

/-- Groups, each with evidence classes. -/
abbrev Evidence := Set (String × List String)

/-- Every required class is listed by some group. -/
def Evidence.Covers (evidence : Evidence) (required : List String) : Prop :=
  ∀ name ∈ required, ∃ e ∈ evidence, name ∈ e.2

/-- There are two groups. -/
def Evidence.Diverse (evidence : Evidence) : Prop :=
  ∃ e ∈ evidence, ∃ e' ∈ evidence, e.1 ≠ e'.1

/-- One of the groups is a primary one, if any is asked for. -/
def Evidence.MeetsPrimary (evidence : Evidence) (R : MechanismRuntime) (primary : List String) :
    Prop :=
  (∀ item ∈ primary, R.strip item = "")
  ∨ ∃ e ∈ evidence, ∃ item ∈ primary, R.strip item ≠ ""
      ∧ R.lower (R.strip item) = R.lower (R.strip e.1)

/-- The evidence of a lane. -/
def LaneSourceCoverage.evidence (lane : LaneSourceCoverage) : Evidence :=
  {e | ∃ row ∈ lane.sources, row.admitted = true ∧ e = (row.group, row.classes)}

/-- Every admitted source is authoritative and has a group. -/
def LaneSourceCoverage.Attributed (lane : LaneSourceCoverage) : Prop :=
  ∀ row ∈ lane.sources, row.admitted = true → row.authoritative = true ∧ row.group ≠ ""

section Evidence

variable {R : MechanismRuntime} {primaryBlocker : String} {lane : LaneSourceCoverage}
  {required primary : List String}

theorem nonempty_evidence : lane.evidence.Nonempty
    ↔ (! (lane.sources.filter SourceStatus.admitted).isEmpty) = true := by
  rw [Bool.not_eq_true', List.isEmpty_eq_false_iff_exists_mem]
  constructor
  · rintro ⟨e, row, hrow, hadmitted, -⟩
    exact ⟨row, List.mem_filter.mpr ⟨hrow, hadmitted⟩⟩
  · rintro ⟨row, hrow⟩
    obtain ⟨hrow, hadmitted⟩ := List.mem_filter.mp hrow
    exact ⟨_, row, hrow, hadmitted, rfl⟩

/-- No class is missing among classes that are those of the admitted sources. -/
theorem missing_isEmpty_iff {covered : List String}
    (hcovered : ∀ name ∈ required, name ∈ covered
      ↔ name ∈ (lane.sources.filter SourceStatus.admitted).flatMap SourceStatus.classes) :
    (required.filter (fun item => ! covered.contains item)).isEmpty = true
      ↔ lane.evidence.Covers required := by
  rw [List.isEmpty_iff, List.filter_eq_nil_iff]
  refine forall₂_congr (fun name hname => ?_)
  rw [Bool.not_eq_true', Bool.not_eq_false, List.contains_iff_mem, hcovered name hname,
    List.mem_flatMap]
  constructor
  · rintro ⟨row, hrow, hclass⟩
    obtain ⟨hrow, hadmitted⟩ := List.mem_filter.mp hrow
    exact ⟨_, ⟨row, hrow, hadmitted, rfl⟩, hclass⟩
  · rintro ⟨_, ⟨row, hrow, hadmitted, rfl⟩, hclass⟩
    exact ⟨row, List.mem_filter.mpr ⟨hrow, hadmitted⟩, hclass⟩

/-- The groups of the admitted sources are two or more. -/
theorem two_le_groups_iff {groups : List String} (h : ∀ group, group ∈ groups
      ↔ ∃ row ∈ lane.sources, row.admitted = true ∧ row.group = group) :
    2 ≤ (sortedDistinct groups).length ↔ lane.evidence.Diverse := by
  rw [two_le_length_sortedDistinct]
  constructor
  · rintro ⟨a, ha, b, hb, hab⟩
    obtain ⟨row, hrow, hadmitted, rfl⟩ := (h a).mp ha
    obtain ⟨row', hrow', hadmitted', rfl⟩ := (h b).mp hb
    exact ⟨_, ⟨row, hrow, hadmitted, rfl⟩, _, ⟨row', hrow', hadmitted', rfl⟩, hab⟩
  · rintro ⟨_, ⟨row, hrow, hadmitted, rfl⟩, _, ⟨row', hrow', hadmitted', rfl⟩, hne⟩
    exact ⟨row.group, (h _).mpr ⟨row, hrow, hadmitted, rfl⟩,
      row'.group, (h _).mpr ⟨row', hrow', hadmitted', rfl⟩, hne⟩

theorem mem_groups_iff (hlane : lane.Attributed) (group : String) :
    group ∈ ((lane.sources.filter SourceStatus.admitted).filter SourceStatus.authoritative).map
        SourceStatus.group
      ↔ ∃ row ∈ lane.sources, row.admitted = true ∧ row.group = group := by
  rw [List.mem_map]
  constructor
  · rintro ⟨row, hrow, hgroup⟩
    obtain ⟨hrow, hadmitted⟩ := List.mem_filter.mp (List.mem_filter.mp hrow).1
    exact ⟨row, hrow, hadmitted, hgroup⟩
  · rintro ⟨row, hrow, hadmitted, hgroup⟩
    have hauthoritative := (hlane row hrow hadmitted).1
    have hmem := List.mem_filter.mpr ⟨hrow, hadmitted⟩
    exact ⟨row, List.mem_filter.mpr ⟨hmem, hauthoritative⟩, hgroup⟩

theorem sufficiency_research :
    (eligibilityOf (sufficiency R primaryBlocker lane required primary)).research = true
      ↔ lane.evidence.Nonempty ∧ lane.evidence.MeetsPrimary R primary := by
  show (_ && (List.isEmpty _ || List.any _ _)) = true ↔ _
  rw [Bool.and_eq_true, Bool.or_eq_true, nonempty_evidence]
  refine and_congr_right (fun _ => or_congr ?_ ?_)
  · rw [List.isEmpty_iff, List.map_eq_nil_iff, List.filter_eq_nil_iff]
    simp
  · rw [List.any_eq_true]
    constructor
    · rintro ⟨row, hrow, hcontains⟩
      obtain ⟨hrow, hadmitted⟩ := List.mem_filter.mp hrow
      obtain ⟨item, hitem, heq⟩ := List.mem_map.mp (List.contains_iff_mem.mp hcontains)
      obtain ⟨hitem, hstrip⟩ := List.mem_filter.mp hitem
      exact ⟨_, ⟨row, hrow, hadmitted, rfl⟩, item, hitem, of_decide_eq_true hstrip, heq⟩
    · rintro ⟨_, ⟨row, hrow, hadmitted, rfl⟩, item, hitem, hstrip, heq⟩
      refine ⟨row, List.mem_filter.mpr ⟨hrow, hadmitted⟩, List.contains_iff_mem.mpr ?_⟩
      exact List.mem_map.mpr ⟨item, List.mem_filter.mpr ⟨hitem, decide_eq_true hstrip⟩, heq⟩

theorem sufficiency_forwardTest :
    (eligibilityOf (sufficiency R primaryBlocker lane required primary)).forwardTest = true
      ↔ (lane.evidence.Nonempty ∧ lane.evidence.MeetsPrimary R primary)
        ∧ lane.evidence.Covers required := by
  show ((eligibilityOf (sufficiency R primaryBlocker lane required primary)).research && _) = true
    ↔ _
  rw [Bool.and_eq_true]
  refine and_congr sufficiency_research (missing_isEmpty_iff (fun name hname => ?_))
  rw [mem_sortedDistinct, List.mem_filter, List.contains_iff_mem]
  exact and_iff_left hname

theorem sufficiency_allocation (hlane : lane.Attributed) :
    (eligibilityOf (sufficiency R primaryBlocker lane required primary)).allocation = true
      ↔ ((lane.evidence.Nonempty ∧ lane.evidence.MeetsPrimary R primary)
        ∧ lane.evidence.Covers required) ∧ lane.evidence.Diverse := by
  show ((eligibilityOf (sufficiency R primaryBlocker lane required primary)).forwardTest
    && decide _) = true ↔ _
  rw [Bool.and_eq_true, decide_eq_true_eq]
  refine and_congr sufficiency_forwardTest (two_le_groups_iff (fun group => ?_))
  rw [List.mem_filter, mem_groups_iff hlane, and_iff_left_iff_imp]
  rintro ⟨row, hrow, hadmitted, rfl⟩
  exact decide_eq_true (hlane row hrow hadmitted).2

end Evidence

/-! ### The lanes of a snapshot -/

section Lanes

variable {plane : SourceCoveragePlane} {now : Instant} {rows : ReadRows}
  {definition : LaneDefinition}

/-- No source of the catalog is without a group, and all groups are plain text. -/
theorem group_of_mem_sources : ∀ spec ∈ sources, spec.group ≠ "" ∧ Plain spec.group := by
  decide +kernel

/-- A candidate stands for a source of the lane. -/
structure StandingIn (plane : SourceCoveragePlane) (laneId : String) (now : Instant)
    (rows : ReadRows) (spec : SourceSpec) (candidate : Candidate) : Prop where
  mem_lane : spec ∈ laneSources laneId
  standing : Standing plane spec laneId now rows candidate

/-- **The evidence of a lane** is what the standing candidates list for the groups of their
    sources. -/
theorem mem_evidence_laneCoverage {e : String × List String} :
    e ∈ (laneCoverage plane now rows definition).evidence
      ↔ ∃ spec candidate, StandingIn plane definition.laneId now rows spec candidate
          ∧ e = (spec.group, candidate.evidenceClasses spec) := by
  constructor
  · rintro ⟨row, hrow, hadmitted, rfl⟩
    obtain ⟨spec, hspec, rfl⟩ := List.mem_map.mp hrow
    obtain ⟨candidate, hstanding⟩ := sourceStatus_admitted_iff.mp hadmitted
    obtain ⟨latest, hstatus⟩ := hstanding.sourceStatus_eq
    exact ⟨spec, candidate, ⟨hspec, hstanding⟩, by rw [hstatus]; rfl⟩
  · rintro ⟨spec, candidate, ⟨hspec, hstanding⟩, rfl⟩
    obtain ⟨latest, hstatus⟩ := hstanding.sourceStatus_eq
    have hadmitted := sourceStatus_admitted_iff.mpr ⟨candidate, hstanding⟩
    refine ⟨_, List.mem_map.mpr ⟨spec, hspec, rfl⟩, hadmitted, ?_⟩
    rw [hstatus]
    rfl

theorem attributed_laneCoverage : (laneCoverage plane now rows definition).Attributed := by
  intro row hrow hadmitted
  obtain ⟨spec, hspec, rfl⟩ := List.mem_map.mp hrow
  obtain ⟨candidate, hstanding⟩ := sourceStatus_admitted_iff.mp hadmitted
  obtain ⟨latest, hstatus⟩ := hstanding.sourceStatus_eq
  have hadmits := hstanding.admits.2
  rw [Candidate.admits, Bool.and_eq_true, Bool.and_eq_true, Bool.and_eq_true] at hadmits
  rw [hstatus]
  exact ⟨hadmits.1.1.2, (group_of_mem_sources spec (List.mem_filter.mp hspec).1).1⟩

theorem laneCoverage_research :
    (laneCoverage plane now rows definition).eligibility.research = true
      ↔ (laneCoverage plane now rows definition).evidence.Nonempty :=
  (@nonempty_evidence (laneCoverage plane now rows definition)).symm

theorem laneCoverage_forwardTest :
    (laneCoverage plane now rows definition).eligibility.forwardTest = true
      ↔ (laneCoverage plane now rows definition).evidence.Nonempty
        ∧ (laneCoverage plane now rows definition).evidence.Covers definition.required := by
  show ((laneCoverage plane now rows definition).eligibility.research && _) = true ↔ _
  rw [Bool.and_eq_true]
  refine and_congr laneCoverage_research ?_
  exact @missing_isEmpty_iff (laneCoverage plane now rows definition) _ _
    (fun name _ => mem_sortedDistinct)

theorem laneCoverage_allocation :
    (laneCoverage plane now rows definition).eligibility.allocation = true
      ↔ ((laneCoverage plane now rows definition).evidence.Nonempty
        ∧ (laneCoverage plane now rows definition).evidence.Covers definition.required)
        ∧ (laneCoverage plane now rows definition).evidence.Diverse := by
  show ((laneCoverage plane now rows definition).eligibility.forwardTest && decide _) = true ↔ _
  rw [Bool.and_eq_true, decide_eq_true_eq]
  exact and_congr laneCoverage_forwardTest
    (two_le_groups_iff (mem_groups_iff attributed_laneCoverage))

/-- No two lanes have the same id. -/
theorem nodup_laneIds : (lanes.map LaneDefinition.laneId).Nodup := by
  decide +kernel

/-- A lane of the catalog is found in the snapshot. -/
theorem find?_snapshot (R : MechanismRuntime) (hdefinition : definition ∈ lanes) :
    (snapshot plane now rows R).lanes.find? (fun lane => lane.laneId = definition.laneId)
      = some (laneCoverage plane now rows definition) := by
  show (lanes.map (laneCoverage plane now rows)).find? _ = _
  have hfind : lanes.find? (fun other => other.laneId = definition.laneId) = some definition := by
    cases hfound : lanes.find? (fun other => other.laneId = definition.laneId) with
    | none => simpa using List.find?_eq_none.mp hfound definition hdefinition
    | some other =>
      have heq : other.laneId = definition.laneId := by simpa using List.find?_some hfound
      exact congrArg some
        (List.inj_on_of_nodup_map nodup_laneIds (List.mem_of_find?_eq_some hfound) hdefinition heq)
  rw [List.find?_map]
  show (lanes.find? (fun other => other.laneId = definition.laneId)).map _ = _
  rw [hfind]
  rfl

theorem candidateSufficiency_eq (R : MechanismRuntime) (hdefinition : definition ∈ lanes)
    (required? : Option (List String)) (primary : List String) :
    candidateSufficiency R plane now rows definition.laneId required? primary
      = some (sufficiency R "candidate primary venue/protocol source is not freshly admitted"
          (laneCoverage plane now rows definition) (required?.getD definition.required)
          primary) := by
  unfold candidateSufficiency
  rw [find?_snapshot R hdefinition]
  rfl

end Lanes

/-! ### Agreement -/

/-- Two gates agree in every flag and every list of classes and groups. -/
structure SameGate (gate other : CandidateSourceSufficiency) : Prop where
  laneId : gate.laneId = other.laneId
  required : gate.requiredEvidenceClasses = other.requiredEvidenceClasses
  covered : gate.coveredEvidenceClasses = other.coveredEvidenceClasses
  missing : gate.missingEvidenceClasses = other.missingEvidenceClasses
  groups : gate.admittedSourceGroups = other.admittedSourceGroups
  primary : gate.primarySourceGroups = other.primarySourceGroups
  primaryOk : gate.primaryGroupSatisfied = other.primaryGroupSatisfied
  research : gate.researchEligible = other.researchEligible
  forwardTest : gate.forwardTestEligible = other.forwardTestEligible
  allocation : gate.allocationSourceQualified = other.allocationSourceQualified

section Agreement

variable (R : MechanismRuntime) (plane : SourceCoveragePlane) (now : Instant) (rows : ReadRows)
  (definition : LaneDefinition) (required primary : List String)

/-- The blockers name a missing primary source in different words. -/
theorem sameGate_sufficiency (primaryBlocker other : String) (lane : LaneSourceCoverage) :
    SameGate (sufficiency R primaryBlocker lane required primary)
      (sufficiency R other lane required primary) :=
  ⟨rfl, rfl, rfl, rfl, rfl, rfl, rfl, rfl, rfl, rfl⟩

/-- The governed service computes the gate of the source plane. -/
theorem gateFromLane_governedLane :
    Mechanism.gateFromLane R (governedLane plane now rows definition) required primary
      = sufficiency R "candidate primary venue/protocol source is not freshly admitted"
          (laneCoverage plane now rows definition) required primary := by
  have hadmitted : (governedLane plane now rows definition).sources.filter
      Mechanism.LaneSource.admitted
      = ((laneSources definition.laneId).filter (fun spec =>
          (sourceStatus plane spec definition.laneId now rows).admitted)).map (fun spec =>
          (sourceStatus plane spec definition.laneId now rows).toLaneSource) :=
    List.filter_map
  have hadmitted' : (laneCoverage plane now rows definition).sources.filter
      SourceStatus.admitted
      = ((laneSources definition.laneId).filter (fun spec =>
          (sourceStatus plane spec definition.laneId now rows).admitted)).map (fun spec =>
          (sourceStatus plane spec definition.laneId now rows).toSourceStatus) :=
    List.filter_map
  unfold Mechanism.gateFromLane sufficiency
  simp only [hadmitted, hadmitted', List.flatMap_map, List.filter_map, List.map_map,
    List.any_map, List.isEmpty_map]
  rfl

end Agreement

end InefficiencyEngine.Coverage
