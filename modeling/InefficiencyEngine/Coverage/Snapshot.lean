import InefficiencyEngine.Lib.SortedDistinct
import Mathlib.Data.String.Basic

namespace InefficiencyEngine.Coverage

/-!
# Source coverage snapshots

What the source plane says of a lane at one time: the status of every source of the lane, the
evidence classes and source groups the admitted ones cover, and the three gates read off them.
-/

/-- The `state` of a source. -/
inductive SourceState
  | notApplicable
  | credentialRequired
  | unobserved
  | healthy
  | stale
  | failed
  deriving DecidableEq

/-- A source in the `sources` of a lane. -/
structure SourceStatus where
  sourceId : String
  group : String
  state : SourceState
  healthy : Bool
  fresh : Bool
  admitted : Bool
  authoritative : Bool
  classes : List String
  deriving DecidableEq

/-- The `source_state` of a lane. -/
inductive LaneSourceState
  | sufficient
  | providerGap
  | evidenceClassGap
  | concentrationRisk
  deriving DecidableEq

/-- `LaneSourceCoverage`. A lane of the report: what it needs, what is covered and missing, and
    which of the gates it passes. -/
structure LaneSourceCoverage where
  laneId : String
  requiredEvidenceClasses : List String
  coveredEvidenceClasses : List String
  missingEvidenceClasses : List String
  healthySourceCount : ℕ
  independentAuthoritativeSourceCount : ℕ
  admittedAuthoritativeSourceGroups : List String
  missingAuthoritativeSourceCount : ℕ
  policyDisabledSourceIds : List String
  sourceRedundancySatisfied : Bool
  evidenceClassCoverageSatisfied : Bool
  researchEligible : Bool
  forwardTestEligible : Bool
  allocationSourceQualified : Bool
  sourceLayerSufficient : Bool
  sourceState : LaneSourceState
  sources : List SourceStatus
  deriving DecidableEq

/-- `SourceCoverageSnapshot`; its time is the text `_utc(observed_at).isoformat()`. -/
structure SourceCoverageSnapshot where
  observedAt : String
  lanes : List LaneSourceCoverage
  deriving DecidableEq

end InefficiencyEngine.Coverage
