import InefficiencyEngine.Mechanism.Ledger
import Mathlib.Data.String.Basic

namespace InefficiencyEngine.Mechanism

open Portfolio

/-!
# The sources behind a lane

What the governed service asks of the source plane (`source_coverage.py`,
`source_coverage_catalog.py`) and of the visible option depth (`option_capacity.py`):

* `sourceGate` decides from the admitted sources of a lane whether a spec may be tried in
  research, tried forward, and allocated;
* `semanticEconomicsReady` additionally asks a yield source for complete economics;
* `capacityBoundedVolatilitySpec?` caps an option spec by the depth of its contracts.
-/

section Sources

variable (R : MechanismRuntime)

/-! ### Coverage -/

/-- A source of a lane. -/
structure LaneSource where
  admitted : Bool
  authoritative : Bool
  economicFieldsComplete : Bool
  classes : List String
  group : String

/-- `LaneSourceCoverage`. -/
structure LaneSourceCoverage where
  laneId : String
  sources : List LaneSource

/-- `SourceCoverageSnapshot`. -/
structure SourceCoverageSnapshot where
  lanes : List LaneSourceCoverage

/-- The lane of a mechanism in a snapshot. -/
def SourceCoverageSnapshot.lane? (coverage : SourceCoverageSnapshot) (mechanismId : MechanismId) :
    Option LaneSourceCoverage :=
  coverage.lanes.find? (fun lane => lane.laneId = mechanismId.value)

/-- `LANES[mechanism_id]["required"]`. The classes of evidence that a lane cannot do without. -/
def requiredEvidenceClasses : MechanismId → List String
  | .yield => ["yield_rate", "capacity", "exit_liquidity"]
  | .liquidityProvision => ["order_book", "trade_flow"]
  | .volatility => ["option_quotes", "option_greeks", "option_depth", "option_capacity"]
  | .liquidationDistress => ["liquidation_events", "distress_state"]
  | .capitalLocationSettlement => ["venue_opportunity_history", "transfer_costs", "transfer_latency"]

/-- `VENUE_SOURCE_GROUP`. The group of a venue by its name in lower case. -/
def venueSourceGroup : String → Option String
  | "coinbase" => some "coinbase"
  | "bybit" => some "bybit"
  | "kraken" => some "kraken"
  | "okx" => some "okx"
  | "hlperp" => some "hyperliquid"
  | "hyperliquid" => some "hyperliquid"
  | "deribit" => some "deribit"
  | "morpho" => some "morpho"
  | "lido" => some "lido"
  | "aave" => some "aave"
  | _ => none

/-- `source_group_for_venue`. -/
def sourceGroupForVenue (venue : String) : Option String :=
  venueSourceGroup (R.lower (R.strip venue))

/-- `_primary_groups`, a set without order; a location needs no group of its own. -/
def primaryGroups (venues : List String) (mechanismId : MechanismId) : List String :=
  if mechanismId = .capitalLocationSettlement then []
  else (venues.filterMap (sourceGroupForVenue R)).dedup

/-- `sorted` of a set of texts. -/
def sortedSet (texts : List String) : List String := texts.dedup.insertionSort (· ≤ ·)

/-- `CandidateSourceSufficiency`. Whether the sources behind a candidate suffice, and what
    blocks it otherwise. -/
structure CandidateSourceSufficiency where
  laneId : String
  requiredEvidenceClasses : List String
  coveredEvidenceClasses : List String
  missingEvidenceClasses : List String
  admittedSourceGroups : List String
  primarySourceGroups : List String
  primaryGroupSatisfied : Bool
  researchEligible : Bool
  forwardTestEligible : Bool
  allocationSourceQualified : Bool
  blockers : List String

/-- `_gate_from_lane`, and `candidate_sufficiency` of the source plane. Fresh admission opens
    research, the missing classes close forward testing, and allocation asks for two independent
    groups as well. -/
def gateFromLane (lane : LaneSourceCoverage) (required primary : List String) :
    CandidateSourceSufficiency :=
  let admitted := lane.sources.filter LaneSource.admitted
  let covered := sortedSet
    ((admitted.flatMap LaneSource.classes).filter (fun name => required.contains name))
  let missing := required.filter (fun item => !covered.contains item)
  let groups := sortedSet (((admitted.filter LaneSource.authoritative).map LaneSource.group).filter
    (fun group => group ≠ ""))
  let normalizedPrimary :=
    ((primary.filter (fun item => R.strip item ≠ "")).map (fun item => R.lower (R.strip item)))
  -- no primary source given: every admitted one will do
  let primaryOk := normalizedPrimary.isEmpty
    || admitted.any (fun row => normalizedPrimary.contains (R.lower (R.strip row.group)))
  let researchEligible := !admitted.isEmpty && primaryOk
  let forwardTestEligible := researchEligible && missing.isEmpty
  { laneId := lane.laneId
    requiredEvidenceClasses := required
    coveredEvidenceClasses := covered
    missingEvidenceClasses := missing
    admittedSourceGroups := groups
    primarySourceGroups := sortedSet normalizedPrimary
    primaryGroupSatisfied := primaryOk
    researchEligible := researchEligible
    forwardTestEligible := forwardTestEligible
    allocationSourceQualified := forwardTestEligible && 2 ≤ groups.length
    blockers :=
      (if admitted.isEmpty then ["no fresh admitted authoritative source"] else [])
      ++ (if !primaryOk then ["candidate primary venue/protocol source is not freshly admitted"]
        else [])
      ++ missing.map ("missing evidence class:" ++ ·)
      ++ (if forwardTestEligible && groups.length < 2 then
          ["independent-source redundancy remains required for allocation"] else []) }

/-- `_source_gate`, which raises when the snapshot has no such lane. -/
def sourceGate (coverage : SourceCoverageSnapshot) (mechanismId : MechanismId)
    (venues : List String) : Option CandidateSourceSufficiency :=
  (coverage.lane? mechanismId).map (fun lane =>
    gateFromLane R lane (requiredEvidenceClasses mechanismId) (primaryGroups R venues mechanismId))

/-- `GovernedMechanismExecutionService._semantic_economics_ready`. -/
def semanticEconomicsReady (mechanismId : MechanismId) (lane : LaneSourceCoverage) : Bool :=
  mechanismId ≠ .yield
    || lane.sources.any (fun source => source.admitted
      && (requiredEvidenceClasses .yield).all (fun name => source.classes.contains name)
      && source.economicFieldsComplete)

/-! ### Visible option depth -/

/-- `OptionCapacityObservation`, whose underlying is in upper case. -/
structure OptionCapacityObservation where
  venue : String
  underlying : String
  expiry : Instant
  strike : Positive
  optionType : OptionType
  observedAt : Instant
  bidCapacityUsd : Positive
  askCapacityUsd : Positive

/-- `OptionCapacityLedger.latest` within a quarter of an hour before an instant: the newest
    of the last fifty rows of the contract. -/
def latestCapacity (rows : List OptionCapacityObservation) (contract : OptionContract)
    (before : Instant) : Option OptionCapacityObservation :=
  let cutoff := before - timedeltaHours (15 / 60)
  ((rows.filter (fun row => row.venue = contract.venue
      && row.underlying = R.upper contract.underlying && row.expiry = contract.expiry
      && row.optionType = contract.optionType && row.observedAt ≤ before
      && cutoff ≤ row.observedAt)).reverse.take 50).find? (fun row =>
    |(row.strike : ℚ) - contract.strike| ≤ max (1 / 10 ^ 9) (|contract.strike| * (1 / 10 ^ 9)))

/-- The contracts of an option spec: those of its legs, or its own. -/
def optionLegs (asset : String) : SettlementPayload → List OptionContract
  | .volatility payload =>
    [{ payload.contract with
        underlying := if payload.contract.underlying = "" then asset else payload.contract.underlying }]
  | .surface payload => payload.legs.map SurfaceLeg.contract
  | _ => []

/-- `max(1.0, settings.alpha_min_notional_usd)`. -/
def minimumNotional : ℚ := max 1 R.alphaMinNotionalUsd

/-- The smaller visible side of a contract. -/
def OptionCapacityObservation.visible (row : OptionCapacityObservation) : ℚ :=
  min (row.bidCapacityUsd : ℚ) row.askCapacityUsd

/-- `_capacity_bounded_volatility_spec`: an option spec needs an observation of every contract
    and takes at most a twentieth of the smallest visible side. The source time of the spec
    becomes the latest of its observations. -/
def capacityBoundedVolatilitySpec? (rows : List OptionCapacityObservation) (before : Instant)
    (spec : MechanismTrialSpec) :
    Option MechanismTrialSpec :=
  if spec.mechanismId ≠ .volatility then some spec
  else
    match (optionLegs spec.asset spec.settlementPayload).mapM
        (fun leg => latestCapacity R rows leg before) with
    | none | some [] => none
    | some (first :: others) =>
      let visible := others.foldl (fun best row => min best row.visible) first.visible
      let bounded : ℚ := min spec.capitalUsd (visible * (5 / 100))
      if h : minimumNotional R ≤ bounded then
        some { spec with
          sourceObservedAt := (first :: others).foldl
            (fun latest row => max latest row.observedAt) spec.sourceObservedAt
          capitalUsd := ⟨bounded, lt_of_lt_of_le one_pos (le_trans (le_max_left _ _) h)⟩ }
      else none

variable {R}

/-- The capacity cap changes neither the lane nor the cohort of a spec. -/
theorem of_capacityBoundedVolatilitySpec? {rows : List OptionCapacityObservation}
    {before : Instant} {spec bounded : MechanismTrialSpec}
    (h : capacityBoundedVolatilitySpec? R rows before spec = some bounded) :
    bounded.settlementPayload = spec.settlementPayload ∧ bounded.cohortKey = spec.cohortKey := by
  unfold capacityBoundedVolatilitySpec? at h
  by_cases hlane : spec.mechanismId ≠ .volatility
  · rw [if_pos hlane] at h
    injection h with h
    exact ⟨h ▸ rfl, h ▸ rfl⟩
  · rw [if_neg hlane] at h
    split at h
    · cases h
    · cases h
    · dsimp only at h
      split at h
      · injection h with h
        exact ⟨h ▸ rfl, h ▸ rfl⟩
      · cases h

end Sources

end InefficiencyEngine.Mechanism
