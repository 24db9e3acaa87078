import InefficiencyEngine.Mechanism.Governed
import InefficiencyEngine.Mechanism.Runs
import InefficiencyEngine.Mechanism.Sample

namespace InefficiencyEngine.Mechanism

open Portfolio Durable

/-!
# Research-only lanes

The yield and the liquidation lane keep recording trials and outcomes, but no row of theirs
becomes a candidate.  Four overrides have to agree for that:

* a discovered yield spec is stamped as a shadow, and a shadow is no candidate;
* a yield cohort never qualifies in the research process;
* every liquidation outcome says that its capture was modelled, so no return counts for its
  cohort, and a cohort without returns does not qualify;
* the cohorts of a lane begin with its name, so no other lane reads an outcome of these two.

`LaneInvariant` says this of the rows of a ledger; every write of a cycle keeps it, so it holds
wherever a cycle stops.
-/

/-- The lanes whose evidence is for research only. -/
def MechanismId.researchOnly : MechanismId → Bool
  | .yield => true
  | .liquidationDistress => true
  | _ => false

/-! ### What the rows say -/

/-- A trial belongs to its lane, and one of the yield lane is a shadow. -/
def MechanismForwardTrial.Labelled (trial : MechanismForwardTrial) : Prop :=
  LaneCohort trial.mechanismId trial.cohortKey
    ∧ (trial.mechanismId = .yield → trial.stamps.yieldResearchShadow = true)

/-- An outcome belongs to its lane, and one of a research lane is not allocation grade. -/
def MechanismForwardOutcome.Labelled (o : MechanismForwardOutcome) : Prop :=
  LaneCohort o.mechanismId o.cohortKey
    ∧ (o.mechanismId = .yield → yieldAllocationGrade o = false)
    ∧ (o.mechanismId = .liquidationDistress → liquidationAllocationGrade o = false)

/-- A candidate belongs to its lane, which is not a research lane. -/
def MechanismPaperCandidate.Labelled (candidate : MechanismPaperCandidate) : Prop :=
  LaneCohort candidate.mechanismId candidate.cohortKey
    ∧ candidate.mechanismId.researchOnly = false

/-- All rows of a ledger are labelled. -/
structure LaneInvariant (ledger : MechanismLedger) : Prop where
  trials : ∀ trial ∈ ledger.trials, trial.Labelled
  outcomes : ∀ o ∈ ledger.outcomes, o.Labelled
  candidates : ∀ candidate ∈ ledger.candidates, candidate.Labelled

/-- The row of a write is labelled. -/
def MechanismWrite.Labelled : MechanismWrite → Prop
  | .trial row => row.Labelled
  | .outcome row => row.Labelled
  | .candidate row => row.Labelled

/-- A labelled row keeps the invariant. -/
theorem LaneInvariant.commit {ledger : MechanismLedger} (h : LaneInvariant ledger)
    {w : MechanismWrite} (hw : w.Labelled) : LaneInvariant (Durable.commit ledger w) where
  trials trial htrial := by
    rcases (MechanismLedger.of_mem_commit w).1 trial htrial with htrial | rfl
    · exact h.trials trial htrial
    · exact hw
  outcomes o ho := by
    rcases (MechanismLedger.of_mem_commit w).2.1 o ho with ho | rfl
    · exact h.outcomes o ho
    · exact hw
  candidates candidate hcandidate := by
    rcases (MechanismLedger.of_mem_commit w).2.2 candidate hcandidate with hcandidate | rfl
    · exact h.candidates candidate hcandidate
    · exact hw

section ResearchOnly

variable {R : MechanismRuntime}

/-! ### Trials -/

/-- The governed service changes neither the lane nor the cohort of a spec. -/
theorem inLane_of_mem_governedSpecs {ready : MechanismId → LaneSourceCoverage → Bool}
    {input : MechanismInput} {snapshot : ScanSnapshot} {spec : MechanismTrialSpec}
    (h : spec ∈ governedSpecs R ready input snapshot) : spec.InLane := by
  obtain ⟨raw, hraw, h⟩ := List.mem_filterMap.mp h
  have hlane := inLane_of_mem_executableSpecs hraw
  unfold governedSpec? at h
  split at h
  · cases h
  · rename_i row hrow
    obtain ⟨hpayload, hcohort⟩ := of_capacityBoundedVolatilitySpec? hrow
    have hrowLane : row.InLane := by
      rw [MechanismTrialSpec.InLane, MechanismTrialSpec.mechanismId, hpayload, hcohort]
      exact hlane
    split at h
    · split at h
      · cases h
      · injection h with h
        subst h
        exact hrowLane
    · cases h

/-- A spec of the yield shadow service belongs to its lane; one of the yield lane is stamped
    as a shadow and its gate is closed. -/
theorem of_mem_shadowSpecs {input : MechanismInput} {snapshot : ScanSnapshot}
    {spec : MechanismTrialSpec} (h : spec ∈ shadowSpecs R input snapshot) :
    spec.InLane ∧ (spec.mechanismId = .yield → spec.stamps.yieldResearchShadow = true
      ∧ yieldGateOpen spec.stamps = false) := by
  obtain ⟨row, hrow, rfl⟩ := List.mem_map.mp h
  have hlane := inLane_of_mem_governedSpecs hrow
  unfold shadowSpec
  by_cases hyield : row.mechanismId = .yield
  · rw [if_neg (not_not.mpr hyield)]
    exact ⟨hlane, fun _ => ⟨rfl, rfl⟩⟩
  · rw [if_pos hyield]
    exact ⟨hlane, fun heq => absurd heq hyield⟩

/-! ### Outcomes -/

/-- The outcome of a labelled trial is labelled. -/
theorem labelled_shadowOutcome {evidence : StoredEvidence} {trial : MechanismForwardTrial}
    {settlement : MechanismSettlementResult} (htrial : trial.Labelled)
    (hsettled : settleExecutable R evidence trial = some settlement) :
    (shadowOutcome trial settlement).Labelled := by
  obtain ⟨hlane, hshadow⟩ := htrial
  obtain ⟨-, hcohort, hmechanism⟩ := shadowOutcome_keys trial settlement
  refine ⟨by rw [hcohort, hmechanism]; exact hlane, fun hyield => ?_, fun hliquidation => ?_⟩
  · rw [hmechanism] at hyield
    have hlabelled : ¬ (trial.mechanismId ≠ .yield ∨ ¬ trial.stamps.yieldResearchShadow = true) := by
      rw [not_or, not_not, not_not]
      exact ⟨hyield, hshadow hyield⟩
    rw [shadowOutcome, if_neg hlabelled]
    rfl
  · -- a liquidation settles with `capture_assumed` false
    rw [hmechanism] at hliquidation
    have hother : trial.mechanismId ≠ .yield ∨ ¬ trial.stamps.yieldResearchShadow = true :=
      Or.inl (by rw [hliquidation]; decide)
    have hdetail : settlement.detail.captureAssumed = some false := by
      rw [detail_of_settleExecutable hsettled]
      rw [MechanismForwardTrial.mechanismId] at hliquidation
      cases hpayload : trial.settlementPayload with
      | liquidation payload => rfl
      | _ =>
        rw [hpayload] at hliquidation
        cases hliquidation
    have hassumed : (trial.outcome settlement).detail.captureAssumed = some false := hdetail
    rw [shadowOutcome, if_pos hother]
    unfold liquidationAllocationGrade
    rw [hassumed]
    simp

/-! ### Candidates -/

/-- A cohort without returns gets no capital. -/
theorem allocationFraction_nil (short : String) (extra : List String) :
    (qualificationOf R short extra []).allocationFraction = 0 := by
  simp [qualificationOf, fullForwardTarget, minForwardStart]

/-- No liquidation return counts in a labelled ledger. -/
theorem liquidationReturns_eq_nil {ledger : MechanismLedger} (h : LaneInvariant ledger)
    (cohortKey : String) : liquidationReturns ledger cohortKey = [] := by
  rw [liquidationReturns, List.map_eq_nil_iff, List.filter_eq_nil_iff]
  intro o ho
  obtain ⟨ho, -⟩ := List.mem_filter.mp ho
  obtain ⟨ho, hlane⟩ := List.mem_filter.mp ho
  rw [(h.outcomes o ho).2.2 (of_decide_eq_true hlane)]
  exact Bool.false_ne_true

/-- A candidate of the yield shadow service is labelled, when the ledger is. -/
theorem labelled_shadowCandidate? {input : MechanismInput} {snapshot : ScanSnapshot}
    {ledger : MechanismLedger} {spec : MechanismTrialSpec} {candidate : MechanismPaperCandidate}
    (h : LaneInvariant ledger) (hspec : spec ∈ shadowSpecs R input snapshot)
    (hcandidate : shadowCandidate? R input ledger spec = some candidate) : candidate.Labelled := by
  obtain ⟨hlane, hshadow⟩ := of_mem_shadowSpecs hspec
  unfold shadowCandidate? at hcandidate
  -- a yield spec has a shadow payload, and gets no candidate from this service
  have hyield : spec.mechanismId ≠ .yield := by
    intro heq
    rw [if_pos (by simp [heq, (hshadow heq).2])] at hcandidate
    cases hcandidate
  rw [if_neg (by simp [hyield])] at hcandidate
  unfold governedCandidate? at hcandidate
  split at hcandidate
  -- a candidate of the liquidation lane would have counted returns, which the ledger lacks
  · obtain ⟨hpayload, -, hcohort, hfraction⟩ := of_candidateOf? hcandidate
    have hliquidation : spec.mechanismId ≠ .liquidationDistress := by
      intro heq
      rw [shadowQualification, if_pos hyield, governedQualification, if_neg (not_not.mpr heq),
        liquidationReturns_eq_nil h] at hfraction
      rw [allocationFraction_nil] at hfraction
      exact lt_irrefl _ hfraction
    have hmechanism : candidate.mechanismId = spec.mechanismId := by
      rw [MechanismPaperCandidate.mechanismId, hpayload]
      rfl
    refine ⟨by rw [hmechanism, hcohort]; exact hlane, ?_⟩
    rw [hmechanism]
    cases hid : spec.mechanismId with
    | yield => exact absurd hid hyield
    | liquidationDistress => exact absurd hid hliquidation
    | _ => rfl
  · cases hcandidate

/-! ### Runs -/

/-- The counts a shadow cycle adds to its summary change no write. -/
theorem runShadowCycle_writes (run : ℕ) (input : MechanismInput) (ledger : MechanismLedger) :
    (runShadowCycle R run input ledger).1
      = (runEvidenceCycle R (yieldShadowService R) run input ledger).1 := by
  rw [runShadowCycle, Prog.run_bind]
  cases (runEvidenceCycle R (yieldShadowService R) run input ledger).2 with
  | error e => exact List.append_nil _
  | ok cycle => exact List.append_nil _

/-- A cycle keeps the rows labelled, wherever it stops. -/
theorem LaneInvariant.cycle {ledger : MechanismLedger} (h : LaneInvariant ledger) (run : ℕ)
    (input : MechanismInput) (n : ℕ) :
    LaneInvariant (commitAll ledger ((runShadowCycle R run input ledger).1.take n)) := by
  rw [runShadowCycle_writes]
  refine cycle_invariant ?_ ?_ ?_ h n
  · intro s hs trial htrial settlement hsettled
    exact hs.commit (labelled_shadowOutcome (hs.trials trial htrial) (Except.ok.inj hsettled))
  · intro snapshot _ spec hspec i s hs
    obtain ⟨hlane, hshadow⟩ := of_mem_shadowSpecs hspec
    exact hs.commit ⟨hlane, fun hyield => (hshadow hyield).1⟩
  · intro snapshot _ spec hspec s₀ hs₀ candidate hcandidate s hs
    exact hs.commit (labelled_shadowCandidate? hs₀ hspec hcandidate)

/-- The rows of a run are labelled, and their ids are those of its cycles. -/
theorem run_shadowCycle (schedule : List CycleAction) :
    LaneInvariant (run (cycleStep (runShadowCycle R)) .initial schedule).ledger
      ∧ IdsBelow R (run (cycleStep (runShadowCycle R)) .initial schedule).started
        (run (cycleStep (runShadowCycle R)) .initial schedule).ledger := by
  have hstart : LaneInvariant MechanismWorld.initial.ledger
      ∧ IdsBelow R MechanismWorld.initial.started MechanismWorld.initial.ledger :=
    ⟨⟨by simp [MechanismWorld.initial, MechanismLedger.empty],
      by simp [MechanismWorld.initial, MechanismLedger.empty],
      by simp [MechanismWorld.initial, MechanismLedger.empty]⟩,
    ⟨by simp [MechanismWorld.initial, MechanismLedger.empty],
      by simp [MechanismWorld.initial, MechanismLedger.empty, MechanismLedger.completed]⟩⟩
  refine run_invariant (I := fun world : MechanismWorld => LaneInvariant world.ledger
    ∧ IdsBelow R world.started world.ledger) (C := fun _ _ => True) ?_ hstart
    (Meets.of_forall (fun _ _ => trivial) _ _)
  intro world action hworld _
  refine ⟨hworld.1.cycle world.started action.input action.writes, ?_⟩
  show IdsBelow R (world.started + 1) (commitAll world.ledger
    ((runShadowCycle R world.started action.input world.ledger).1.take action.writes))
  rw [runShadowCycle_writes]
  exact hworld.2.cycle action.writes

/-! ### What the services read -/

/-- A ledger without the outcomes of the research lanes. -/
def MechanismLedger.withoutResearch (ledger : MechanismLedger) : MechanismLedger :=
  { ledger with outcomes := ledger.outcomes.filter (fun o => !o.mechanismId.researchOnly) }

/-- A cohort key that a row of a lane or a discovered spec of it has. -/
def LaneUses (R : MechanismRuntime) (ledger : MechanismLedger) (mechanismId : MechanismId)
    (cohortKey : String) : Prop :=
  (∃ trial ∈ ledger.trials, trial.mechanismId = mechanismId ∧ trial.cohortKey = cohortKey)
    ∨ (∃ o ∈ ledger.outcomes, o.mechanismId = mechanismId ∧ o.cohortKey = cohortKey)
    ∨ (∃ candidate ∈ ledger.candidates,
        candidate.mechanismId = mechanismId ∧ candidate.cohortKey = cohortKey)
    ∨ ∃ input snapshot, ∃ spec ∈ shadowSpecs R input snapshot,
        spec.mechanismId = mechanismId ∧ spec.cohortKey = cohortKey

/-- No capital reaches a research lane: none of its rows is a candidate or promoted to the
    allocator by either service, and its outcomes qualify no other lane. -/
structure NoResearchCapital (R : MechanismRuntime) (ledger : MechanismLedger) : Prop where
  candidates : ∀ candidate ∈ ledger.candidates, candidate.mechanismId.researchOnly = false
  promoted : ∀ coverage maxAgeHours now, ∀ candidate ∈ promotedCandidates R coverage ledger
    maxAgeHours now, candidate.mechanismId.researchOnly = false
  shadowPromoted : ∀ coverage maxAgeHours now, ∀ candidate ∈ shadowPromotedCandidates R coverage
    ledger maxAgeHours now, candidate.mechanismId.researchOnly = false
  proxies : ∀ totalCapitalUsd coverage now, ∀ proxy ∈ promotedProxyCandidates R totalCapitalUsd
    (promotedCandidates R coverage ledger 24 now)
      ++ promotedProxyCandidates R totalCapitalUsd (shadowPromotedCandidates R coverage ledger 24 now),
    ∀ mechanismId : MechanismId, mechanismId.researchOnly = true →
      proxy.opportunityId ≠ some mechanismId.value
  qualification : ∀ mechanismId cohortKey, mechanismId.researchOnly = false →
    LaneUses R ledger mechanismId cohortKey →
      governedQualification R ledger cohortKey mechanismId
          = governedQualification R ledger.withoutResearch cohortKey mechanismId
        ∧ shadowQualification R ledger cohortKey mechanismId
          = shadowQualification R ledger.withoutResearch cohortKey mechanismId

/-- The research lanes keep learning: a cycle whose snapshot was collected completes, opens a
    trial for each cohort they discover, and records an outcome for each trial that settles. -/
structure ResearchRecorded (R : MechanismRuntime) (world : MechanismWorld)
    (input : MechanismInput) : Prop where
  completes : ∀ snapshot, input.collected = .ok snapshot →
    ∃ cycle, (runShadowCycle R world.started input world.ledger).2 = .ok cycle
  trials : ∀ snapshot, input.collected = .ok snapshot →
    ∀ spec ∈ shadowSpecs R input snapshot, spec.mechanismId.researchOnly = true →
      ((runShadowCycle R world.started input).final world.ledger).hasOpenCohort spec.cohortKey = true
  outcomes : ∀ snapshot, input.collected = .ok snapshot →
    ∀ trial ∈ world.ledger.pending snapshot.completedAt, trial.mechanismId.researchOnly = true →
      (settleExecutable R input.evidence trial).isSome →
        trial.trialId ∈ ((runShadowCycle R world.started input).final world.ledger).completed

/-- A cohort key a lane uses is one of the lane's. -/
theorem LaneInvariant.laneCohort {ledger : MechanismLedger} (h : LaneInvariant ledger)
    {mechanismId : MechanismId} {cohortKey : String}
    (huses : LaneUses R ledger mechanismId cohortKey) : LaneCohort mechanismId cohortKey := by
  rcases huses with ⟨trial, hmem, rfl, rfl⟩ | ⟨o, hmem, rfl, rfl⟩ | ⟨candidate, hmem, rfl, rfl⟩
    | ⟨input, snapshot, spec, hmem, rfl, rfl⟩
  · exact (h.trials trial hmem).1
  · exact (h.outcomes o hmem).1
  · exact (h.candidates candidate hmem).1
  · exact (of_mem_shadowSpecs hmem).1

/-- The outcomes of a cohort of another lane are not those of a research lane. -/
theorem LaneInvariant.cohortOutcomes {ledger : MechanismLedger} (h : LaneInvariant ledger)
    {mechanismId : MechanismId} {cohortKey : String} (hother : mechanismId.researchOnly = false)
    (hlane : LaneCohort mechanismId cohortKey) :
    ledger.withoutResearch.cohortOutcomes cohortKey = ledger.cohortOutcomes cohortKey := by
  show (ledger.outcomes.filter _).filter _ = ledger.outcomes.filter _
  rw [List.filter_filter]
  refine List.filter_congr (fun o ho => ?_)
  by_cases hcohort : o.cohortKey = cohortKey
  · have heq : o.mechanismId = mechanismId :=
      LaneCohort.unique (hcohort ▸ (h.outcomes o ho).1) hlane
    simp [heq, hother]
  · simp [hcohort]

/-- A promoted candidate is one of the table, for either service. -/
theorem mem_candidates_of_sourced {S : MechanismService}
    {ready : MechanismId → LaneSourceCoverage → Bool} {coverage : SourceCoverageSnapshot}
    {ledger : MechanismLedger} {maxAgeHours : ℚ} {now : Instant}
    {candidate : MechanismPaperCandidate}
    (h : candidate ∈ sourcedCandidates R S ready coverage ledger maxAgeHours now) :
    candidate ∈ ledger.candidates :=
  MechanismLedger.mem_of_mem_latestCandidates
    (List.mem_filter.mp (List.mem_filter.mp h).1).1

/-- A proxy names the lane of its candidate. -/
theorem promotedProxy?_opportunityId {totalCapitalUsd : Positive} {item : MechanismPaperCandidate}
    {proxy : UnifiedPaperCandidate} (h : promotedProxy? R totalCapitalUsd item = some proxy) :
    proxy.opportunityId = some item.mechanismId.value := by
  unfold promotedProxy? at h
  dsimp only at h
  split at h
  · cases h
  · injection h with h
    rw [← h]

/-- Lanes have different texts. -/
theorem MechanismId.value_injective : Function.Injective MechanismId.value := by
  intro a b h
  cases a <;> cases b <;> first | rfl | simp [MechanismId.value] at h

/-- In a labelled ledger no capital reaches a research lane. The promoted candidates come from
    the ledger, whose candidates are of other lanes, and the gates of another lane read the
    outcomes of that lane alone. -/
theorem LaneInvariant.noResearchCapital {ledger : MechanismLedger} (h : LaneInvariant ledger) :
    NoResearchCapital R ledger := by
  have hpromoted : ∀ coverage maxAgeHours now, ∀ candidate ∈ promotedCandidates R coverage ledger
      maxAgeHours now, candidate.mechanismId.researchOnly = false :=
    fun _ _ _ candidate hmem => (h.candidates candidate (mem_candidates_of_sourced hmem)).2
  have hshadow : ∀ coverage maxAgeHours now, ∀ candidate ∈ shadowPromotedCandidates R coverage
      ledger maxAgeHours now, candidate.mechanismId.researchOnly = false :=
    fun _ _ _ candidate hmem => (h.candidates candidate
      (mem_candidates_of_sourced (List.mem_filter.mp hmem).1)).2
  refine ⟨fun candidate hmem => (h.candidates candidate hmem).2, hpromoted, hshadow, ?_, ?_⟩
  -- a proxy of a research lane would come from a candidate of it
  · intro totalCapitalUsd coverage now proxy hproxy mechanismId hresearch hid
    have hitem : ∃ item : MechanismPaperCandidate, item.mechanismId.researchOnly = false
        ∧ promotedProxy? R totalCapitalUsd item = some proxy := by
      rcases List.mem_append.mp hproxy with hproxy | hproxy
      · obtain ⟨item, hitem, hsome⟩ := List.mem_filterMap.mp hproxy
        exact ⟨item, hpromoted _ _ _ item hitem, hsome⟩
      · obtain ⟨item, hitem, hsome⟩ := List.mem_filterMap.mp hproxy
        exact ⟨item, hshadow _ _ _ item hitem, hsome⟩
    obtain ⟨item, hother, hsome⟩ := hitem
    rw [promotedProxy?_opportunityId hsome] at hid
    rw [MechanismId.value_injective (Option.some.inj hid), hresearch] at hother
    cases hother
  -- the gates of the other lanes do not see the outcomes of the research lanes
  · intro mechanismId cohortKey hother huses
    have houtcomes := h.cohortOutcomes hother (h.laneCohort huses)
    have hyield : mechanismId ≠ .yield := by
      rintro rfl
      cases hother
    have hliquidation : mechanismId ≠ .liquidationDistress := by
      rintro rfl
      cases hother
    have hgoverned : governedQualification R ledger cohortKey mechanismId
        = governedQualification R ledger.withoutResearch cohortKey mechanismId := by
      rw [governedQualification, governedQualification, if_pos hliquidation, if_pos hliquidation,
        Mechanism.qualification, Mechanism.qualification, houtcomes]
    refine ⟨hgoverned, ?_⟩
    rw [shadowQualification, shadowQualification, if_pos hyield, if_pos hyield, hgoverned]

/-- A shadow cycle leaves what the evidence cycle leaves, and completes with it. -/
theorem runShadowCycle_final {run : ℕ} {input : MechanismInput} {ledger : MechanismLedger}
    (h : ∃ cycle, (runEvidenceCycle R (yieldShadowService R) run input ledger).2 = .ok cycle) :
    (runShadowCycle R run input).final ledger
        = (runEvidenceCycle R (yieldShadowService R) run input).final ledger
      ∧ ∃ cycle, (runShadowCycle R run input ledger).2 = .ok cycle := by
  obtain ⟨cycle, hcycle⟩ := h
  refine ⟨by rw [Prog.final, Prog.final, runShadowCycle_writes], ?_⟩
  have hrun : runEvidenceCycle R (yieldShadowService R) run input ledger
      = ((runEvidenceCycle R (yieldShadowService R) run input ledger).1, .ok cycle) :=
    Prod.ext rfl hcycle
  rw [runShadowCycle, Prog.run_bind_of_ok hrun]
  exact ⟨_, rfl⟩

/-- A cycle whose snapshot was collected records what the research lanes found. The shadow
    settlement never raises, so the settlement loop ends and the recording loop is reached with
    ids that are new. -/
theorem researchRecorded {world : MechanismWorld} (hids : IdsBelow R world.started world.ledger)
    (input : MechanismInput) : ResearchRecorded R world input := by
  -- no settlement of the shadow service raises
  have hsettles : ∀ snapshot : ScanSnapshot, Settles (yieldShadowService R) input.evidence
      (world.ledger.pending snapshot.completedAt) := fun snapshot trial _ => ⟨_, rfl⟩
  have hfinal : ∀ snapshot, input.collected = .ok snapshot →
      (runShadowCycle R world.started input).final world.ledger
        = (recordSpecs R (yieldShadowService R) world.started input 0
            (shadowSpecs R input snapshot)).final (afterSettlement (yieldShadowService R)
              input.evidence (world.ledger.pending snapshot.completedAt) world.ledger)
      ∧ ∃ cycle, (runShadowCycle R world.started input world.ledger).2 = .ok cycle := by
    intro snapshot hcollected
    obtain ⟨hcycle, hok⟩ := runEvidenceCycle_final R world.started hcollected (hsettles snapshot)
    obtain ⟨hshadow, hshadowOk⟩ := runShadowCycle_final hok
    exact ⟨hshadow.trans hcycle, hshadowOk⟩
  refine ⟨fun snapshot hcollected => (hfinal snapshot hcollected).2, ?_, ?_⟩
  -- every discovered spec has an open cohort afterwards
  · intro snapshot hcollected spec hspec _
    obtain ⟨hnew, hcompleted⟩ := (hids.afterSettlement (yieldShadowService R) input.evidence
      snapshot.completedAt).fresh
    rw [(hfinal snapshot hcollected).1]
    exact hasOpenCohort_recordSpecs _ 0 _ hnew hcompleted spec hspec
  -- every pending trial that settles is completed afterwards
  · intro snapshot hcollected trial htrial _ hsettled
    obtain ⟨hnew, hcompleted⟩ := (hids.afterSettlement (yieldShadowService R) input.evidence
      snapshot.completedAt).fresh
    rw [(hfinal snapshot hcollected).1]
    obtain ⟨added, -, houtcomes, -⟩ := recordSpecs_final R (yieldShadowService R) world.started input
      (shadowSpecs R input snapshot) 0 _ hnew hcompleted
    rw [MechanismLedger.completed, houtcomes]
    refine mem_completed_afterSettlement.mpr (Or.inr ⟨trial, htrial, ?_, rfl⟩)
    obtain ⟨settlement, hsettlement⟩ := Option.isSome_iff_exists.mp hsettled
    have hsettle : (yieldShadowService R).settleTrial input.evidence trial = .ok (some settlement) :=
      congrArg Except.ok hsettlement
    rw [settledOutcome?, hsettle]
    rfl

/-- **Research only.** Wherever the cycles of a run stop, no capital reaches a research lane,
    and the next cycle that collects a snapshot records what these lanes found. -/
theorem researchOnly_of_run (R : MechanismRuntime) (schedule : List CycleAction) :
    NoResearchCapital R (run (cycleStep (runShadowCycle R)) .initial schedule).ledger
      ∧ ∀ input, ResearchRecorded R (run (cycleStep (runShadowCycle R)) .initial schedule) input :=
  ⟨(run_shadowCycle schedule).1.noResearchCapital, researchRecorded (run_shadowCycle schedule).2⟩

end ResearchOnly

/-- A cycle that sees one lending rate from a source with complete evidence classes but without
    complete economics. -/
def lendingInput : MechanismInput where
  collected := .ok ⟨"", 0, [], []⟩
  evidence := { StoredEvidence.empty with yieldObservations := [lendingRate 0] }
  coverage := ⟨[⟨"yield",
    [⟨true, true, false, ["yield_rate", "capacity", "exit_liquidity"], "morpho"⟩]⟩]⟩
  optionCapacity := []
  totalCapitalUsd := 100000

/-- The shadow service tries what the governed service leaves alone. -/
example : (shadowSpecs MechanismRuntime.sample lendingInput ⟨"", 0, [], []⟩).length = 1
    ∧ (governedSpecs MechanismRuntime.sample semanticEconomicsReady lendingInput
      ⟨"", 0, [], []⟩).length = 0 := by
  decide +kernel

end InefficiencyEngine.Mechanism
