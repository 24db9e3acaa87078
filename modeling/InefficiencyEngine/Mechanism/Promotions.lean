import InefficiencyEngine.Mechanism.Governed
import InefficiencyEngine.Mechanism.PendingWindow

namespace InefficiencyEngine.Mechanism

open Portfolio Durable Prog

/-!
# Where promoted candidates come from

A cycle promotes a candidate on the outcomes of its cohort.  The tables only grow, so the outcomes
a candidate was promoted on are the first ones its cohort has in any later ledger: a candidate can
be audited against the table at any time.

`Earned` is what a promotion needs of the returns of a cohort, `earned_of_candidateOf?` that
`_candidate_from_spec` asks for it.  `Audited` traces each candidate of a run back to a discovered
spec and to the outcomes it counts, and each outcome to its trial and to the evidence it was
settled on.
-/

/-! ### What a promotion needs -/

/-- A candidate is earned by the returns of its cohort: there are enough of them, they pass the
    gates of the stage they are at, and size and expectation are bounded by them and by the spec. -/
structure Earned (R : MechanismRuntime) (spec : MechanismTrialSpec) (returns : List ℚ)
    (candidate : MechanismPaperCandidate) : Prop where
  sampleCount : candidate.evidenceSampleCount = returns.length
  enough : 3 ≤ returns.length
  hitRate : 55 / 100 ≤ ((returns.filter (fun value => 0 < value)).length / returns.length : ℚ)
  drawdown : maxDrawdown returns ≤ 8 / 100
  incremental : returns.length < 30 → 0 < fmean returns
    ∧ candidate.expectedNetReturn ≤ fmean returns * (1 / 2)
    ∧ candidate.evidenceAllocationFraction = forwardEvidenceAllocationFraction returns.length
  full : 30 ≤ returns.length → (∃ lower, meanLower R returns = some lower ∧ 0 < lower
      ∧ candidate.expectedNetReturn ≤ lower)
    ∧ candidate.evidenceAllocationFraction = 1
  predicted : 0 < candidate.expectedNetReturn
    ∧ candidate.expectedNetReturn ≤ spec.predictedNetReturn
  capital : (candidate.capitalUsd : ℚ) = spec.capitalUsd * candidate.evidenceAllocationFraction
    ∧ candidate.expectedProfitUsd = candidate.capitalUsd * candidate.expectedNetReturn
  source : candidate.cohortKey = spec.cohortKey ∧ candidate.observedAt = spec.sourceObservedAt
    ∧ candidate.settlementPayload = spec.settlementPayload

/-- What `_candidate_from_spec` finds before it builds a candidate. A candidate is built only
    for a class that qualifies, on a positive anchor and with a positive expected return, and
    every figure of it comes from the spec and the qualification. -/
theorem candidateOf?_eq_some {R : MechanismRuntime} {q : MechanismQualification}
    {spec : MechanismTrialSpec} {candidate : MechanismPaperCandidate}
    (h : candidateOf? R q spec = some candidate) :
    (q.incrementalEligible = true ∨ q.fullyStatisticallyQualified = true)
      ∧ ∃ anchor, (if q.fullyStatisticallyQualified then q.meanNetReturnCiLower
            else q.meanNetReturn) = some anchor ∧ 0 < anchor
        ∧ candidate.expectedNetReturn = min spec.predictedNetReturn
            (if q.fullyStatisticallyQualified then anchor else anchor * (1 / 2))
        ∧ 0 < candidate.expectedNetReturn
        ∧ (candidate.capitalUsd : ℚ) = spec.capitalUsd * q.allocationFraction
        ∧ candidate.evidenceAllocationFraction = q.allocationFraction
        ∧ candidate.evidenceSampleCount = q.sampleCount
        ∧ candidate.expectedProfitUsd = candidate.capitalUsd * candidate.expectedNetReturn
        ∧ candidate.cohortKey = spec.cohortKey ∧ candidate.observedAt = spec.sourceObservedAt
        ∧ candidate.settlementPayload = spec.settlementPayload := by
  unfold candidateOf? at h
  dsimp only at h
  split at h
  · cases h
  -- the checks in the order of the source: the fraction, the anchor, its sign and the return
  · rename_i hfraction
    obtain ⟨-, hgate⟩ := not_or.mp hfraction
    split at h
    · cases h
    · rename_i anchor hanchor
      generalize hmin : min spec.predictedNetReturn (if q.fullyStatisticallyQualified = true
        then anchor else anchor * (1 / 2)) = expected at h
      split at h
      · cases h
      · rename_i hpos
        split at h
        · cases h
        · rename_i hexpected
          split at h
          · injection h with h
            subst h
            exact ⟨not_not.mp hgate, anchor, hanchor, not_le.mp hpos, hmin.symm,
              not_le.mp hexpected, rfl, rfl, rfl, rfl, rfl, rfl, rfl⟩
          · cases h

/-- A blocker that is not listed does not apply. -/
theorem not_of_noBlocker {p : Prop} [Decidable p] {text : String}
    (h : (if p then [text] else []) = []) : ¬ p := by
  intro hp
  rw [if_pos hp] at h
  cases h

/-- The gates of a qualification that is incremental. -/
theorem incremental_qualificationOf {R : MechanismRuntime} {short : String} {extra : List String}
    {returns : List ℚ} (h : (qualificationOf R short extra returns).incrementalEligible = true) :
    3 ≤ returns.length ∧ returns.length < 30 ∧ 0 < fmean returns
      ∧ 55 / 100 ≤ ((returns.filter (fun value => 0 < value)).length / returns.length : ℚ)
      ∧ maxDrawdown returns ≤ 8 / 100 := by
  unfold qualificationOf at h
  simp only [Bool.and_eq_true, decide_eq_true_eq, List.isEmpty_iff, List.append_eq_nil_iff] at h
  obtain ⟨⟨⟨henough, hshort⟩, ⟨⟨⟨-, hmean⟩, hhit⟩, hdrawdown⟩⟩, -⟩ := h
  have hne : returns ≠ [] := by
    rintro rfl
    simp [minForwardStart] at henough
  rw [if_neg hne] at hmean hhit hdrawdown
  exact ⟨henough, hshort, not_le.mp fun hle => not_of_noBlocker hmean (decide_eq_true hle),
    not_lt.mp fun hlt => not_of_noBlocker hhit (decide_eq_true hlt),
    not_lt.mp fun hlt => not_of_noBlocker hdrawdown (decide_eq_true hlt)⟩

/-- The gates of a qualification that is full. -/
theorem full_qualificationOf {R : MechanismRuntime} {short : String} {extra : List String}
    {returns : List ℚ}
    (h : (qualificationOf R short extra returns).fullyStatisticallyQualified = true) :
    30 ≤ returns.length ∧ (∃ lower, meanLower R returns = some lower ∧ 0 < lower)
      ∧ 55 / 100 ≤ ((returns.filter (fun value => 0 < value)).length / returns.length : ℚ)
      ∧ maxDrawdown returns ≤ 8 / 100 := by
  unfold qualificationOf at h
  simp only [Bool.and_eq_true, decide_eq_true_eq] at h
  obtain ⟨⟨⟨henough, hlower⟩, hhit⟩, hdrawdown⟩ := h
  have hne : ¬ returns.isEmpty = true := by
    rw [List.isEmpty_iff]
    rintro rfl
    simp [fullForwardTarget] at henough
  rw [if_neg hne] at hhit hdrawdown
  refine ⟨henough, ?_, of_decide_eq_true hhit, of_decide_eq_true hdrawdown⟩
  rcases hfound : meanLower R returns with _ | lower
  · rw [hfound] at hlower
    cases hlower
  · rw [hfound] at hlower
    exact ⟨lower, rfl, by simpa using hlower⟩

/-- A candidate of a qualification by returns is earned by them. The anchor of the expected
    return is the lower bound of a fully qualified class and the mean of an incrementally
    eligible one, and the capital follows the fraction of each. -/
theorem earned_of_candidateOf? {R : MechanismRuntime} {short : String} {extra : List String}
    {returns : List ℚ} {spec : MechanismTrialSpec} {candidate : MechanismPaperCandidate}
    (h : candidateOf? R (qualificationOf R short extra returns) spec = some candidate) :
    Earned R spec returns candidate := by
  obtain ⟨hgate, anchor, hanchor, -, hexpected, hpos, hcapital, hfraction, hcount, hprofit,
    hsource⟩ := candidateOf?_eq_some h
  have hpredicted : candidate.expectedNetReturn ≤ spec.predictedNetReturn := by
    rw [hexpected]
    exact min_le_left _ _
  have hallocation : (qualificationOf R short extra returns).allocationFraction
      = if (qualificationOf R short extra returns).fullyStatisticallyQualified then 1
        else if (qualificationOf R short extra returns).incrementalEligible then
          forwardEvidenceAllocationFraction returns.length else 0 := rfl
  have hcapital' : (candidate.capitalUsd : ℚ)
      = spec.capitalUsd * candidate.evidenceAllocationFraction := by
    rw [hcapital, hfraction]
  -- fully qualified: the whole capital, on the lower bound
  by_cases hfull : (qualificationOf R short extra returns).fullyStatisticallyQualified = true
  · obtain ⟨henough, ⟨lower, hlower, hlowerpos⟩, hhit, hdrawdown⟩ := full_qualificationOf hfull
    rw [if_pos hfull] at hanchor hexpected hallocation
    have heq : anchor = lower := Option.some.inj (hanchor.symm.trans hlower)
    refine ⟨hcount, by omega, hhit, hdrawdown, fun hlt => by omega, fun _ => ⟨⟨lower, hlower,
      hlowerpos, ?_⟩, by rw [hfraction, hallocation]⟩, ⟨hpos, hpredicted⟩, ⟨hcapital', hprofit⟩,
      hsource⟩
    rw [hexpected, heq]
    exact min_le_right _ _
  -- incrementally eligible: a fraction of the capital, on the mean
  · have hincremental := hgate.resolve_right hfull
    obtain ⟨henough, hshort, hmean, hhit, hdrawdown⟩ := incremental_qualificationOf hincremental
    rw [if_neg hfull] at hanchor hexpected hallocation
    rw [if_pos hincremental] at hallocation
    have hne : ¬ returns.isEmpty = true := by
      rcases returns with _ | ⟨value, rest⟩
      · simp at henough
      · simp
    have heq : anchor = fmean returns := by
      have hmeanOf : (qualificationOf R short extra returns).meanNetReturn
          = if returns.isEmpty then none else some (fmean returns) := rfl
      rw [hmeanOf, if_neg hne] at hanchor
      exact (Option.some.inj hanchor).symm
    refine ⟨hcount, henough, hhit, hdrawdown, fun _ => ⟨hmean, ?_, by rw [hfraction, hallocation]⟩,
      fun hle => by omega, ⟨hpos, hpredicted⟩, ⟨hcapital', hprofit⟩, hsource⟩
    rw [hexpected, heq]
    exact min_le_right _ _

/-! ### The classes of the service -/

/-- The classes of the mechanism service. -/
inductive MechanismClass
  | base
  | governed
  | yieldShadow

/-- The service of a class. -/
def MechanismClass.service (R : MechanismRuntime) : MechanismClass → MechanismService
  | .base => baseService R
  | .governed => governedService R
  | .yieldShadow => yieldShadowService R

/-- Which outcomes a class counts for the candidate of a spec: those of its cohort, and of a
    liquidation cohort only the allocation-grade ones unless the class is the base class. -/
def MechanismClass.counts (c : MechanismClass) (spec : MechanismTrialSpec)
    (o : MechanismForwardOutcome) : Bool :=
  match c with
  | .base => o.cohortKey = spec.cohortKey
  | _ =>
    if spec.mechanismId ≠ .liquidationDistress then o.cohortKey = spec.cohortKey
    else liquidationAllocationGrade o && o.cohortKey = spec.cohortKey
      && o.mechanismId = .liquidationDistress

/-- The candidate a governed class finds is one of a qualification by the counted returns. -/
theorem exists_governedQualification {R : MechanismRuntime} {c : MechanismClass} (hc : c ≠ .base)
    (ledger : MechanismLedger) (spec : MechanismTrialSpec) :
    ∃ short extra, governedQualification R ledger spec.cohortKey spec.mechanismId
      = qualificationOf R short extra ((ledger.outcomes.filter (c.counts spec)).map
          MechanismForwardOutcome.realizedNetReturn) := by
  unfold governedQualification
  -- only the liquidation lane counts by its own rule
  by_cases hlane : spec.mechanismId ≠ .liquidationDistress
  · have hcounts : c.counts spec = fun o => decide (o.cohortKey = spec.cohortKey) := by
      funext o
      cases c with
      | base => exact absurd rfl hc
      | governed => exact if_pos hlane
      | yieldShadow => exact if_pos hlane
    rw [if_pos hlane, hcounts]
    exact ⟨_, _, rfl⟩
  · have hcounts : c.counts spec = fun o => liquidationAllocationGrade o
        && decide (o.cohortKey = spec.cohortKey) && decide (o.mechanismId = .liquidationDistress) := by
      funext o
      cases c with
      | base => exact absurd rfl hc
      | governed => exact if_neg hlane
      | yieldShadow => exact if_neg hlane
    -- the filter of the lane after that of the grade is the one filter of the class
    have hreturns : liquidationReturns ledger spec.cohortKey
        = (ledger.outcomes.filter (c.counts spec)).map
            MechanismForwardOutcome.realizedNetReturn := by
      rw [hcounts, liquidationReturns, MechanismLedger.laneOutcomes, List.filter_filter,
        List.filter_filter]
    rw [if_neg hlane]
    dsimp only
    rw [hreturns]
    exact ⟨_, _, rfl⟩

/-- **Promotion.** The candidate a service finds for a spec is earned by the outcomes it counts. -/
theorem earned_of_candidateFromSpec? {R : MechanismRuntime} {c : MechanismClass}
    {input : MechanismInput} {ledger : MechanismLedger} {spec : MechanismTrialSpec}
    {candidate : MechanismPaperCandidate}
    (h : (c.service R).candidateFromSpec? input ledger spec = some candidate) :
    Earned R spec ((ledger.outcomes.filter (c.counts spec)).map
      MechanismForwardOutcome.realizedNetReturn) candidate := by
  have hgoverned : ∀ {qualify : MechanismLedger → String → MechanismId → MechanismQualification},
      c ≠ .base →
      qualify ledger spec.cohortKey spec.mechanismId
        = governedQualification R ledger spec.cohortKey spec.mechanismId →
      governedCandidate? R qualify input ledger spec = some candidate →
      Earned R spec ((ledger.outcomes.filter (c.counts spec)).map
        MechanismForwardOutcome.realizedNetReturn) candidate := by
    intro qualify hc hqualify hfound
    unfold governedCandidate? at hfound
    split at hfound
    · obtain ⟨short, extra, heq⟩ := exists_governedQualification (R := R) hc ledger spec
      rw [hqualify, heq] at hfound
      exact earned_of_candidateOf? hfound
    · cases hfound
  cases c with
  | base => exact earned_of_candidateOf? h
  | governed => exact hgoverned (fun heq => by cases heq) rfl h
  | yieldShadow =>
    replace h : shadowCandidate? R input ledger spec = some candidate := h
    unfold shadowCandidate? at h
    split at h
    · cases h
    · unfold governedCandidate? at h
      -- a yield spec that passes its gate is qualified without a fraction
      by_cases hyield : spec.mechanismId = .yield
      · exfalso
        split at h
        · rw [shadowQualification, if_neg (not_not.mpr hyield)] at h
          exact absurd (of_candidateOf? h).2.2.2 (lt_irrefl _)
        · cases h
      · exact hgoverned (fun heq => by cases heq)
          (by rw [shadowQualification, if_pos hyield]) h

/-! ### Every run -/

/-- What traces a ledger back to the cycles that wrote it: each outcome to its trial and the
    evidence of a cycle after its horizon, each candidate to a discovered spec and to the outcomes,
    of different trials, that earned it. -/
structure Audited (R : MechanismRuntime) (c : MechanismClass) (schedule : List CycleAction)
    (ledger : MechanismLedger) : Prop where
  outcomes : ∀ o ∈ ledger.outcomes, ∃ trial ∈ ledger.trials, ∃ action ∈ schedule, ∃ snapshot,
    action.input.collected = .ok snapshot ∧ trial.dueAt ≤ snapshot.completedAt
      ∧ settledOutcome? (c.service R) action.input.evidence trial = some o
  candidates : ∀ candidate ∈ ledger.candidates, ∃ action ∈ schedule, ∃ snapshot,
    action.input.collected = .ok snapshot
      ∧ ∃ spec ∈ (c.service R).discoverSpecs action.input snapshot,
        ∃ sample, sample <+: ledger.outcomes.filter (c.counts spec)
          ∧ (sample.map MechanismForwardOutcome.trialId).Nodup
          ∧ Earned R spec (sample.map MechanismForwardOutcome.realizedNetReturn) candidate

namespace Audited

variable {R : MechanismRuntime} {c : MechanismClass} {schedule : List CycleAction}
variable {ledger : MechanismLedger}

/-- A further row leaves what is traced, if it is traced itself. -/
theorem commit (h : Audited R c schedule ledger) {w : MechanismWrite}
    (houtcome : ∀ o, w = .outcome o → ∃ trial ∈ ledger.trials, ∃ action ∈ schedule, ∃ snapshot,
      action.input.collected = .ok snapshot ∧ trial.dueAt ≤ snapshot.completedAt
        ∧ settledOutcome? (c.service R) action.input.evidence trial = some o)
    (hcandidate : ∀ candidate, w = .candidate candidate → ∃ action ∈ schedule, ∃ snapshot,
      action.input.collected = .ok snapshot
        ∧ ∃ spec ∈ (c.service R).discoverSpecs action.input snapshot,
          ∃ sample, sample <+: ledger.outcomes.filter (c.counts spec)
            ∧ (sample.map MechanismForwardOutcome.trialId).Nodup
            ∧ Earned R spec (sample.map MechanismForwardOutcome.realizedNetReturn) candidate) :
    Audited R c schedule (ledger.commit w) := by
  have hextends := ledger.extends_commit w
  refine ⟨fun o ho => ?_, fun candidate hmem => ?_⟩
  · have htraced : ∃ trial ∈ ledger.trials, ∃ action ∈ schedule, ∃ snapshot,
        action.input.collected = .ok snapshot ∧ trial.dueAt ≤ snapshot.completedAt
          ∧ settledOutcome? (c.service R) action.input.evidence trial = some o := by
      rcases (MechanismLedger.of_mem_commit w).2.1 o ho with hold | hnew
      · exact h.outcomes o hold
      · exact houtcome o hnew
    obtain ⟨trial, htrial, hrest⟩ := htraced
    exact ⟨trial, hextends.trials.subset htrial, hrest⟩
  · have htraced : ∃ action ∈ schedule, ∃ snapshot, action.input.collected = .ok snapshot
        ∧ ∃ spec ∈ (c.service R).discoverSpecs action.input snapshot,
          ∃ sample, sample <+: ledger.outcomes.filter (c.counts spec)
            ∧ (sample.map MechanismForwardOutcome.trialId).Nodup
            ∧ Earned R spec (sample.map MechanismForwardOutcome.realizedNetReturn) candidate := by
      rcases (MechanismLedger.of_mem_commit w).2.2 candidate hmem with hold | hnew
      · exact h.candidates candidate hold
      · exact hcandidate candidate hnew
    -- the sample is still the beginning of what is counted
    obtain ⟨action, haction, snapshot, hcollected, spec, hspec, sample, hpre, hrest⟩ := htraced
    exact ⟨action, haction, snapshot, hcollected, spec, hspec, sample,
      hpre.trans (hextends.outcomes.filter _), hrest⟩

/-- A cycle of the schedule leaves a traced ledger, wherever it stops. -/
theorem cycle (h : Audited R c schedule ledger) (hserved : CohortsServed ledger)
    {action : CycleAction} (haction : action ∈ schedule) (runIndex : ℕ) :
    Audited R c schedule (commitAll ledger
      ((runEvidenceCycle R (c.service R) runIndex action.input ledger).1.take action.writes)) := by
  have hcycle := @cycle_keeps R (c.service R) runIndex action.input
    (fun s => Audited R c schedule s ∧ CohortsServed s) ledger ?_ ?_ ?_ ⟨h, hserved⟩ action.writes
  · exact hcycle.1.1
  · intro snapshot hcollected trial hmem settlement hsettled s hs hextends
    obtain ⟨htrial, hdue, -⟩ := MechanismLedger.of_mem_pending hmem
    have hfed := ((MechanismLedger.exists_mem_pending_iff hserved.idNodup htrial).mp ⟨_, hmem⟩).2
    rw [← MechanismLedger.starved_of_longer hextends.trials htrial] at hfed
    have hstored := hextends.trials.subset htrial
    refine ⟨hs.1.commit (fun o ho => ?_) (fun candidate hnew => by cases hnew),
      hs.2.outcome hstored hfed ((c.service R).outcome_trialId trial settlement)
        ((c.service R).outcome_cohortKey trial settlement)⟩
    injection ho with ho
    exact ⟨trial, hstored, action, haction, snapshot, hcollected, hdue, by
      rw [settledOutcome?, hsettled, ← ho]⟩
  · intro snapshot _ spec _ i s hs hclosed
    exact ⟨hs.1.commit (fun o ho => by cases ho) (fun candidate hnew => by cases hnew),
      hs.2.trial hclosed⟩
  · intro snapshot hcollected spec hspec s₀ candidate hfound s hs hextends
    refine ⟨hs.1.commit (fun o ho => by cases ho) (fun row hrow => ?_), hs.2.candidate candidate⟩
    injection hrow with hrow
    subst hrow
    -- what was counted is the beginning of what is counted now
    refine ⟨action, haction, snapshot, hcollected, spec, hspec,
      s₀.outcomes.filter (c.counts spec), hextends.outcomes.filter _, ?_,
      earned_of_candidateFromSpec? hfound⟩
    exact hs.2.completedNodup.sublist
      ((List.filter_sublist.trans hextends.outcomes.sublist).map _)

end Audited

/-- Every run of cycles leaves a traced ledger. -/
theorem Audited.run (R : MechanismRuntime) (c : MechanismClass) (schedule : List CycleAction) :
    Audited R c schedule
      (run (cycleStep (runEvidenceCycle R (c.service R))) .initial schedule).ledger := by
  have hempty : Audited R c schedule MechanismWorld.initial.ledger :=
    ⟨fun _ ho => (List.not_mem_nil ho).elim, fun _ hmem => (List.not_mem_nil hmem).elim⟩
  refine (run_invariant (I := fun world : MechanismWorld => Audited R c schedule world.ledger
    ∧ ServedAfter MechanismWorld.initial.ledger world.ledger)
    (C := fun _ action => action ∈ schedule) (fun world action hworld haction => ?_)
    ⟨hempty, CohortsServed.initial, .refl _⟩ (Meets.of_mem fun action haction _ => haction)).1
  exact ⟨hworld.1.cycle hworld.2.1 haction world.started, hworld.2.cycle action.writes⟩

/-- **Promotions can be audited.** In every run of cycles of each class, each cut off anywhere:
    every stored candidate comes from a discovered spec and is earned by the first outcomes its
    cohort counts in the table, which belong to different trials; and every stored outcome is what
    its trial settles to on the evidence of a cycle after its horizon. -/
theorem audited_of_run (R : MechanismRuntime) (schedule : List CycleAction) :
    Audited R .base schedule (run (cycleStep (runEvidenceCycle R (baseService R))) .initial
        schedule).ledger
      ∧ Audited R .governed schedule (run (cycleStep (runEvidenceCycle R (governedService R)))
        .initial schedule).ledger
      ∧ Audited R .yieldShadow schedule (run (cycleStep (runEvidenceCycle R
        (yieldShadowService R))) .initial schedule).ledger :=
  ⟨Audited.run R .base schedule, Audited.run R .governed schedule,
    Audited.run R .yieldShadow schedule⟩

end InefficiencyEngine.Mechanism
