import InefficiencyEngine.Lib.BoundedRead
import InefficiencyEngine.Lib.Numbers
import InefficiencyEngine.Portfolio.Settlement

namespace InefficiencyEngine.Portfolio

/-!
# Settlement of CEX-DEX trials

A CEX-DEX trial settles on the snapshots of qualified opportunities that are stored after its
source: the first one that decides it shows whether the same opportunity was still there after the
horizon.  `_cex_dex_verification` reads the first hundred snapshots observed from the source time
on, and a trial with more of them before its horizon is never decided.
-/

/-! ### The contract -/

/-- `CEX_DEX_SETTLEMENT_METHOD`. -/
def cexDexSettlementMethod : String := "verified_amount_specific_cex_dex_composite_capture"

/-- `candidate_id.startswith("cex-dex:")`. -/
def isCexDexId (candidateId : String) : Bool := decide ("cex-dex:".toList <+: candidateId.toList)

/-- `supported` of a CEX-DEX allocation. -/
def UnifiedPaperAllocation.isCexDexSupported (a : UnifiedPaperAllocation) : Bool :=
  a.exposureKind = .marketNeutral && isCexDexId a.candidateId && truthy a.evidenceId
    && a.venues.length = 2 && truthy a.instrumentSymbol
    && a.instrumentMarketKind = some MarketKind.spot.value && a.modeledHoldingHours.isSome
    && 0 < a.expectedProfitUsdPerDeployment && 0 < a.expectedReturnOnReservedCapital

/-- `CexDexAwareAllocationForwardCertificationService.trial_from_allocation`. It overrides the
    contract of the base service for its own family and leaves every other trial alone. -/
def cexDexTrialFromAllocation (upper : String → String) (trialId : Uuid)
    (a : UnifiedPaperAllocation) (planObservedAt : Instant) :
    Except Raised PaperAllocationTrial := do
  let trial ← trialFromAllocation upper trialId a planObservedAt
  if a.family ≠ "cex_dex" then return trial
  else if a.isCexDexSupported = false then
    return { trial with
      settlementSupported := false
      settlementMethod := none
      settlementBlocker := some
        ("CEX-DEX allocation lacks the exact route identity, qualification lineage, "
          ++ "or verification horizon required for canonical paper settlement") }
  else
    let sourceAt := a.sourceTime planObservedAt
    return { trial with
      sourceObservedAt := some sourceAt
      dueAt := some (sourceAt + timedeltaHours (a.modeledHoldingHours.getD 0))
      settlementSupported := true
      settlementMethod := some cexDexSettlementMethod
      settlementBlocker := none
      cohortKey := "cex_dex|" ++ a.candidateId }

/-! ### Verification -/

/-- `QualifiedOpportunitySnapshot`. -/
structure QualifiedOpportunitySnapshot where
  observedAt : Instant
  candidates : List UnifiedPaperCandidate
  familyFailures : List FamilyFailure

/-- What a snapshot says of a trial: when, the edge if there is one, and whether the opportunity
    survived. -/
structure CexDexVerification where
  maturedAt : Instant
  verificationNetEdgeBps : Option ℚ
  survived : Bool
  deriving DecidableEq

/-- `later_candidates`. -/
def QualifiedOpportunitySnapshot.laterCandidates (snapshot : QualifiedOpportunitySnapshot)
    (dueAt : Instant) : List UnifiedPaperCandidate :=
  snapshot.candidates.filter (fun item =>
    item.family = .cexDex && item.sourceObservedAt.any (fun time => dueAt ≤ time))

/-- The body of the loop of `_cex_dex_verification`: what a snapshot decides, if it does. -/
def verifySnapshot (trial : PaperAllocationTrial) (dueAt : Instant)
    (snapshot : QualifiedOpportunitySnapshot) : Option CexDexVerification :=
  if snapshot.familyFailures.any (fun row => row.family = "cex_dex") then none
  else
    let laterCandidates := snapshot.laterCandidates dueAt
    match laterCandidates.find? (fun item => item.candidateId = trial.candidateId) with
    | some exact =>
      some ⟨exact.sourceObservedAt.getD snapshot.observedAt,
        some (exact.expectedProfitUsdPerDeployment / exact.notionalUsdPerLeg * 10000), true⟩
    | none =>
      match (laterCandidates.filterMap UnifiedPaperCandidate.sourceObservedAt).min? with
      | some verifiedAt => some ⟨verifiedAt, none, false⟩
      | none =>
        if dueAt ≤ snapshot.observedAt then some ⟨snapshot.observedAt, none, false⟩ else none

/-- `trial.source_observed_at or trial.plan_observed_at`. -/
def PaperAllocationTrial.verificationStart (trial : PaperAllocationTrial) : Instant :=
  trial.sourceObservedAt.getD trial.planObservedAt

/-- `_cex_dex_verification` over the stored snapshots, in the order of their ids. -/
def cexDexVerification (trial : PaperAllocationTrial)
    (history : List QualifiedOpportunitySnapshot) : Option CexDexVerification :=
  match trial.dueAt with
  | none => none
  | some dueAt =>
    if isCexDexId trial.candidateId then
      ((history.filter (fun row => trial.verificationStart ≤ row.observedAt)).take 100).findSome?
        (verifySnapshot trial dueAt)
    else none

/-! ### The outcome -/

/-- `realized_profit` of a verification. -/
def realizedCexDexProfit (trial : PaperAllocationTrial) (verification : CexDexVerification) : ℚ :=
  let predictedEdgeBps : ℚ :=
    if 0 < (trial.notionalUsd : ℚ) then trial.predictedProfitUsd / trial.notionalUsd * 10000 else 0
  let realizedEdgeBps :=
    match verification.survived, verification.verificationNetEdgeBps with
    | true, some edge => min predictedEdgeBps edge
    | _, _ => 0
  trial.notionalUsd * realizedEdgeBps / 10000

/-- `_cex_dex_outcome`. The outcome of a trial whose two legs were verified again. -/
def cexDexOutcome (outcomeId : Uuid) (trial : PaperAllocationTrial)
    (verification : CexDexVerification) : PaperAllocationOutcome :=
  let realizedProfit := realizedCexDexProfit trial verification
  let realizedNet := realizedProfit / trial.capitalRequiredUsd
  { outcomeId := outcomeId
    trialId := trial.trialId
    candidateId := trial.candidateId
    family := trial.family
    strategy := trial.strategy
    asset := trial.asset
    maturedAt := verification.maturedAt
    dueAt := trial.dueAt.getD verification.maturedAt
    entryReferencePrice := none
    exitReferencePrice := none
    realizedGrossReturn := realizedNet
    realizedNetReturn := realizedNet
    realizedProfitUsd := realizedProfit
    realizedPricePnlUsd := none
    realizedFundingPnlUsd := 0
    modeledNonSlippageCostUsd := 0
    legOutcomes := []
    predictedProfitUsd := trial.predictedProfitUsd
    predictionErrorUsd := realizedProfit - trial.predictedProfitUsd
    profitCaptureRatio := profitCapture realizedProfit trial.predictedProfitUsd
    profitable := 0 < realizedProfit
    settlementMethod := cexDexSettlementMethod }

/-- `_settle_cex_dex`. -/
def settleCexDex (outcomeId : Uuid) (trial : PaperAllocationTrial)
    (history : List QualifiedOpportunitySnapshot) : Option PaperAllocationOutcome :=
  (cexDexVerification trial history).map (cexDexOutcome outcomeId trial)

/-! ### Supported trials -/

/-- A trial the CEX-DEX contract supports. -/
structure SupportedCexDex (trial : PaperAllocationTrial) : Prop where
  settlementMethod : trial.settlementMethod = some cexDexSettlementMethod
  candidateId : isCexDexId trial.candidateId = true
  dueAt : ∃ dueAt, trial.dueAt = some dueAt

/-- The other contracts settle by other methods. -/
theorem settlementMethod_ne_cexDex (a : UnifiedPaperAllocation) :
    a.settlementMethod ≠ some cexDexSettlementMethod := by
  rw [UnifiedPaperAllocation.settlementMethod]
  split
  · decide
  · split
    · decide
    · split
      · decide
      · exact (Option.some_ne_none _).symm

/-- **Supported trials.** A trial made from an allocation settles as a CEX-DEX trial only if it
    names a CEX-DEX candidate and has a horizon. -/
theorem supportedCexDex_of_trialFromAllocation {upper : String → String} {trialId : Uuid}
    {a : UnifiedPaperAllocation} {planObservedAt : Instant} {trial : PaperAllocationTrial}
    (h : cexDexTrialFromAllocation upper trialId a planObservedAt = .ok trial)
    (hmethod : trial.settlementMethod = some cexDexSettlementMethod) : SupportedCexDex trial := by
  obtain ⟨base, hbase, h⟩ := bind_eq_ok h
  have hbaseMethod : base.settlementMethod = a.settlementMethod :=
    (trialFromAllocation_eq_ok hbase).2.2.2.2.2.1
  have hcandidate : base.candidateId = a.candidateId := by
    unfold trialFromAllocation at hbase
    obtain ⟨legs, -, hbase⟩ := bind_eq_ok hbase
    obtain ⟨capital, -, hbase⟩ := bind_eq_ok hbase
    obtain ⟨notional, -, hbase⟩ := bind_eq_ok hbase
    obtain ⟨profit, -, hbase⟩ := bind_eq_ok hbase
    obtain ⟨onCapital, -, hbase⟩ := bind_eq_ok hbase
    injection hbase with hbase
    rw [← hbase]
  split at h
  · -- another family keeps the method of its own contract
    injection h with h
    rw [← h, hbaseMethod] at hmethod
    exact absurd hmethod (settlementMethod_ne_cexDex a)
  · split at h
    · injection h with h
      rw [← h] at hmethod
      exact absurd hmethod.symm (Option.some_ne_none _)
    · next hsupported =>
      injection h with h
      have hid : isCexDexId a.candidateId = true := by
        rw [Bool.not_eq_false, UnifiedPaperAllocation.isCexDexSupported] at hsupported
        simp only [Bool.and_eq_true] at hsupported
        exact hsupported.1.1.1.1.1.1.1.2
      rw [← h] at hmethod ⊢
      exact ⟨rfl, hcandidate ▸ hid, _, rfl⟩

/-! ### What decides a trial -/

/-- A snapshot decides a trial: no failure of its family, and a CEX-DEX candidate of it or the
    snapshot itself is from the horizon on. -/
def Decides (dueAt : Instant) (snapshot : QualifiedOpportunitySnapshot) : Prop :=
  (∀ row ∈ snapshot.familyFailures, row.family ≠ "cex_dex")
    ∧ ((∃ item ∈ snapshot.candidates, item.family = .cexDex
          ∧ ∃ time, item.sourceObservedAt = some time ∧ dueAt ≤ time)
        ∨ dueAt ≤ snapshot.observedAt)

section Verify

variable {trial : PaperAllocationTrial} {dueAt : Instant} {snapshot : QualifiedOpportunitySnapshot}

theorem mem_laterCandidates {item : UnifiedPaperCandidate} :
    item ∈ snapshot.laterCandidates dueAt
      ↔ item ∈ snapshot.candidates ∧ item.family = .cexDex
        ∧ ∃ time, item.sourceObservedAt = some time ∧ dueAt ≤ time := by
  rw [QualifiedOpportunitySnapshot.laterCandidates, List.mem_filter, Bool.and_eq_true,
    decide_eq_true_iff, Option.any_eq_true]
  simp only [decide_eq_true_eq]

/-- The later candidates have a time, unless there are none. -/
theorem min?_laterCandidates_eq_none :
    ((snapshot.laterCandidates dueAt).filterMap UnifiedPaperCandidate.sourceObservedAt).min? = none
      ↔ ∀ item, item ∉ snapshot.laterCandidates dueAt := by
  rw [List.min?_eq_none_iff, List.filterMap_eq_nil_iff]
  constructor
  · intro h item hitem
    obtain ⟨-, -, time, htime, -⟩ := mem_laterCandidates.mp hitem
    exact absurd (htime.symm.trans (h item hitem)) (Option.some_ne_none time)
  · exact fun h item hitem => absurd hitem (h item)

/-- **A verification is a decision.** A failed family hides the route, so nothing is decided;
    otherwise the candidate itself, a later candidate of the family or the end of the horizon
    decides. -/
theorem isSome_verifySnapshot : (verifySnapshot trial dueAt snapshot).isSome
    ↔ Decides dueAt snapshot := by
  have hfailures : snapshot.familyFailures.any (fun row => row.family = "cex_dex") = false
      ↔ ∀ row ∈ snapshot.familyFailures, row.family ≠ "cex_dex" := by
    rw [List.any_eq_false]
    simp only [decide_eq_true_eq, ne_eq]
  have hlater : (∃ item ∈ snapshot.candidates, item.family = .cexDex
      ∧ ∃ time, item.sourceObservedAt = some time ∧ dueAt ≤ time)
      ↔ ∃ item, item ∈ snapshot.laterCandidates dueAt :=
    exists_congr fun item => mem_laterCandidates.symm
  rw [Decides, ← hfailures, hlater, verifySnapshot]
  cases hfailed : snapshot.familyFailures.any (fun row => row.family = "cex_dex") with
  | true => simp
  | false =>
    rw [if_neg Bool.false_ne_true]
    cases hexact : (snapshot.laterCandidates dueAt).find?
        (fun item => item.candidateId = trial.candidateId) with
    -- the route is still listed from the horizon on
    | some exact =>
      simp only [hexact, Option.isSome_some, true_iff]
      exact ⟨trivial, .inl ⟨exact, List.mem_of_find?_eq_some hexact⟩⟩
    | none =>
      cases hmin : ((snapshot.laterCandidates dueAt).filterMap
          UnifiedPaperCandidate.sourceObservedAt).min? with
      -- another candidate was verified from the horizon on
      | some verifiedAt =>
        simp only [hexact, hmin, Option.isSome_some, true_iff]
        refine ⟨trivial, .inl ?_⟩
        by_contra hnone
        rw [min?_laterCandidates_eq_none.mpr (fun item hitem => hnone ⟨item, hitem⟩)] at hmin
        exact Option.some_ne_none _ hmin.symm
      -- no later candidate: the snapshot itself must be from the horizon on
      | none =>
        have hempty := min?_laterCandidates_eq_none.mp hmin
        by_cases hdue : dueAt ≤ snapshot.observedAt
        · simp [hexact, hmin, hdue]
        · simp [hexact, hmin, hdue, hempty]

/-- **Survival.** A verification that found the opportunity found it under the trial's candidate id,
    from the horizon on. -/
theorem exists_exact_of_survived {verification : CexDexVerification}
    (h : verifySnapshot trial dueAt snapshot = some verification)
    (hsurvived : verification.survived = true) :
    ∃ item ∈ snapshot.candidates, item.family = .cexDex ∧ item.candidateId = trial.candidateId
      ∧ ∃ time, item.sourceObservedAt = some time ∧ dueAt ≤ time := by
  rw [verifySnapshot] at h
  split at h
  · exact absurd h.symm (Option.some_ne_none _)
  · simp only at h
    split at h
    · next exact hexact =>
      obtain ⟨hmem, hfamily, htime⟩ := mem_laterCandidates.mp (List.mem_of_find?_eq_some hexact)
      exact ⟨exact, hmem, hfamily, by simpa using List.find?_some hexact, htime⟩
    · split at h
      · rw [← Option.some.inj h] at hsurvived
        exact absurd hsurvived Bool.false_ne_true
      · split at h
        · rw [← Option.some.inj h] at hsurvived
          exact absurd hsurvived Bool.false_ne_true
        · exact absurd h.symm (Option.some_ne_none _)

end Verify

/-! ### Profits -/

section Profits

variable (trial : PaperAllocationTrial) (verification : CexDexVerification)

/-- An edge that is cut to the predicted one is worth at most the predicted profit. -/
theorem mul_min_edge_le {notional profit : ℚ} (hnotional : 0 < notional) (edge : ℚ) :
    notional * min (profit / notional * 10000) edge / 10000 ≤ profit := by
  calc notional * min (profit / notional * 10000) edge / 10000
      ≤ notional * (profit / notional * 10000) / 10000 := by
        gcongr
        exact min_le_left _ _
    _ = profit := by field_simp

/-- The realized profit is not above the predicted one. -/
theorem realizedCexDexProfit_le :
    realizedCexDexProfit trial verification ≤ trial.predictedProfitUsd := by
  have hnotional : 0 < (trial.notionalUsd : ℚ) := trial.notionalUsd.2
  have hpredicted : (0 : ℚ) ≤ trial.predictedProfitUsd := trial.predictedProfitUsd.2
  rw [realizedCexDexProfit, if_pos hnotional]
  split
  · exact mul_min_edge_le hnotional _
  · rw [mul_zero, zero_div]
    exact hpredicted

/-- An opportunity that did not survive realizes nothing. -/
theorem survived_of_realizedCexDexProfit_ne_zero
    (h : realizedCexDexProfit trial verification ≠ 0) : verification.survived = true := by
  rw [realizedCexDexProfit] at h
  split at h
  · assumption
  · rw [mul_zero, zero_div] at h
    exact absurd rfl h

end Profits

/-! ### The first decision -/

/-- A snapshot that decides the trial, observed from its source time on. -/
def DecidesTrial (trial : PaperAllocationTrial) (snapshot : QualifiedOpportunitySnapshot) : Prop :=
  trial.verificationStart ≤ snapshot.observedAt
    ∧ ∃ dueAt, trial.dueAt = some dueAt ∧ Decides dueAt snapshot

/-- The same as a test. -/
def decidesTrial (trial : PaperAllocationTrial) (snapshot : QualifiedOpportunitySnapshot) : Bool :=
  trial.verificationStart ≤ snapshot.observedAt
    && trial.dueAt.any (fun dueAt => (verifySnapshot trial dueAt snapshot).isSome)

/-- The earliest snapshot that decides the trial. -/
def firstDecision (trial : PaperAllocationTrial) (history : List QualifiedOpportunitySnapshot) :
    Option QualifiedOpportunitySnapshot :=
  history.find? (decidesTrial trial)

/-- **The condition.** Fewer than a hundred snapshots observed from the source time on are stored
    before the earliest one that decides the trial, if there is one. -/
def FirstDecisionRead (trial : PaperAllocationTrial)
    (history : List QualifiedOpportunitySnapshot) : Prop :=
  (firstDecision trial history).isSome →
    (beforeFirst (decidesTrial trial) history).countP
      (fun row => trial.verificationStart ≤ row.observedAt) < 100

/-- A trial settles as its first decision has it. -/
structure SettledByFirst (trial : PaperAllocationTrial)
    (history : List QualifiedOpportunitySnapshot) : Prop where
  settles_iff : ∀ outcomeId, (settleCexDex outcomeId trial history).isSome
    ↔ ∃ snapshot ∈ history, DecidesTrial trial snapshot
  first : ∀ outcomeId snapshot, firstDecision trial history = some snapshot →
    settleCexDex outcomeId trial history = settleCexDex outcomeId trial [snapshot]
  stable : ∀ outcomeId outcome, settleCexDex outcomeId trial history = some outcome →
    ∀ later, settleCexDex outcomeId trial (history ++ later) = some outcome
  profit_le : ∀ outcomeId outcome, settleCexDex outcomeId trial history = some outcome →
    outcome.realizedProfitUsd ≤ trial.predictedProfitUsd
  exact_of_profit : ∀ outcomeId outcome, settleCexDex outcomeId trial history = some outcome →
    outcome.realizedProfitUsd ≠ 0 →
    ∃ snapshot, firstDecision trial history = some snapshot
      ∧ ∃ item ∈ snapshot.candidates, item.family = .cexDex ∧ item.candidateId = trial.candidateId
        ∧ ∃ time dueAt, item.sourceObservedAt = some time ∧ trial.dueAt = some dueAt
          ∧ dueAt ≤ time

section First

variable {trial : PaperAllocationTrial} {history : List QualifiedOpportunitySnapshot}

theorem decidesTrial_iff {snapshot : QualifiedOpportunitySnapshot} :
    decidesTrial trial snapshot = true ↔ DecidesTrial trial snapshot := by
  rw [decidesTrial, DecidesTrial, Bool.and_eq_true, decide_eq_true_iff, Option.any_eq_true]
  simp only [isSome_verifySnapshot]

/-- What the bounded read finds first, for a trial with this horizon. -/
def readDecision (trial : PaperAllocationTrial) (dueAt : Instant)
    (history : List QualifiedOpportunitySnapshot) : Option QualifiedOpportunitySnapshot :=
  ((history.filter (fun row => trial.verificationStart ≤ row.observedAt)).take 100).find?
    (fun row => (verifySnapshot trial dueAt row).isSome)

/-- A supported trial is verified by what the bounded read finds first. -/
theorem cexDexVerification_eq (hid : isCexDexId trial.candidateId = true) {dueAt : Instant}
    (hdue : trial.dueAt = some dueAt) (history : List QualifiedOpportunitySnapshot) :
    cexDexVerification trial history
      = (readDecision trial dueAt history).bind (verifySnapshot trial dueAt) := by
  rw [cexDexVerification, hdue]
  simp only [if_pos hid]
  rw [findSome?_eq_bind_find?, readDecision]

theorem isSome_settleCexDex (hid : isCexDexId trial.candidateId = true) {dueAt : Instant}
    (hdue : trial.dueAt = some dueAt) (outcomeId : Uuid) :
    (settleCexDex outcomeId trial history).isSome = (readDecision trial dueAt history).isSome := by
  rw [settleCexDex, cexDexVerification_eq hid hdue, Option.isSome_map]
  cases hread : readDecision trial dueAt history with
  | none => rfl
  | some snapshot =>
    exact List.find?_some (p := fun row => (verifySnapshot trial dueAt row).isSome) hread

/-- The two tests agree for a trial with this horizon. -/
theorem decidesTrial_eq {dueAt : Instant} (hdue : trial.dueAt = some dueAt) :
    decidesTrial trial = fun row => decide (trial.verificationStart ≤ row.observedAt)
      && (verifySnapshot trial dueAt row).isSome := by
  funext row
  rw [decidesTrial, hdue, Option.any_some]

/-- What the bounded read finds is the first decision. -/
theorem firstDecision_of_readDecision {dueAt : Instant} (hdue : trial.dueAt = some dueAt)
    {snapshot : QualifiedOpportunitySnapshot}
    (h : readDecision trial dueAt history = some snapshot) :
    firstDecision trial history = some snapshot := by
  rw [firstDecision, decidesTrial_eq hdue]
  exact find?_bounded_of_some h

/-- **The bounded read finds the first decision under the condition, and only then.** -/
theorem readDecision_eq_firstDecision_iff {dueAt : Instant} (hdue : trial.dueAt = some dueAt) :
    readDecision trial dueAt history = firstDecision trial history
      ↔ FirstDecisionRead trial history := by
  rw [readDecision, firstDecision, find?_bounded_eq_find?_iff, FirstDecisionRead, firstDecision]
  · constructor
    · intro h hsome
      obtain ⟨snapshot, hsnapshot⟩ := Option.isSome_iff_exists.mp hsome
      exact (h snapshot hsnapshot).2.2
    · intro h snapshot hsnapshot
      have htest := List.find?_some hsnapshot
      rw [decidesTrial_eq hdue, Bool.and_eq_true] at htest
      exact ⟨htest.1, htest.2, h (by rw [hsnapshot]; rfl)⟩
  · intro row hkey htest
    rw [decidesTrial_eq hdue, Bool.and_eq_true]
    exact ⟨hkey, htest⟩

/-- A snapshot that decides the trial is found when it is the only one stored. -/
theorem readDecision_singleton {dueAt : Instant} (hdue : trial.dueAt = some dueAt)
    {snapshot : QualifiedOpportunitySnapshot} (h : decidesTrial trial snapshot = true) :
    readDecision trial dueAt [snapshot] = some snapshot := by
  rw [decidesTrial_eq hdue, Bool.and_eq_true] at h
  simp [readDecision, of_decide_eq_true h.1, h.2]

/-- **CEX-DEX settlement.** A supported trial settles, over every history of stored snapshots, if
    and only if some snapshot from its source time on decides it, by the earliest such snapshot
    alone and whatever is stored later, with a realized profit that is not above the predicted one
    and is zero unless that snapshot still shows the opportunity, exactly when fewer than a hundred
    snapshots from the source time on are stored before the earliest one that decides it. -/
theorem settledByFirst_iff (hsupported : SupportedCexDex trial) :
    SettledByFirst trial history ↔ FirstDecisionRead trial history := by
  obtain ⟨-, hid, dueAt, hdue⟩ := hsupported
  have hexists : (firstDecision trial history).isSome
      ↔ ∃ snapshot ∈ history, DecidesTrial trial snapshot := by
    rw [firstDecision, List.find?_isSome]
    simp only [decidesTrial_iff]
  rw [← readDecision_eq_firstDecision_iff hdue]
  constructor
  · -- a decision that is there is found, and what is found is the first one
    intro h
    have hsettles := h.settles_iff 0
    rw [isSome_settleCexDex hid hdue, ← hexists] at hsettles
    cases hread : readDecision trial dueAt history with
    | some snapshot => exact (firstDecision_of_readDecision hdue hread).symm
    | none =>
      rw [hread] at hsettles
      exact (Option.not_isSome_iff_eq_none.mp fun hsome =>
        Bool.false_ne_true (hsettles.mpr hsome)).symm
  · intro hread
    have houtcome : ∀ outcomeId outcome, settleCexDex outcomeId trial history = some outcome →
        ∃ snapshot verification, readDecision trial dueAt history = some snapshot
          ∧ verifySnapshot trial dueAt snapshot = some verification
          ∧ outcome = cexDexOutcome outcomeId trial verification := by
      intro outcomeId outcome h
      rw [settleCexDex, cexDexVerification_eq hid hdue] at h
      obtain ⟨verification, hverification, rfl⟩ := Option.map_eq_some_iff.mp h
      obtain ⟨snapshot, hsnapshot, hverify⟩ := Option.bind_eq_some_iff.mp hverification
      exact ⟨snapshot, verification, hsnapshot, hverify, rfl⟩
    refine ⟨fun outcomeId => ?_, fun outcomeId snapshot hfirst => ?_,
      fun outcomeId outcome h later => ?_, fun outcomeId outcome h => ?_,
      fun outcomeId outcome h hprofit => ?_⟩
    · rw [isSome_settleCexDex hid hdue, hread, hexists]
    · have hsingle := readDecision_singleton hdue (List.find?_some hfirst)
      rw [settleCexDex, settleCexDex, cexDexVerification_eq hid hdue,
        cexDexVerification_eq hid hdue, hsingle, hread, hfirst]
    · obtain ⟨snapshot, verification, hsnapshot, hverify, rfl⟩ := houtcome outcomeId outcome h
      have hlater : readDecision trial dueAt (history ++ later) = some snapshot :=
        find?_bounded_append hsnapshot later
      rw [settleCexDex, cexDexVerification_eq hid hdue, hlater, Option.bind_some, hverify,
        Option.map_some]
    · obtain ⟨snapshot, verification, -, -, rfl⟩ := houtcome outcomeId outcome h
      exact realizedCexDexProfit_le trial verification
    · obtain ⟨snapshot, verification, hsnapshot, hverify, rfl⟩ := houtcome outcomeId outcome h
      obtain ⟨item, hitem, hfamily, hcandidate, time, htime, hle⟩ :=
        exists_exact_of_survived hverify
          (survived_of_realizedCexDexProfit_ne_zero trial verification hprofit)
      exact ⟨snapshot, hread ▸ hsnapshot, item, hitem, hfamily, hcandidate, time, dueAt, htime,
        hdue, hle⟩

end First

/-- A trial from time zero that is due after two hours. -/
def twoHourTrial : PaperAllocationTrial where
  trialId := 1
  planObservedAt := 0
  candidateId := "cex-dex:route"
  family := "cex_dex"
  strategy := "cex_dex_composite"
  asset := "ETH"
  venues := ["kraken", "uniswap"]
  exposureKind := .marketNeutral
  capitalRequiredUsd := 1000
  notionalUsd := 1000
  predictedProfitUsd := 5
  predictedReturnOnReservedCapital := 1 / 200
  sourceObservedAt := some 0
  dueAt := some 7200000000
  instrumentSymbol := some "ETH-USD"
  instrumentMarketKind := some "spot"
  entryReferencePrice := none
  modeledRoundtripCostReturn := none
  settlementLegs := []
  modeledNonSlippageCostBps := none
  modeledSafetyBufferBps := none
  capitalMultiple := none
  settlementSupported := true
  settlementMethod := some cexDexSettlementMethod
  settlementBlocker := none
  cohortKey := "cex_dex|cex-dex:route"

/-- A snapshot every minute, without a candidate. -/
def minuteSnapshots (count : ℕ) : List QualifiedOpportunitySnapshot :=
  (List.range count).map (fun i : ℕ => ⟨60000000 * (i : ℤ), [], []⟩)

/-- The only snapshot is an hour after the horizon, and so within the limit of the query. -/
theorem settledByFirst_iff_threeHours :
    SettledByFirst twoHourTrial [⟨10800000000, [], []⟩]
      ↔ FirstDecisionRead twoHourTrial [⟨10800000000, [], []⟩] :=
  settledByFirst_iff ⟨rfl, by decide, _, rfl⟩

/-- With a snapshot every minute the one at the horizon is the hundred and twenty-first, and the
    trial never settles. -/
theorem not_settledByFirst_minutes : ¬ SettledByFirst twoHourTrial (minuteSnapshots 121) := by
  intro h
  have hunsettled : (settleCexDex 0 twoHourTrial (minuteSnapshots 121)).isSome = false := by
    decide +kernel
  have hdecides : ∃ snapshot ∈ minuteSnapshots 121, DecidesTrial twoHourTrial snapshot := by
    refine ⟨⟨60000000 * (120 : ℤ), [], []⟩, ?_, by decide, 7200000000, rfl, ?_, .inr (by decide)⟩
    · exact List.mem_map.mpr ⟨120, List.mem_range.mpr (show 120 < 121 by decide), rfl⟩
    · exact fun _ hrow => absurd hrow List.not_mem_nil
  exact Bool.false_ne_true (hunsettled.symm.trans ((h.settles_iff 0).mpr hdecides))

end InefficiencyEngine.Portfolio
