import InefficiencyEngine.Mechanism.Executable
import InefficiencyEngine.Mechanism.Sample
import InefficiencyEngine.Portfolio.Settlement

namespace InefficiencyEngine.Mechanism

open Portfolio

/-!
# Positions on mechanism candidates

A promoted candidate goes to the allocator as a proxy, whose capital is capped by the paper
cash at hand (`promotedProxy?`); the position's trial is built from the allocation and the
stored candidate (`mechanismTrial`), and its settlement is recomputed from the stored candidate
alone (`settleMechanism`).

`settledOnOwnSize_iff` says when that settlement is the one the position's own size has: only
the capacity check of a yield and the transfer cost of a location depend on the size.
-/

section Position

variable (R : MechanismRuntime) (evidence : StoredEvidence)

/-! ### From a candidate to a trial -/

/-- The proxy of a candidate in `promoted_proxy_candidates`. The capital is capped at a
    twentieth of the portfolio, and a candidate without an expected return gets no proxy. -/
def promotedProxy? (totalCapitalUsd : Positive) (item : MechanismPaperCandidate) :
    Option UnifiedPaperCandidate :=
  let capital : Positive := ⟨min item.capitalUsd (totalCapitalUsd * (5 / 100)),
    lt_min item.capitalUsd.2 (mul_pos totalCapitalUsd.2 (by norm_num))⟩
  if h : item.expectedNetReturn ≤ 0 then none
  else
    have hreturn : 0 ≤ item.expectedNetReturn := (not_le.mp h).le
    some {
      candidateId := item.candidateId
      family := .alpha
      strategy := "mechanism:" ++ item.mechanismId.value ++ ":" ++ R.stableKey item.cohortKey
      asset := item.asset
      venues := item.venues
      capitalRequiredUsd := capital
      notionalUsdPerLeg := capital
      expectedProfitUsdPerDeployment :=
        ⟨capital * item.expectedNetReturn, mul_nonneg capital.2.le hreturn⟩
      expectedReturnOnReservedCapital := ⟨item.expectedNetReturn, hreturn⟩
      modeledHoldingHours := some item.holdingHours
      sourceReturnMetric := "mechanism_forward_evidence_net_return"
      sourceReturnValue := item.expectedNetReturn
      exposureKind := .marketNeutral
      sourceObservedAt := some item.observedAt
      instrumentSymbol := some item.asset
      instrumentMarketKind := some "mechanism"
      entryReferencePrice := some 1
      modeledRoundtripCostReturn := some 0
      settlementLegs := []
      modeledNonSlippageCostBps := none
      modeledSafetyBufferBps := none
      capitalMultiple := none
      conflictKeys := item.conflictKeys
      evidenceId := some item.candidateId
      opportunityId := some item.mechanismId.value }

/-- The family an allocation made from a proxy gets in the plan. -/
def mechanismAllocation (item : UnifiedPaperCandidate) : UnifiedPaperAllocation :=
  { item.toAllocation with family := "mechanism" }

/-- `AllLaneAllocationForwardCertificationService.trial_from_allocation` of an allocation of the
    mechanism family whose candidate is stored. The trial has no legs and no costs of its own:
    it is settled by its lane, on the due time of the candidate. -/
def mechanismTrial (candidate : MechanismPaperCandidate) (trialId : Uuid)
    (allocation : UnifiedPaperAllocation) (planObservedAt : Instant) :
    Except Raised PaperAllocationTrial := do
  let capital ← positive "PaperAllocationTrial" "capital_required_usd" allocation.capitalRequiredUsd
  let notional ← positive "PaperAllocationTrial" "notional_usd" allocation.notionalUsdPerLeg
  let profit ← nonNegative "PaperAllocationTrial" "predicted_profit_usd"
    allocation.expectedProfitUsdPerDeployment
  let onCapital ← nonNegative "PaperAllocationTrial" "predicted_return_on_reserved_capital"
    allocation.expectedReturnOnReservedCapital
  return {
    trialId := trialId
    planObservedAt := planObservedAt
    candidateId := allocation.candidateId
    family := "mechanism"
    strategy := allocation.strategy
    asset := allocation.asset
    venues := allocation.venues
    exposureKind := allocation.exposureKind
    capitalRequiredUsd := capital
    notionalUsd := notional
    predictedProfitUsd := profit
    predictedReturnOnReservedCapital := onCapital
    sourceObservedAt := some candidate.observedAt
    dueAt := some candidate.dueAt
    instrumentSymbol := some (orText allocation.instrumentSymbol candidate.asset)
    instrumentMarketKind := some "mechanism"
    entryReferencePrice := some 1
    modeledRoundtripCostReturn := some 0
    settlementLegs := []
    modeledNonSlippageCostBps := none
    modeledSafetyBufferBps := none
    capitalMultiple := none
    settlementSupported := true
    settlementMethod := some ("mechanism:" ++ candidate.mechanismId.value)
    settlementBlocker := none
    cohortKey := "mechanism|" ++ candidate.cohortKey }

/-- `trial_from_allocation`: other families as before, and an allocation whose candidate is
    not stored gets a trial that nothing settles. -/
def trialFromMechanismAllocation (ledger : MechanismLedger) (trialId : Uuid)
    (allocation : UnifiedPaperAllocation) (planObservedAt : Instant) :
    Except Raised PaperAllocationTrial :=
  if allocation.family ≠ "mechanism" then
    trialFromAllocation R.upper trialId allocation planObservedAt
  else
    match ledger.candidate? allocation.candidateId with
    | some candidate => mechanismTrial candidate trialId allocation planObservedAt
    | none => do
      let base ← trialFromAllocation R.upper trialId { allocation with family := "alpha" }
        planObservedAt
      return { base with
        family := "mechanism"
        settlementSupported := false
        settlementMethod := none
        settlementBlocker := some "durable mechanism candidate lineage is unavailable" }

/-! ### Settling a position -/

/-- The outcome of a trial that settled with a result. -/
def mechanismOutcome (trial : PaperAllocationTrial) (outcomeId : Uuid)
    (result : MechanismSettlementResult) : PaperAllocationOutcome :=
  let realizedProfit : ℚ := trial.capitalRequiredUsd * result.netReturn
  { outcomeId := outcomeId
    trialId := trial.trialId
    candidateId := trial.candidateId
    family := "mechanism"
    strategy := trial.strategy
    asset := trial.asset
    maturedAt := result.maturedAt
    dueAt := trial.dueAt.getD result.maturedAt
    entryReferencePrice := none
    exitReferencePrice := none
    realizedGrossReturn := result.grossReturn
    realizedNetReturn := result.netReturn
    realizedProfitUsd := realizedProfit
    realizedPricePnlUsd := none
    realizedFundingPnlUsd := 0
    modeledNonSlippageCostUsd := 0
    legOutcomes := []
    predictedProfitUsd := trial.predictedProfitUsd
    predictionErrorUsd := realizedProfit - trial.predictedProfitUsd
    profitCaptureRatio := profitCapture realizedProfit trial.predictedProfitUsd
    profitable := 0 < realizedProfit
    settlementMethod := result.settlementMethod }

/-- `_settle_mechanism`. -/
def settleMechanism (ledger : MechanismLedger) (canonicalId : String → Uuid) (outcomeId : Uuid)
    (trial : PaperAllocationTrial) : Option PaperAllocationOutcome :=
  (settleCanonicalCandidate R evidence ledger canonicalId trial.candidateId trial.dueAt).map
    (mechanismOutcome trial outcomeId)

/-! ### The position's own size -/

/-- The trial of a candidate's window and payload with another capital. -/
def MechanismPaperCandidate.sizedTrial (candidate : MechanismPaperCandidate) (trialId : Uuid)
    (capital : Positive) : MechanismForwardTrial :=
  { candidate.canonicalTrial trialId none with capitalUsd := capital }

/-- A position settles as `settle_trial` settles a trial of the position's own capital. -/
def SettledOnOwnSize (ledger : MechanismLedger) (canonicalId : String → Uuid) (outcomeId : Uuid)
    (candidate : MechanismPaperCandidate) (trial : PaperAllocationTrial) : Prop :=
  settleMechanism R evidence ledger canonicalId outcomeId trial
    = (settleExecutable R evidence (candidate.sizedTrial (canonicalId trial.candidateId)
        trial.capitalRequiredUsd)).map (mechanismOutcome trial outcomeId)

/-- The settlement of a candidate does not depend on which of two sizes is taken: a yield's
    exit capacity does not lie between them (or the accrual equals the cost of a failed exit),
    and a location's transfer is free once its window has passed. -/
def SizeImmaterial (candidate : MechanismPaperCandidate) (trialId : Uuid) (capital : Positive) :
    Prop :=
  let trial := candidate.canonicalTrial trialId none
  match candidate.settlementPayload with
  | .yield payload => ∀ exit, nextYieldObservation R evidence trial payload = some exit →
      ((capital : ℚ) ≤ exit.capacityUsd → (candidate.capitalUsd : ℚ) ≤ exit.capacityUsd)
        ∨ yieldAccrual trial payload exit = -payload.entryExitCostBps / 10000
  | .location payload => ∀ latest, evidence.marketQuotes.getLast? = some latest →
      trial.dueAt ≤ latest.observedAt →
      payload.transferCostUsd = 0 ∨ (candidate.capitalUsd : ℚ) = capital
  | _ => True

variable {R evidence}

/-- A proxy takes the capital of its candidate, up to a twentieth of the paper cash. -/
theorem promotedProxy?_capital {totalCapitalUsd : Positive} {item : MechanismPaperCandidate}
    {proxy : UnifiedPaperCandidate} (h : promotedProxy? R totalCapitalUsd item = some proxy) :
    proxy.candidateId = item.candidateId
      ∧ (proxy.capitalRequiredUsd : ℚ) = min (item.capitalUsd : ℚ) (totalCapitalUsd * (5 / 100)) := by
  unfold promotedProxy? at h
  dsimp only at h
  split at h
  · cases h
  · injection h with h
    subst h
    exact ⟨rfl, rfl⟩

/-- A candidate that is expected to earn has a proxy. -/
theorem exists_promotedProxy? {item : MechanismPaperCandidate} (h : 0 < item.expectedNetReturn)
    (totalCapitalUsd : Positive) : ∃ proxy, promotedProxy? R totalCapitalUsd item = some proxy := by
  unfold promotedProxy?
  dsimp only
  rw [dif_neg (not_le.mpr h)]
  exact ⟨_, rfl⟩

/-- A trial of the mechanism family keeps the allocation's capital and the candidate's
    window. -/
theorem mechanismTrial_eq_ok {candidate : MechanismPaperCandidate} {trialId : Uuid}
    {allocation : UnifiedPaperAllocation} {planObservedAt : Instant}
    {trial : PaperAllocationTrial}
    (h : mechanismTrial candidate trialId allocation planObservedAt = .ok trial) :
    trial.candidateId = allocation.candidateId ∧ trial.dueAt = some candidate.dueAt
      ∧ (trial.capitalRequiredUsd : ℚ) = allocation.capitalRequiredUsd := by
  unfold mechanismTrial at h
  obtain ⟨capital, hcapital, h⟩ := bind_eq_ok h
  obtain ⟨notional, -, h⟩ := bind_eq_ok h
  obtain ⟨profit, -, h⟩ := bind_eq_ok h
  obtain ⟨onCapital, -, h⟩ := bind_eq_ok h
  injection h with h
  subst h
  exact ⟨rfl, rfl, positive_eq_ok hcapital⟩

/-- The allocation of a proxy of a stored candidate gets a trial. -/
theorem exists_mechanismTrial {ledger : MechanismLedger} {candidate : MechanismPaperCandidate}
    {proxy : UnifiedPaperCandidate}
    (hstored : ledger.candidate? proxy.candidateId = some candidate) (trialId : Uuid)
    (planObservedAt : Instant) :
    ∃ trial, trialFromMechanismAllocation R ledger trialId (mechanismAllocation proxy)
        planObservedAt = .ok trial
      ∧ trial.candidateId = proxy.candidateId ∧ trial.dueAt = some candidate.dueAt
      ∧ trial.capitalRequiredUsd = proxy.capitalRequiredUsd := by
  have hfamily : ¬ (mechanismAllocation proxy).family ≠ "mechanism" := fun h => h rfl
  have hid : (mechanismAllocation proxy).candidateId = proxy.candidateId := rfl
  have hcapital : positive "PaperAllocationTrial" "capital_required_usd"
      (mechanismAllocation proxy).capitalRequiredUsd = .ok proxy.capitalRequiredUsd :=
    positive_of_lt proxy.capitalRequiredUsd.2
  have hnotional : positive "PaperAllocationTrial" "notional_usd"
      (mechanismAllocation proxy).notionalUsdPerLeg = .ok proxy.notionalUsdPerLeg :=
    positive_of_lt proxy.notionalUsdPerLeg.2
  have hprofit : nonNegative "PaperAllocationTrial" "predicted_profit_usd"
      (mechanismAllocation proxy).expectedProfitUsdPerDeployment
        = .ok proxy.expectedProfitUsdPerDeployment :=
    nonNegative_of_le proxy.expectedProfitUsdPerDeployment.2
  have hreturn : nonNegative "PaperAllocationTrial" "predicted_return_on_reserved_capital"
      (mechanismAllocation proxy).expectedReturnOnReservedCapital
        = .ok proxy.expectedReturnOnReservedCapital :=
    nonNegative_of_le proxy.expectedReturnOnReservedCapital.2
  rw [trialFromMechanismAllocation, if_neg hfamily, hid, hstored]
  dsimp only
  rw [mechanismTrial, hcapital, hnotional, hprofit, hreturn]
  exact ⟨_, rfl, rfl, rfl, rfl⟩

/-- Two optional values with equal images are equal when the map tells them apart. -/
theorem map_eq_map_iff_of {α β : Type} {f : α → β} {a b : Option α}
    (h : ∀ x ∈ a, ∀ y ∈ b, f x = f y → x = y) : a.map f = b.map f ↔ a = b := by
  refine ⟨fun heq => ?_, fun heq => heq ▸ rfl⟩
  cases a with
  | none =>
    cases b with
    | none => rfl
    | some y => cases heq
  | some x =>
    cases b with
    | none => cases heq
    | some y => rw [h x rfl y rfl (Option.some.inj heq)]

/-- A cost per dollar is the same for two sizes when it is nothing or the sizes are equal. -/
theorem div_eq_div_iff_zero_or {cost a b : ℚ} (ha : 0 < a) (hb : 0 < b) :
    cost / a = cost / b ↔ cost = 0 ∨ a = b := by
  rw [div_eq_div_iff ha.ne' hb.ne', mul_eq_mul_left_iff, or_comm, eq_comm (a := b)]

/-- Two settlements of a yield agree unless the exit capacity lies between the sizes. -/
theorem settleYieldHeld_eq_iff {candidate : MechanismPaperCandidate} {trialId : Uuid}
    {payload : YieldPayload} {capital : Positive}
    (hle : (capital : ℚ) ≤ candidate.capitalUsd) :
    settleYieldHeld R evidence (candidate.canonicalTrial trialId none) payload
        = settleYieldHeld R evidence (candidate.sizedTrial trialId capital) payload
      ↔ ∀ exit, nextYieldObservation R evidence (candidate.canonicalTrial trialId none) payload
          = some exit →
        ((capital : ℚ) ≤ exit.capacityUsd → (candidate.capitalUsd : ℚ) ≤ exit.capacityUsd)
          ∨ yieldAccrual (candidate.canonicalTrial trialId none) payload exit
            = -payload.entryExitCostBps / 10000 := by
  have hnext : nextYieldObservation R evidence (candidate.sizedTrial trialId capital) payload
      = nextYieldObservation R evidence (candidate.canonicalTrial trialId none) payload := rfl
  have haccrual : ∀ exit, yieldAccrual (candidate.sizedTrial trialId capital) payload exit
      = yieldAccrual (candidate.canonicalTrial trialId none) payload exit := fun _ => rfl
  have hcanonical : (candidate.canonicalTrial trialId none).capitalUsd = candidate.capitalUsd := rfl
  have hsized : (candidate.sizedTrial trialId capital).capitalUsd = capital := rfl
  unfold settleYieldHeld
  rw [hnext]
  cases hexit : nextYieldObservation R evidence (candidate.canonicalTrial trialId none) payload with
  | none => simp
  | some exit =>
    simp only [Option.map_some, Option.some.injEq, haccrual, hcanonical, hsized,
      MechanismSettlementResult.mk.injEq, true_and, and_true, forall_eq']
    by_cases hcandidate : (exit.capacityUsd : ℚ) < candidate.capitalUsd
    · by_cases hcapital : (exit.capacityUsd : ℚ) < capital
      · rw [if_pos hcandidate, if_pos hcapital]
        exact iff_of_true rfl (Or.inl (fun hfits => absurd hcapital (not_lt.mpr hfits)))
      · -- The capacity is enough for the position but not for the candidate.
        have hfits : (capital : ℚ) ≤ exit.capacityUsd := not_lt.mp hcapital
        simp only [if_pos hcandidate, if_neg hcapital, hfits, not_le.mpr hcandidate, true_imp_iff,
          false_or]
        exact eq_comm
    · have hcapital : ¬ (exit.capacityUsd : ℚ) < capital :=
        fun hlt => hcandidate (lt_of_lt_of_le hlt hle)
      simp [hcandidate, hcapital, not_lt.mp hcandidate]

/-- Two settlements of a location agree unless its transfer costs something. -/
theorem settleLocation_eq_iff {candidate : MechanismPaperCandidate} {trialId : Uuid}
    {payload : LocationPayload} {capital : Positive} :
    settleLocation R evidence (candidate.canonicalTrial trialId none) payload
        = settleLocation R evidence (candidate.sizedTrial trialId capital) payload
      ↔ ∀ latest, evidence.marketQuotes.getLast? = some latest →
        (candidate.canonicalTrial trialId none).dueAt ≤ latest.observedAt →
        payload.transferCostUsd = 0 ∨ (candidate.capitalUsd : ℚ) = capital := by
  -- the trials differ in their capital only
  have hdue : (candidate.sizedTrial trialId capital).dueAt
      = (candidate.canonicalTrial trialId none).dueAt := rfl
  have hsource : (candidate.sizedTrial trialId capital).sourceObservedAt
      = (candidate.canonicalTrial trialId none).sourceObservedAt := rfl
  have hfound : locationOpportunities R evidence (candidate.sizedTrial trialId capital) payload
      = locationOpportunities R evidence (candidate.canonicalTrial trialId none) payload := rfl
  have hcanonical : (candidate.canonicalTrial trialId none).capitalUsd = candidate.capitalUsd := rfl
  have hsized : (candidate.sizedTrial trialId capital).capitalUsd = capital := rfl
  -- the capital enters as what the transfer costs a unit of it
  have hcost : (payload.transferCostUsd : ℚ) / candidate.capitalUsd
      = payload.transferCostUsd / capital
      ↔ payload.transferCostUsd = 0 ∨ (candidate.capitalUsd : ℚ) = capital := by
    rw [div_eq_div_iff_zero_or candidate.capitalUsd.2 capital.2, NNRat.coe_eq_zero]
  unfold settleLocation
  rw [hdue, hsource, hfound, hcanonical, hsized]
  cases hlatest : evidence.marketQuotes.getLast? with
  | none => simp
  | some latest =>
    simp only [Option.some.injEq, forall_eq']
    by_cases hlt : latest.observedAt < (candidate.canonicalTrial trialId none).dueAt
    -- too early a quote settles neither
    · rw [if_pos hlt, if_pos hlt]
      exact ⟨fun _ hle => absurd hlt (not_lt.mpr hle), fun _ => rfl⟩
    · rw [if_neg hlt, if_neg hlt, ← hcost]
      simp [not_lt.mp hlt]

/-- **Own size.** A position on a stored candidate settles on its own size exactly when the size
    is immaterial to the settlement of its lane. The canonical trial and the trial of the
    position share their payload and their due time, so they differ by the capital alone, and
    only some lanes use it. -/
theorem settledOnOwnSize_iff {ledger : MechanismLedger} {canonicalId : String → Uuid}
    {outcomeId trialId : Uuid} {candidate : MechanismPaperCandidate}
    {totalCapitalUsd : Positive} {proxy : UnifiedPaperCandidate} {planObservedAt : Instant}
    {trial : PaperAllocationTrial}
    (hstored : ledger.candidate? candidate.candidateId = some candidate)
    (hproxy : promotedProxy? R totalCapitalUsd candidate = some proxy)
    (htrial : trialFromMechanismAllocation R ledger trialId (mechanismAllocation proxy)
      planObservedAt = .ok trial) :
    SettledOnOwnSize R evidence ledger canonicalId outcomeId candidate trial
      ↔ SizeImmaterial R evidence candidate (canonicalId candidate.candidateId)
          trial.capitalRequiredUsd := by
  obtain ⟨hid, hproxyCapital⟩ := promotedProxy?_capital hproxy
  have hcandidate : (mechanismAllocation proxy).candidateId = candidate.candidateId := hid
  have hfamily : ¬ (mechanismAllocation proxy).family ≠ "mechanism" := fun h => h rfl
  rw [trialFromMechanismAllocation, if_neg hfamily, hcandidate, hstored] at htrial
  obtain ⟨hown, hdue, hcapital⟩ := mechanismTrial_eq_ok htrial
  rw [hcandidate] at hown
  have hcap : (trial.capitalRequiredUsd : ℚ) ≤ candidate.capitalUsd := by
    rw [hcapital]
    show (proxy.capitalRequiredUsd : ℚ) ≤ _
    rw [hproxyCapital]
    exact min_le_left _ _
  -- Both outcomes are built the same way, so it comes down to the two settlements.
  have hinjective : ∀ result result' : MechanismSettlementResult, result.detail = result'.detail →
      mechanismOutcome trial outcomeId result = mechanismOutcome trial outcomeId result' →
      result = result' := by
    intro result result' hdetail heq
    have hfields := congrArg (fun o => (o.maturedAt, o.realizedGrossReturn, o.realizedNetReturn,
      o.settlementMethod)) heq
    simp only [mechanismOutcome, Prod.mk.injEq] at hfields
    obtain ⟨hmatured, hgross, hnet, hmethod⟩ := hfields
    cases result
    cases result'
    simp_all
  have hsettled : settleCanonicalCandidate R evidence ledger canonicalId trial.candidateId trial.dueAt
      = settleExecutable R evidence
        (candidate.canonicalTrial (canonicalId candidate.candidateId) none) := by
    rw [settleCanonicalCandidate, hown, hstored, hdue]
    rfl
  have hsizes : ∀ result ∈ settleExecutable R evidence
        (candidate.canonicalTrial (canonicalId candidate.candidateId) none),
      ∀ result' ∈ settleExecutable R evidence
        (candidate.sizedTrial (canonicalId candidate.candidateId) trial.capitalRequiredUsd),
      mechanismOutcome trial outcomeId result = mechanismOutcome trial outcomeId result' →
      result = result' := by
    intro result h result' h'
    exact hinjective result result'
      ((detail_of_settleExecutable h).trans (detail_of_settleExecutable h').symm)
  rw [SettledOnOwnSize, settleMechanism, hsettled, hown, map_eq_map_iff_of hsizes]
  unfold settleExecutable SizeImmaterial
  have hpayload : (candidate.canonicalTrial (canonicalId candidate.candidateId) none).settlementPayload
      = candidate.settlementPayload := rfl
  have hpayload' : (candidate.sizedTrial (canonicalId candidate.candidateId)
      trial.capitalRequiredUsd).settlementPayload = candidate.settlementPayload := rfl
  rw [hpayload, hpayload']
  -- only a yield and a location settle on the capital of the trial
  cases candidate.settlementPayload with
  | yield payload => exact settleYieldHeld_eq_iff hcap
  | location payload => exact settleLocation_eq_iff
  | maker payload => exact iff_of_true rfl trivial
  | volatility payload => exact iff_of_true rfl trivial
  | surface payload => exact iff_of_true rfl trivial
  | liquidation payload => exact iff_of_true rfl trivial

end Position

/-! ### A location with a transfer cost -/

/-- A location candidate of 1000 from time zero, held for a day. -/
def locationCandidate (transferCostUsd : ℚ≥0) : MechanismPaperCandidate where
  candidateId := "mechanism:capital_location_settlement:location"
  cohortKey := "location|kraken|BTC"
  asset := "BTC"
  venues := ["kraken"]
  observedAt := 0
  holdingHours := 24
  capitalUsd := 1000
  expectedNetReturn := 1 / 100
  expectedProfitUsd := 10
  evidenceSampleCount := 30
  evidenceAllocationFraction := 1
  settlementPayload := .location ⟨"kraken", "BTC", 0, 0, transferCostUsd, 0⟩
  conflictKeys := ["capital-location:kraken:BTC"]

/-- The ledger that stores the candidate. -/
def locationLedger (transferCostUsd : ℚ≥0) : MechanismLedger :=
  ⟨[], [], [locationCandidate transferCostUsd]⟩

/-- Evidence whose newest market quote is from the horizon. -/
def dayLater : StoredEvidence :=
  { StoredEvidence.empty with marketQuotes := [spotQuote 100 86400000000] }

/-- With 10000 dollars of paper cash the position takes 500 of the 1000 dollars. -/
theorem locationTrial_exists (transferCostUsd : ℚ≥0) :
    ∃ proxy trial,
      promotedProxy? MechanismRuntime.sample 10000 (locationCandidate transferCostUsd)
        = some proxy
      ∧ trialFromMechanismAllocation MechanismRuntime.sample (locationLedger transferCostUsd) 0
          (mechanismAllocation proxy) 0 = .ok trial
      ∧ trial.candidateId = (locationCandidate transferCostUsd).candidateId
      ∧ trial.dueAt = some (locationCandidate transferCostUsd).dueAt
      ∧ trial.capitalRequiredUsd = 500 := by
  obtain ⟨proxy, hproxy⟩ := exists_promotedProxy? (R := MechanismRuntime.sample)
    (show 0 < (locationCandidate transferCostUsd).expectedNetReturn by norm_num [locationCandidate])
    10000
  obtain ⟨hid, hcapital⟩ := promotedProxy?_capital hproxy
  have hstored : (locationLedger transferCostUsd).candidate? proxy.candidateId
      = some (locationCandidate transferCostUsd) := by
    rw [hid]
    rfl
  obtain ⟨trial, htrial, hown, hdue, hsame⟩ :=
    exists_mechanismTrial (R := MechanismRuntime.sample) hstored 0 0
  refine ⟨proxy, trial, hproxy, htrial, hown.trans hid, hdue, ?_⟩
  rw [hsame]
  refine Subtype.ext (hcapital.trans ?_)
  norm_num [locationCandidate]

/-- A free transfer settles alike on the size of the candidate and on that of the position, as the
    size enters through the cost alone. -/
theorem settledOnOwnSize_freeTransfer :
    ∃ trial : PaperAllocationTrial,
      SettledOnOwnSize MechanismRuntime.sample dayLater (locationLedger 0) (fun _ => 0) 0
        (locationCandidate 0) trial := by
  obtain ⟨proxy, trial, hproxy, htrial, -⟩ := locationTrial_exists 0
  have hstored : (locationLedger 0).candidate? (locationCandidate 0).candidateId
      = some (locationCandidate 0) := rfl
  exact ⟨trial, (settledOnOwnSize_iff hstored hproxy htrial).mpr (fun _ _ _ => Or.inl rfl)⟩

/-- **Candidate's size.** A transfer cost of 10 dollars is a fiftieth of the position's 500
    dollars; the settlement charges it as a hundredth, that of the candidate's 1000. -/
theorem not_settledOnOwnSize_paidTransfer :
    ∃ proxy trial,
      promotedProxy? MechanismRuntime.sample 10000 (locationCandidate 10) = some proxy
      ∧ trialFromMechanismAllocation MechanismRuntime.sample (locationLedger 10) 0
          (mechanismAllocation proxy) 0 = .ok trial
      ∧ ¬ SettledOnOwnSize MechanismRuntime.sample dayLater (locationLedger 10) (fun _ => 0) 0
          (locationCandidate 10) trial := by
  obtain ⟨proxy, trial, hproxy, htrial, hid, hdue, hcapital⟩ := locationTrial_exists 10
  refine ⟨proxy, trial, hproxy, htrial, fun hown => ?_⟩
  rw [SettledOnOwnSize, settleMechanism, hid, hdue, hcapital] at hown
  have hnet := congrArg (Option.map PaperAllocationOutcome.realizedNetReturn) hown
  rw [Option.map_map, Option.map_map] at hnet
  have hcandidate : (settleCanonicalCandidate MechanismRuntime.sample dayLater (locationLedger 10)
      (fun _ => 0) (locationCandidate 10).candidateId (some (locationCandidate 10).dueAt)).map
        MechanismSettlementResult.netReturn = some (-1 / 100) := by
    decide +kernel
  have hposition : (settleExecutable MechanismRuntime.sample dayLater
      ((locationCandidate 10).sizedTrial 0 500)).map
        MechanismSettlementResult.netReturn = some (-1 / 50) := by
    decide +kernel
  have heq := hcandidate.symm.trans (Eq.trans hnet hposition)
  exact absurd heq (by decide +kernel)

end InefficiencyEngine.Mechanism
