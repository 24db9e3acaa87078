import InefficiencyEngine.Lib.IsoText
import InefficiencyEngine.Portfolio.Accounting

namespace InefficiencyEngine.Portfolio

/-!
# Admission and settlement support

The bridge from research into the portfolio admits a candidate by a predicate of its own
(`candidateHasCanonicalSettlement`).  The settlement service decides by another one, over the
allocation copied from the candidate, whether the trial it builds is supported.  The two
predicates are written apart and accept the same candidates, and what they accept carries
everything its settlement reads (`admission_agrees`).

An accepted candidate can fail in one way: nothing bounds its holding hours, and a datetime
ends with the year 9999.  The instants of this file count from the first of January of the
year 1.
-/

/-! ### The predicate of the bridge -/

/-- `_candidate_has_canonical_settlement`. Alpha settles as a spot long or a perpetual short, a
    pair of exchanges on its two legs, and every other family not at all. -/
def candidateHasCanonicalSettlement (item : UnifiedPaperCandidate) : Bool :=
  if item.family = .alpha then
    -- a spot long
    if item.exposureKind = .directionalLong
        && item.instrumentMarketKind = some MarketKind.spot.value
        && item.venues.length = 1 && truthy item.instrumentSymbol
        && item.entryReferencePrice.isSome && item.modeledRoundtripCostReturn.isSome
        && item.modeledHoldingHours.isSome then
      true
    -- a perpetual short
    else if item.exposureKind = .directionalShort
        && item.instrumentMarketKind = some MarketKind.perpetual.value
        && item.venues.length = 1 && truthy item.instrumentSymbol
        && item.entryReferencePrice.isSome && item.modeledRoundtripCostReturn.isSome
        && item.modeledHoldingHours.isSome then
      true
    else false
  else if item.family = .coreCex then
    -- two legs, whose costs and capital multiple are known
    item.exposureKind = .marketNeutral && item.modeledHoldingHours.isSome
      && item.settlementLegs.length = 2 && item.modeledNonSlippageCostBps.isSome
      && item.capitalMultiple.isSome
  else false

/-! ### The trial of a datetime -/

/-- `t + timedelta`, which raises where a datetime ends. -/
def addTimedelta (t : Instant) (delta : Int) : Except Raised Instant :=
  if 0 ≤ t + delta ∧ t + delta < 3652059 * Calendar.microsPerDay then .ok (t + delta)
  else .error (.external "OverflowError")

/-- `trial_from_allocation` as far as datetimes go: the horizon of a supported allocation is
    computed before anything is validated. -/
def datedTrialFromAllocation (upper : String → String) (trialId : Uuid)
    (a : UnifiedPaperAllocation) (planObservedAt : Instant) :
    Except Raised PaperAllocationTrial := do
  if a.supported then
    let _ ← addTimedelta (a.sourceTime planObservedAt)
      (timedeltaHours (a.modeledHoldingHours.getD 0))
  trialFromAllocation upper trialId a planObservedAt

/-- A datetime that exists is what the addition gives. -/
theorem addTimedelta_eq_ok {t : Instant} {delta : Int}
    (h : 0 ≤ t + delta ∧ t + delta < 3652059 * Calendar.microsPerDay) :
    addTimedelta t delta = .ok (t + delta) :=
  if_pos h

/-! ### The two predicates -/

/-- The families are told apart by their texts. -/
private theorem family_value_inj (a b : Family) : a.value = b.value ↔ a = b := by
  cases a <;> cases b <;> decide

/-- **Agreement of the predicates.** The allocation copied from a candidate is supported exactly
    when the bridge admits the candidate. -/
theorem supported_toAllocation (item : UnifiedPaperCandidate) :
    item.toAllocation.supported = candidateHasCanonicalSettlement item := by
  have halpha : item.toAllocation.family = "alpha" ↔ item.family = .alpha :=
    family_value_inj item.family .alpha
  have hcore : item.toAllocation.family = "core_cex" ↔ item.family = .coreCex :=
    family_value_inj item.family .coreCex
  have hhours : item.toAllocation.modeledHoldingHours.isSome = item.modeledHoldingHours.isSome := by
    simp [UnifiedPaperCandidate.toAllocation]
  unfold UnifiedPaperAllocation.supported UnifiedPaperAllocation.isSpotLong
    UnifiedPaperAllocation.isPerpShort UnifiedPaperAllocation.isMultiLeg
    UnifiedPaperAllocation.hasDirectionalMetadata candidateHasCanonicalSettlement
  rw [hhours]
  simp only [halpha, hcore]
  cases hfamily : item.family with
  | alpha => simp [UnifiedPaperCandidate.toAllocation, Bool.and_assoc]
  | coreCex => simp [UnifiedPaperCandidate.toAllocation]
  | cexDex => simp

/-- What the settlement of a supported trial reads. -/
structure PaperAllocationTrial.Settleable (upper : String → String)
    (trial : PaperAllocationTrial) : Prop where
  due : trial.dueAt.isSome
  source : trial.sourceObservedAt.isSome
  method : trial.settlementMethod.isSome
  blocker : trial.settlementBlocker = none
  spotLong : trial.settlementMethod = some spotLongSettlementMethod →
    trial.entryReferencePrice.isSome ∧ trial.modeledRoundtripCostReturn.isSome
  perpShort : trial.settlementMethod = some perpShortSettlementMethod →
    trial.modeledRoundtripCostReturn.isSome
      ∧ ∃ leg, trial.settlementLegs = [leg] ∧ leg.IsShortOf upper trial
  twoLeg : trial.settlementMethod = some multiLegSettlementMethod →
    trial.settlementLegs.length = 2 ∧ trial.modeledNonSlippageCostBps.isSome

/-- The trial of a candidate is built, it is supported exactly when the bridge admits the
    candidate, and then it carries what its settlement reads. -/
def AdmissionAgrees (upper : String → String) (trialId : Uuid) (item : UnifiedPaperCandidate)
    (planObservedAt : Instant) : Prop :=
  ∃ trial, datedTrialFromAllocation upper trialId item.toAllocation planObservedAt = .ok trial
    ∧ (candidateHasCanonicalSettlement item = true ↔ trial.settlementSupported = true)
    ∧ (trial.settlementSupported = true → trial.Settleable upper)

/-! ### Building the trial -/

/-- The legs of an allocation copied from a candidate pass their validation. -/
theorem trialLegs_toAllocation (upper : String → String) (item : UnifiedPaperCandidate) :
    ∃ legs, item.toAllocation.trialLegs upper = .ok legs := by
  unfold UnifiedPaperAllocation.trialLegs
  split
  · exact ⟨_, rfl⟩
  · split
    · cases hentry : item.toAllocation.entryReferencePrice with
      | none => exact ⟨_, rfl⟩
      | some entry =>
        have hnotional : (0 : ℚ) < item.toAllocation.notionalUsdPerLeg := item.notionalUsdPerLeg.2
        simp only [UnifiedPaperAllocation.perpShortLeg, positive_of_lt hnotional,
          positive_of_lt (div_pos hnotional entry.2)]
        exact ⟨_, rfl⟩
    · exact ⟨_, rfl⟩

/-- The trial of an allocation copied from a candidate passes its validation. -/
theorem trialFromAllocation_toAllocation (upper : String → String) (trialId : Uuid)
    (item : UnifiedPaperCandidate) (planObservedAt : Instant) :
    ∃ trial, trialFromAllocation upper trialId item.toAllocation planObservedAt = .ok trial := by
  obtain ⟨legs, hlegs⟩ := trialLegs_toAllocation upper item
  have hcapital : (0 : ℚ) < item.toAllocation.capitalRequiredUsd := item.capitalRequiredUsd.2
  have hnotional : (0 : ℚ) < item.toAllocation.notionalUsdPerLeg := item.notionalUsdPerLeg.2
  have hprofit : (0 : ℚ) ≤ item.toAllocation.expectedProfitUsdPerDeployment :=
    item.expectedProfitUsdPerDeployment.2
  have hreturn : (0 : ℚ) ≤ item.toAllocation.expectedReturnOnReservedCapital :=
    item.expectedReturnOnReservedCapital.2
  simp only [trialFromAllocation, hlegs, positive_of_lt hcapital, positive_of_lt hnotional,
    nonNegative_of_le hprofit, nonNegative_of_le hreturn]
  exact ⟨_, rfl⟩

/-- A supported trial carries what its settlement reads. The method of a supported trial names
    its contract, and each contract checks the metadata that its settlement reads. -/
theorem settleable_of_supported {upper : String → String} {trialId : Uuid}
    {a : UnifiedPaperAllocation} {planObservedAt : Instant} {trial : PaperAllocationTrial}
    (h : trialFromAllocation upper trialId a planObservedAt = .ok trial)
    (hsupported : trial.settlementSupported = true) : trial.Settleable upper := by
  obtain ⟨hmethod, dueAt, hdue⟩ := trialFromAllocation_supported h hsupported
  obtain ⟨-, -, -, hlegs, hsup, hm, -, hsource, -, -, -, -, hentry, hcost, hbps⟩ :=
    trialFromAllocation_eq_ok h
  rw [hsup] at hsupported
  refine
    { due := Option.isSome_of_eq_some hdue
      source := Option.isSome_of_eq_some hsource
      method := by rcases hmethod with h | h | h <;> rw [h] <;> rfl
      blocker := ?_
      spotLong := fun hspot => ?_
      perpShort := fun hperp => ?_
      twoLeg := fun htwo => ?_ }
  · rw [trialFromAllocation_blocker h]
    exact if_pos hsupported
  -- a spot long has its entry price and the cost of its round trip
  · rcases UnifiedPaperAllocation.contract_of_settlementMethod (hm ▸ hspot) with
      ⟨-, hcontract⟩ | ⟨he, -⟩ | ⟨he, -⟩
    · simp only [UnifiedPaperAllocation.isSpotLong, UnifiedPaperAllocation.hasDirectionalMetadata,
        Bool.and_eq_true] at hcontract
      obtain ⟨-, ⟨⟨-, hprice⟩, hroundtrip⟩, -⟩ := hcontract
      exact ⟨hentry ▸ hprice, hcost ▸ hroundtrip⟩
    · exact absurd he (by decide)
    · exact absurd he (by decide)
  · exact ⟨(trialFromAllocation_perpShort h hperp).2.1, trialFromAllocation_shortLeg h hperp⟩
  -- two legs have their costs
  · rcases UnifiedPaperAllocation.contract_of_settlementMethod (hm ▸ htwo) with
      ⟨he, -⟩ | ⟨he, -⟩ | ⟨-, hcontract⟩
    · exact absurd he (by decide)
    · exact absurd he (by decide)
    · rw [UnifiedPaperAllocation.trialLegs_of_isMultiLeg upper hcontract] at hlegs
      injection hlegs with hlegs
      simp only [UnifiedPaperAllocation.isMultiLeg, Bool.and_eq_true, decide_eq_true_eq]
        at hcontract
      obtain ⟨⟨⟨-, hlength⟩, hcostBps⟩, -⟩ := hcontract
      exact ⟨hlegs ▸ hlength, hbps ▸ hcostBps⟩

/-! ### The agreement -/

/-- When the trial of a candidate falls due. -/
def UnifiedPaperCandidate.horizon (item : UnifiedPaperCandidate) (planObservedAt : Instant) :
    Instant :=
  item.sourceObservedAt.getD planObservedAt
    + timedeltaHours ((item.modeledHoldingHours.map (fun hours => (hours : ℚ))).getD 0)

/-- **Admission agrees with settlement.** For every candidate whose horizon is a datetime, the
    trial of its allocation is built, it is supported exactly when the bridge admits the
    candidate, and then it has a horizon, a method, no blocker, and the legs and figures its
    settlement reads. -/
theorem admission_agrees (upper : String → String) (trialId : Uuid)
    (item : UnifiedPaperCandidate) (planObservedAt : Instant)
    (hhorizon : candidateHasCanonicalSettlement item = true →
      0 ≤ item.horizon planObservedAt
        ∧ item.horizon planObservedAt < 3652059 * Calendar.microsPerDay) :
    AdmissionAgrees upper trialId item planObservedAt := by
  obtain ⟨trial, htrial⟩ := trialFromAllocation_toAllocation upper trialId item planObservedAt
  have hsupported : trial.settlementSupported = item.toAllocation.supported :=
    (trialFromAllocation_eq_ok htrial).2.2.2.2.1
  have hagree := supported_toAllocation item
  refine ⟨trial, ?_, by rw [hsupported, hagree], settleable_of_supported htrial⟩
  unfold datedTrialFromAllocation
  split
  · rename_i hadmitted
    rw [hagree] at hadmitted
    have hadd : addTimedelta (item.toAllocation.sourceTime planObservedAt)
        (timedeltaHours (item.toAllocation.modeledHoldingHours.getD 0))
        = .ok (item.horizon planObservedAt) := addTimedelta_eq_ok (hhorizon hadmitted)
    rw [hadd]
    exact htrial
  · exact htrial

/-- The sample perpetual short is admitted at the beginning of the year 1, where its holding time
    stays in the range of the calendar. -/
theorem admission_agrees_short :
    AdmissionAgrees id 0
      (Sample.candidate "short" "BTC-PERP" .directionalShort .perpetual 100) 0 :=
  admission_agrees id 0 _ 0 (fun _ => by decide +kernel)

/-- A candidate to hold for a billion hours. -/
def heldForever : UnifiedPaperCandidate :=
  { Sample.candidate "held" "BTC" .directionalLong .spot 100 with
    modeledHoldingHours := some 1000000000 }

/-- **Counterexample.** The bridge admits a candidate whose horizon is no datetime, and its trial
    cannot be built. -/
theorem not_admission_agrees : ¬ AdmissionAgrees id 0 heldForever 0 := by
  rintro ⟨trial, htrial, -⟩
  have hraises : datedTrialFromAllocation id 0 heldForever.toAllocation 0
      = .error (.external "OverflowError") := by
    have hadmitted : heldForever.toAllocation.supported = true := by decide +kernel
    have hadd : addTimedelta (heldForever.toAllocation.sourceTime 0)
        (timedeltaHours (heldForever.toAllocation.modeledHoldingHours.getD 0))
        = .error (.external "OverflowError") := by decide +kernel
    rw [datedTrialFromAllocation, if_pos hadmitted, hadd]
    rfl
  rw [hraises] at htrial
  cases htrial

end InefficiencyEngine.Portfolio
