import InefficiencyEngine.Portfolio.Allocation

namespace InefficiencyEngine.Portfolio

/-!
# Settlement trials

`AllocationForwardCertificationService.trial_from_allocation` turns an allocation into the
immutable record of how it will be settled: the method, the horizon, and the legs.  An
allocation that matches none of the three contracts becomes an unsupported trial with a
blocker.  The trial is validated on construction, so a supported trial has a horizon, a
source time and the metadata its method settles with (`trialFromAllocation_perpShort`).
-/

/-! ### Truthiness -/

/-- `bool(text)` for an optional text: `None` and the empty text are false. -/
def truthy (text : Option String) : Bool :=
  match text with
  | some s => s ≠ ""
  | none => false

@[simp] theorem truthy_some (s : String) : truthy (some s) = true ↔ s ≠ "" := by
  simp [truthy]

/-- `text or default`. -/
def orText (text : Option String) (default : String) : String :=
  match text with
  | some s => if s = "" then default else s
  | none => default

/-- A non-empty text is not replaced. -/
theorem orText_some {s : String} (h : s ≠ "") (default : String) : orText (some s) default = s :=
  if_neg h

theorem orText_ne_empty {text : Option String} {default : String} (h : default ≠ "") :
    orText text default ≠ "" := by
  unfold orText
  split
  · split
    · exact h
    · assumption
  · exact h

/-! ### The trial -/

/-- `AllocationForwardCertificationService.SETTLEMENT_METHOD`. -/
def spotLongSettlementMethod : String := "spot_mid_forward_minus_point_in_time_roundtrip_cost"

/-- `AllocationForwardCertificationService.PERP_SHORT_SETTLEMENT_METHOD`. -/
def perpShortSettlementMethod : String :=
  "perp_short_mid_forward_plus_observed_funding_minus_point_in_time_roundtrip_cost"

/-- `AllocationForwardCertificationService.MULTI_LEG_SETTLEMENT_METHOD`. -/
def multiLegSettlementMethod : String :=
  "visible_l2_multileg_close_plus_observed_funding_minus_point_in_time_non_slippage_cost"

/-- `PaperAllocationTrial`. The trial of an allocation, with what its settlement will read. -/
structure PaperAllocationTrial where
  trialId : Uuid
  planObservedAt : Instant
  candidateId : String
  family : String
  strategy : String
  asset : String
  venues : List String
  exposureKind : ExposureKind
  capitalRequiredUsd : Positive
  notionalUsd : Positive
  predictedProfitUsd : ℚ≥0
  predictedReturnOnReservedCapital : ℚ≥0
  sourceObservedAt : Option Instant
  dueAt : Option Instant
  instrumentSymbol : Option String
  instrumentMarketKind : Option String
  entryReferencePrice : Option Positive
  modeledRoundtripCostReturn : Option ℚ≥0
  settlementLegs : List PaperSettlementLeg
  modeledNonSlippageCostBps : Option ℚ≥0
  modeledSafetyBufferBps : Option ℚ≥0
  capitalMultiple : Option Positive
  settlementSupported : Bool
  settlementMethod : Option String
  settlementBlocker : Option String
  cohortKey : String

/-! ### Contracts -/

namespace UnifiedPaperAllocation

/-- The metadata both directional contracts require besides their exposure and market. -/
def hasDirectionalMetadata (a : UnifiedPaperAllocation) : Bool :=
  a.venues.length = 1 && truthy a.instrumentSymbol && a.entryReferencePrice.isSome
    && a.modeledRoundtripCostReturn.isSome && a.modeledHoldingHours.isSome

/-- The spot-long contract. -/
def isSpotLong (a : UnifiedPaperAllocation) : Bool :=
  a.family = "alpha" && a.exposureKind = .directionalLong
    && a.instrumentMarketKind = some MarketKind.spot.value && a.hasDirectionalMetadata

/-- The perpetual-short contract. -/
def isPerpShort (a : UnifiedPaperAllocation) : Bool :=
  a.family = "alpha" && a.exposureKind = .directionalShort
    && a.instrumentMarketKind = some MarketKind.perpetual.value && a.hasDirectionalMetadata

/-- The two-leg contract. -/
def isMultiLeg (a : UnifiedPaperAllocation) : Bool :=
  a.family = "core_cex" && a.exposureKind = .marketNeutral && a.modeledHoldingHours.isSome
    && a.settlementLegs.length = 2 && a.modeledNonSlippageCostBps.isSome
    && a.capitalMultiple.isSome

/-- Some contract settles the allocation. -/
def supported (a : UnifiedPaperAllocation) : Bool := a.isSpotLong || a.isPerpShort || a.isMultiLeg

/-- `allocation.source_observed_at or plan_observed_at`. -/
def sourceTime (a : UnifiedPaperAllocation) (planObservedAt : Instant) : Instant :=
  a.sourceObservedAt.getD planObservedAt

/-- The committed horizon of a supported allocation. -/
def dueAt (a : UnifiedPaperAllocation) (planObservedAt : Instant) : Option Instant :=
  if a.supported then
    some (a.sourceTime planObservedAt + timedeltaHours (a.modeledHoldingHours.getD 0))
  else none

/-- The settlement method of the contract the allocation matches. -/
def settlementMethod (a : UnifiedPaperAllocation) : Option String :=
  if a.isSpotLong then some spotLongSettlementMethod
  else if a.isPerpShort then some perpShortSettlementMethod
  else if a.isMultiLeg then some multiLegSettlementMethod
  else none

/-- Why no contract settles the allocation. -/
def settlementBlocker (a : UnifiedPaperAllocation) : Option String :=
  if a.supported then none
  else if a.family = "core_cex" then
    some ("core allocation is missing exact two-leg entry/L2 cost metadata required for "
      ++ "canonical settlement")
  else if a.family = "alpha" then
    some "directional alpha settlement metadata is incomplete or unsupported"
  else if a.family = "cex_dex" then
    some ("CEX-DEX allocation still requires amount-specific realized route and hedge "
      ++ "settlement evidence")
  else some "allocation requires an authoritative family settlement contract"

/-- The one leg of a perpetual short, validated like any leg. -/
def perpShortLeg (upper : String → String) (a : UnifiedPaperAllocation) (entry : Positive) :
    Except Raised PaperSettlementLeg := do
  let baseQuantity ←
    positive "PaperSettlementLeg" "base_quantity" (a.notionalUsdPerLeg / entry)
  let entryNotionalUsd ← positive "PaperSettlementLeg" "entry_notional_usd" a.notionalUsdPerLeg
  return {
    venue := a.venues.headD ""
    asset := upper a.asset
    marketKind := MarketKind.perpetual.value
    side := .short
    symbol := orText a.instrumentSymbol a.asset
    baseQuantity := baseQuantity
    entryPrice := entry
    entryNotionalUsd := entryNotionalUsd }

/-- The legs a trial settles: the allocation's own, except for a perpetual short. -/
def trialLegs (upper : String → String) (a : UnifiedPaperAllocation) :
    Except Raised (List PaperSettlementLeg) :=
  if a.isSpotLong then .ok a.settlementLegs
  else if a.isPerpShort then
    match a.entryReferencePrice with
    | some entry => do return [← a.perpShortLeg upper entry]
    | none => .ok a.settlementLegs
  else .ok a.settlementLegs

/-- `AllocationForwardCertificationService._cohort_key`. The trials of one key count as samples
    of one strategy in one market. -/
def cohortKey (a : UnifiedPaperAllocation) : String :=
  let legKey := ";".intercalate (a.settlementLegs.map (fun leg =>
    leg.venue ++ ":" ++ leg.marketKind ++ ":" ++ leg.symbol ++ ":" ++ leg.side.value))
  let venue := a.venues.headD "unknown"
  "|".intercalate [a.family, a.strategy, a.asset, a.exposureKind.value,
    if legKey = "" then venue else legKey, orText a.instrumentSymbol "unknown"]

end UnifiedPaperAllocation

/-- `AllocationForwardCertificationService.trial_from_allocation`. The checks of the trial's own
    model raise, and the settlement contract decides whether the trial is supported. -/
def trialFromAllocation (upper : String → String) (trialId : Uuid)
    (a : UnifiedPaperAllocation) (planObservedAt : Instant) :
    Except Raised PaperAllocationTrial := do
  let settlementLegs ← a.trialLegs upper
  let capital ← positive "PaperAllocationTrial" "capital_required_usd" a.capitalRequiredUsd
  let notional ← positive "PaperAllocationTrial" "notional_usd" a.notionalUsdPerLeg
  let profit ← nonNegative "PaperAllocationTrial" "predicted_profit_usd"
    a.expectedProfitUsdPerDeployment
  let onCapital ← nonNegative "PaperAllocationTrial" "predicted_return_on_reserved_capital"
    a.expectedReturnOnReservedCapital
  return {
    trialId := trialId
    planObservedAt := planObservedAt
    candidateId := a.candidateId
    family := a.family
    strategy := a.strategy
    asset := a.asset
    venues := a.venues
    exposureKind := a.exposureKind
    capitalRequiredUsd := capital
    notionalUsd := notional
    predictedProfitUsd := profit
    predictedReturnOnReservedCapital := onCapital
    sourceObservedAt := some (a.sourceTime planObservedAt)
    dueAt := a.dueAt planObservedAt
    instrumentSymbol := a.instrumentSymbol
    instrumentMarketKind := a.instrumentMarketKind
    entryReferencePrice := a.entryReferencePrice
    modeledRoundtripCostReturn := a.modeledRoundtripCostReturn
    settlementLegs := settlementLegs
    modeledNonSlippageCostBps := a.modeledNonSlippageCostBps
    modeledSafetyBufferBps := a.modeledSafetyBufferBps
    capitalMultiple := a.capitalMultiple
    settlementSupported := a.supported
    settlementMethod := a.settlementMethod
    settlementBlocker := a.settlementBlocker
    cohortKey := a.cohortKey }

/-! ### Instrument conflicts -/

/-- The conflict key of one instrument. -/
def venueSymbolKey (venue symbol : String) : String := "venue-symbol:" ++ venue ++ ":" ++ symbol

/-- `UniversalSettlementMixin._trial_conflicts`. What a trial occupies: the venue and symbol of
    each leg, or the candidate itself when it has neither. -/
def trialConflicts (trial : PaperAllocationTrial) : List String :=
  match trial.settlementLegs, trial.venues, trial.instrumentSymbol with
  | leg :: legs, _, _ => (leg :: legs).map (fun leg => venueSymbolKey leg.venue leg.symbol)
  | [], venue :: _, some symbol =>
    if symbol = "" then ["candidate:" ++ trial.candidateId] else [venueSymbolKey venue symbol]
  | [], _, _ => ["candidate:" ++ trial.candidateId]

/-! ### What a trial carries over -/

/-- A validated trial took over the fields of the allocation it was built from. -/
theorem trialFromAllocation_eq_ok {upper : String → String} {trialId : Uuid}
    {a : UnifiedPaperAllocation} {planObservedAt : Instant} {trial : PaperAllocationTrial}
    (h : trialFromAllocation upper trialId a planObservedAt = .ok trial) :
    trial.trialId = trialId ∧ (trial.capitalRequiredUsd : ℚ) = a.capitalRequiredUsd
      ∧ (trial.notionalUsd : ℚ) = a.notionalUsdPerLeg
      ∧ a.trialLegs upper = .ok trial.settlementLegs
      ∧ trial.settlementSupported = a.supported
      ∧ trial.settlementMethod = a.settlementMethod ∧ trial.dueAt = a.dueAt planObservedAt
      ∧ trial.sourceObservedAt = some (a.sourceTime planObservedAt)
      ∧ trial.venues = a.venues ∧ trial.asset = a.asset
      ∧ trial.instrumentSymbol = a.instrumentSymbol
      ∧ trial.instrumentMarketKind = a.instrumentMarketKind
      ∧ trial.entryReferencePrice = a.entryReferencePrice
      ∧ trial.modeledRoundtripCostReturn = a.modeledRoundtripCostReturn
      ∧ trial.modeledNonSlippageCostBps = a.modeledNonSlippageCostBps := by
  unfold trialFromAllocation at h
  obtain ⟨legs, hlegs, h⟩ := bind_eq_ok h
  obtain ⟨capital, hcapital, h⟩ := bind_eq_ok h
  obtain ⟨notional, hnotional, h⟩ := bind_eq_ok h
  obtain ⟨profit, -, h⟩ := bind_eq_ok h
  obtain ⟨onCapital, -, h⟩ := bind_eq_ok h
  injection h with h
  subst h
  exact ⟨rfl, positive_eq_ok hcapital, positive_eq_ok hnotional, hlegs, rfl, rfl, rfl, rfl, rfl,
    rfl, rfl, rfl, rfl, rfl, rfl⟩

/-- A supported trial settles by one of the three methods, and is due. -/
theorem trialFromAllocation_supported {upper : String → String} {trialId : Uuid}
    {a : UnifiedPaperAllocation} {planObservedAt : Instant} {trial : PaperAllocationTrial}
    (h : trialFromAllocation upper trialId a planObservedAt = .ok trial)
    (hsupported : trial.settlementSupported = true) :
    (trial.settlementMethod = some spotLongSettlementMethod
        ∨ trial.settlementMethod = some perpShortSettlementMethod
        ∨ trial.settlementMethod = some multiLegSettlementMethod)
      ∧ ∃ dueAt, trial.dueAt = some dueAt := by
  obtain ⟨-, -, -, -, hsup, hmethod, hdue, -⟩ := trialFromAllocation_eq_ok h
  rw [hsup] at hsupported
  refine ⟨?_, _, hdue.trans (if_pos hsupported)⟩
  rw [hmethod, UnifiedPaperAllocation.settlementMethod]
  simp only [UnifiedPaperAllocation.supported, Bool.or_eq_true] at hsupported
  split_ifs <;> simp_all

/-- The blocker of a trial is that of the allocation it was built from. -/
theorem trialFromAllocation_blocker {upper : String → String} {trialId : Uuid}
    {a : UnifiedPaperAllocation} {planObservedAt : Instant} {trial : PaperAllocationTrial}
    (h : trialFromAllocation upper trialId a planObservedAt = .ok trial) :
    trial.settlementBlocker = a.settlementBlocker := by
  unfold trialFromAllocation at h
  obtain ⟨legs, -, h⟩ := bind_eq_ok h
  obtain ⟨capital, -, h⟩ := bind_eq_ok h
  obtain ⟨notional, -, h⟩ := bind_eq_ok h
  obtain ⟨profit, -, h⟩ := bind_eq_ok h
  obtain ⟨onCapital, -, h⟩ := bind_eq_ok h
  injection h with h
  subst h
  rfl

/-- The method names the contract. -/
theorem UnifiedPaperAllocation.contract_of_settlementMethod {a : UnifiedPaperAllocation}
    {method : String} (h : a.settlementMethod = some method) :
    (method = spotLongSettlementMethod ∧ a.isSpotLong = true)
      ∨ (method = perpShortSettlementMethod ∧ a.isSpotLong = false ∧ a.isPerpShort = true)
      ∨ (method = multiLegSettlementMethod ∧ a.isMultiLeg = true) := by
  unfold settlementMethod at h
  split_ifs at h with hs hp hl
  · exact Or.inl ⟨(Option.some.inj h).symm, hs⟩
  · exact Or.inr (Or.inl ⟨(Option.some.inj h).symm, by simpa using hs, hp⟩)
  · exact Or.inr (Or.inr ⟨(Option.some.inj h).symm, hl⟩)

/-- A trial that settles as a perpetual short has one leg and every text and figure the
    settlement reads. -/
theorem trialFromAllocation_perpShort {upper : String → String} {trialId : Uuid}
    {a : UnifiedPaperAllocation} {planObservedAt : Instant} {trial : PaperAllocationTrial}
    (h : trialFromAllocation upper trialId a planObservedAt = .ok trial)
    (hmethod : trial.settlementMethod = some perpShortSettlementMethod) :
    trial.entryReferencePrice.isSome ∧ trial.modeledRoundtripCostReturn.isSome
      ∧ (∃ sourceAt, trial.sourceObservedAt = some sourceAt)
      ∧ (∃ leg, trial.settlementLegs = [leg])
      ∧ truthy trial.instrumentSymbol = true ∧ truthy trial.instrumentMarketKind = true
      ∧ trial.venues ≠ [] := by
  obtain ⟨-, -, -, hlegs, -, hm, -, hsource, hvenues, -, hsymbol, hkind, hentry, hcost, -⟩ :=
    trialFromAllocation_eq_ok h
  -- of the three contracts only the short has this method
  have hshort : a.isSpotLong = false ∧ a.isPerpShort = true := by
    rcases UnifiedPaperAllocation.contract_of_settlementMethod (hm ▸ hmethod) with
      ⟨he, -⟩ | ⟨-, hshort⟩ | ⟨he, -⟩
    · exact absurd he (by decide)
    · exact hshort
    · exact absurd he (by decide)
  -- what makes the allocation a short are the texts and figures it has
  have hfields := hshort.2
  simp only [UnifiedPaperAllocation.isPerpShort, UnifiedPaperAllocation.hasDirectionalMetadata,
    Bool.and_eq_true, decide_eq_true_eq] at hfields
  obtain ⟨⟨-, hmarket⟩, ⟨⟨⟨hvenue, htext⟩, hprice⟩, hroundtrip⟩, -⟩ := hfields
  refine ⟨hentry ▸ hprice, hcost ▸ hroundtrip, ⟨_, hsource⟩, ?_, hsymbol ▸ htext, ?_, ?_⟩
  -- the one leg is built from the entry price
  · obtain ⟨entry, he⟩ := Option.isSome_iff_exists.mp hprice
    rw [UnifiedPaperAllocation.trialLegs, hshort.1, hshort.2, he] at hlegs
    obtain ⟨leg, -, hlegs⟩ := bind_eq_ok hlegs
    injection hlegs with hlegs
    exact ⟨leg, hlegs.symm⟩
  · rw [hkind, hmarket, truthy_some]
    decide
  · rw [hvenues]
    intro hnil
    rw [hnil] at hvenue
    cases hvenue

/-- The leg of a perpetual short: the instrument of its trial, sold for the whole notional. -/
structure PaperSettlementLeg.IsShortOf (upper : String → String) (leg : PaperSettlementLeg)
    (trial : PaperAllocationTrial) : Prop where
  venue : trial.venues = [leg.venue]
  asset : leg.asset = upper trial.asset
  symbol : trial.instrumentSymbol = some leg.symbol
  marketKind : leg.marketKind = MarketKind.perpetual.value
  trialMarketKind : trial.instrumentMarketKind = some MarketKind.perpetual.value
  side : leg.side = .short
  entryPrice : trial.entryReferencePrice = some leg.entryPrice
  baseQuantity : (leg.baseQuantity : ℚ) = trial.notionalUsd / leg.entryPrice

/-- The one leg of a trial that settles as a perpetual short is that short. The allocation has
    the metadata of a perpetual short, so its trial gets one leg, with the venue, the symbol and
    the entry of the trial and the quantity the notional buys. -/
theorem trialFromAllocation_shortLeg {upper : String → String} {trialId : Uuid}
    {a : UnifiedPaperAllocation} {planObservedAt : Instant} {trial : PaperAllocationTrial}
    (h : trialFromAllocation upper trialId a planObservedAt = .ok trial)
    (hmethod : trial.settlementMethod = some perpShortSettlementMethod) :
    ∃ leg, trial.settlementLegs = [leg] ∧ leg.IsShortOf upper trial := by
  obtain ⟨-, -, hnotional, hlegs, -, hm, -, -, hvenues, hasset, hsymbol, hkind, hentry, -, -⟩ :=
    trialFromAllocation_eq_ok h
  -- of the three contracts only the perpetual short has this method
  have hshort : a.isSpotLong = false ∧ a.isPerpShort = true := by
    rcases UnifiedPaperAllocation.contract_of_settlementMethod (hm ▸ hmethod) with
      ⟨he, -⟩ | ⟨-, hshort⟩ | ⟨he, -⟩
    · exact absurd he (by decide)
    · exact hshort
    · exact absurd he (by decide)
  -- its metadata name one venue, a symbol and an entry price
  have hfields := hshort.2
  simp only [UnifiedPaperAllocation.isPerpShort, UnifiedPaperAllocation.hasDirectionalMetadata,
    Bool.and_eq_true, decide_eq_true_eq] at hfields
  obtain ⟨⟨-, hmarket⟩, ⟨⟨⟨hvenue, htext⟩, hprice⟩, -⟩, -⟩ := hfields
  obtain ⟨entry, he⟩ := Option.isSome_iff_exists.mp hprice
  obtain ⟨symbol, hs⟩ : ∃ symbol, a.instrumentSymbol = some symbol := by
    cases ha : a.instrumentSymbol with
    | none =>
      rw [ha] at htext
      cases htext
    | some symbol => exact ⟨symbol, rfl⟩
  obtain ⟨venue, hv⟩ := List.length_eq_one_iff.mp hvenue
  rw [UnifiedPaperAllocation.trialLegs, hshort.1, hshort.2, he] at hlegs
  obtain ⟨leg, hleg, hlegs⟩ := bind_eq_ok hlegs
  injection hlegs with hlegs
  obtain ⟨baseQuantity, hbase, hleg⟩ := bind_eq_ok hleg
  obtain ⟨entryNotional, -, hleg⟩ := bind_eq_ok hleg
  injection hleg with hleg
  subst hleg
  rw [hs, truthy_some] at htext
  refine ⟨_, hlegs.symm, ?_⟩
  exact
    { venue := by rw [hvenues, hv]; rfl
      asset := by rw [hasset]
      symbol := by rw [hsymbol, hs, orText_some htext]
      marketKind := rfl
      trialMarketKind := hkind.trans hmarket
      side := rfl
      entryPrice := hentry.trans he
      baseQuantity := (positive_eq_ok hbase).trans (by rw [hnotional]) }

end InefficiencyEngine.Portfolio
