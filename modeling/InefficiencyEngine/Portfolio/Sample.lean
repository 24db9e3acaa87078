import InefficiencyEngine.Lib.Lines
import InefficiencyEngine.Portfolio.Cycle
import Mathlib.Tactic.DeriveEncodable
import Mathlib.Data.NNRat.Encodable
import Mathlib.Data.Rat.Encodable
import Mathlib.Logic.Equiv.List

namespace InefficiencyEngine.Portfolio

/-!
# A runtime to run the model with

`Runtime.sample` satisfies what the source relies on of its libraries, so that theorems
about an arbitrary runtime can be applied to concrete cycles.  Its JSON and its hash are
unary codes of the encoded value.  The quotes and allocations below are the smallest ones
each settlement contract accepts.
-/

/-! ### Codes -/

instance encodableChar : Encodable Char := Encodable.ofLeftInverse Char.toNat Char.ofNat Char.ofNat_toNat

instance encodableString : Encodable String :=
  Encodable.ofLeftInverse String.toList String.ofList (fun _ => String.ofList_toList)

deriving instance Encodable for ExposureKind
deriving instance Encodable for Side
deriving instance Encodable for PaperSettlementLeg
deriving instance Encodable for PaperSettlementLegOutcome
deriving instance Encodable for PaperAllocationTrial
deriving instance Encodable for EventDetails
deriving instance Encodable for PortfolioEventType
deriving instance Encodable for CanonicalPortfolioEvent

/-- A call site as a number. -/
def Draw.code : Draw → ℕ
  | .genesis => 0
  | .checkpoint => 1
  | .integrity => 2
  | .accountingEvent i => 5 * i + 3
  | .outcome i => 5 * i + 4
  | .trial i => 5 * i + 5
  | .position i => 5 * i + 6
  | .allocationEvent i => 5 * i + 7

theorem Draw.code_injective : Function.Injective Draw.code := by
  intro a b h
  cases a <;> cases b <;> simp only [Draw.code] at h <;> first | rfl | omega | (congr 1; omega)

/-- A runtime whose digests are unary codes. -/
def Runtime.sample : Runtime where
  upper := id
  uuid4 run draw := Nat.pair run draw.code
  uuid4_injective := by
    intro run run' draw draw' h
    obtain ⟨hrun, hdraw⟩ := Nat.pair_eq_pair.mp h
    exact ⟨hrun, Draw.code_injective hdraw⟩
  eventJson event := unary (Encodable.encode event)
  eventJson_injective := unary_injective.comp Encodable.encode_injective
  sha256 text := unary (Encodable.encode text)
  sha256_injective := unary_injective.comp Encodable.encode_injective
  sha256_hex text := by
    simp [unary]

/-! ### Quotes, candidates, cycles -/

namespace Sample

/-- A directional candidate on one instrument, held for an hour. -/
def candidate (candidateId symbol : String) (exposureKind : ExposureKind) (kind : MarketKind)
    (capital : Positive) : UnifiedPaperCandidate where
  candidateId := candidateId
  family := .alpha
  strategy := "momentum"
  asset := "BTC"
  venues := ["kraken"]
  capitalRequiredUsd := capital
  notionalUsdPerLeg := capital
  expectedProfitUsdPerDeployment := 1
  expectedReturnOnReservedCapital := 1
  modeledHoldingHours := some 1
  sourceReturnMetric := "net_return"
  sourceReturnValue := 1
  exposureKind := exposureKind
  sourceObservedAt := none
  instrumentSymbol := some symbol
  instrumentMarketKind := some kind.value
  entryReferencePrice := some 100
  modeledRoundtripCostReturn := some 0
  settlementLegs := []
  modeledNonSlippageCostBps := none
  modeledSafetyBufferBps := none
  capitalMultiple := none
  conflictKeys := []
  evidenceId := none
  opportunityId := none

/-- A plan of given allocations. -/
def plan (observedAt : Instant) (allocations : List UnifiedPaperAllocation) :
    UnifiedPaperAllocationPlan where
  observedAt := observedAt
  totalCapitalUsd := 0
  allocatedCapitalUsd := 0
  unusedCashUsd := 0
  expectedProfitUsdCurrentDeployments := 0
  weightedExpectedReturnOnReservedCapital := 0
  candidateCount := 0
  allocations := allocations
  skipped := []
  familyFailures := []
  portfolioRiskBudget := ⟨0, 0, 0, 0, 0, 0, 0, []⟩

/-- A cycle that collected these quotes and is offered this plan. -/
def input (completedAt : Instant) (quotes : List MarketQuote) (fundingQuotes : List FundingQuote)
    (boundedAllocationPlan : ℚ → Except String UnifiedPaperAllocationPlan) : CycleInput where
  now := completedAt
  collected := .ok ⟨"scan", completedAt, quotes, []⟩
  evidence := ⟨fundingQuotes, []⟩
  adapterRegistry := none
  boundedAllocationPlan := boundedAllocationPlan

end Sample

end InefficiencyEngine.Portfolio
