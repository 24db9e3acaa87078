import InefficiencyEngine.Mechanism.Evidence
import InefficiencyEngine.Lib.Numbers

namespace InefficiencyEngine.Mechanism

open Portfolio

/-!
# A concrete runtime

The library functions of `MechanismRuntime` where an example needs some: texts are left as
they are, the ids of a cycle are pairs of its number and the index of the trial, and the
functions no example evaluates are constant.
-/

/-- A runtime in which everything evaluates. -/
def MechanismRuntime.sample : MechanismRuntime where
  upper := id
  lower := id
  strip := id
  sqrt := id
  log := id
  log1p := id
  exp := id
  uuid4 := Nat.pair
  uuid4_injective := pair_injective2
  stable cohortKey _ := cohortKey
  stableKey := id
  isoformat _ := ""
  formatNumber _ := ""
  alphaResearchCostFloorBps := 10
  alphaMinNotionalUsd := 100

/-- A spot quote of one asset. -/
def spotQuote (mid : Positive) (observedAt : Instant) : MarketQuote :=
  ⟨"kraken", "BTC", .spot, "BTC-USD", mid, observedAt⟩

/-- A lending rate of ten percent, observed at an instant. -/
def lendingRate (observedAt : Instant) : YieldObservation where
  observationId := "rate"
  protocol := "morpho"
  asset := "USDC"
  kind := .lending
  observedAt := observedAt
  asOfAt := observedAt
  grossApy := 1 / 10
  capacityUsd := 1000000
  holdingHours := 24
  entryExitCostBps := 0
  creditOrProtocolRiskHaircutApy := 0
  slashingOrLiquidationRiskHaircutApy := 0
  incentiveDecayHaircutApy := 0
  authoritative := true
  commercialUsePermitted := true
  pointInTime := true
  as_of_le := le_refl _

end InefficiencyEngine.Mechanism
