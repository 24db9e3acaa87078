import InefficiencyEngine.Portfolio.Runs
import InefficiencyEngine.Portfolio.Sample

namespace InefficiencyEngine.Portfolio

/-!
# Portfolio risk budgets over whole runs

The budgets of the overlay are fractions of total paper capital, but the overlay is
rebuilt for every plan from the cash that is left and starts with nothing used, so it
bounds each plan and not the portfolio.  What the deployment loop opens in a class is at
most what the plan allocated to it; together with what the class already reserved this
stays within the portfolio's budget when the class started within its share of the
*reserved* capital, or when everything offered in the class fits (`BudgetRoom`).
-/

/-! ### Reserved capital by class -/

namespace RiskClass

/-- The capital open items reserve in the class. -/
def reserved (K : RiskClass) (items : List (Uuid × CanonicalPortfolioEvent)) : ℚ :=
  (items.map (fun item => K.weight (item.2.family.getD "") (item.2.exposureKind.getD "")
    item.2.capitalReservedUsd)).sum

theorem reserved_append (K : RiskClass) (l₁ l₂ : List (Uuid × CanonicalPortfolioEvent)) :
    K.reserved (l₁ ++ l₂) = K.reserved l₁ + K.reserved l₂ := by
  simp only [reserved, List.map_append, List.sum_append]

/-- Positions reserve in the class what their allocations put into it. -/
theorem reserved_eq_allocated (K : RiskClass) {allocations : List UnifiedPaperAllocation}
    {items : List (Uuid × CanonicalPortfolioEvent)} (h : List.Forall₂ OpensAs allocations items) :
    K.reserved items = K.allocated allocations := by
  induction h with
  | nil => rfl
  | cons hd _ ih =>
    simp only [reserved, allocated, List.map_cons, List.sum_cons] at ih ⊢
    rw [ih, hd.capital, hd.family, hd.exposure]
    rfl

/-- Opening fewer allocations than a plan of candidates has puts no more into the class
    than the plan. -/
theorem allocated_le_of_sublist (K : RiskClass) {items : List UnifiedPaperCandidate}
    {taken : List UnifiedPaperAllocation}
    (h : taken.Sublist (items.map UnifiedPaperCandidate.toAllocation)) :
    K.allocated taken ≤ K.allocated (items.map UnifiedPaperCandidate.toAllocation) := by
  obtain ⟨items', hsub, rfl⟩ := List.sublist_map_iff.mp h
  rw [K.allocated_map_toAllocation, K.allocated_map_toAllocation]
  exact K.offered_le_of_sublist hsub

end RiskClass

/-! ### Budgets -/

/-- Total paper capital: cash plus reserved capital. -/
def Replay.totalCapital (r : Replay) : ℚ := r.cash + r.openCapital

/-- After opening `e` on the log of `s`, every class reserves at most its fraction of the
    total capital there was just before. -/
def WithinBudgets (settings : AllocatorSettings) (s : PortfolioStore)
    (e : CanonicalPortfolioEvent) : Prop :=
  ∀ K : RiskClass, K.reserved (replay s.events).openItems
      + K.weight (e.family.getD "") (e.exposureKind.getD "") e.capitalReservedUsd
    ≤ (replay s.events).totalCapital * K.fraction settings + budgetTolerance

/-- The cycle's plans are made by the allocator from these candidates. -/
def CycleInput.Offers (settings : AllocatorSettings) (candidates : List UnifiedPaperCandidate)
    (input : CycleInput) : Prop :=
  ∀ cash plan, input.boundedAllocationPlan cash = .ok plan →
    ∃ familyFailures maxVenueFraction maxAssetFraction maxAllocations observedAt,
      allocatePrequalifiedCandidates settings candidates familyFailures cash maxVenueFraction
        maxAssetFraction maxAllocations observedAt = .ok plan

/-- In every class, what is already reserved is within the class's fraction of the reserved
    capital, or everything offered fits into the class's budget. -/
def BudgetRoom (settings : AllocatorSettings) (candidates : List UnifiedPaperCandidate)
    (s : PortfolioStore) : Prop :=
  ∀ K : RiskClass,
    K.reserved (replay s.events).openItems
        ≤ (replay s.events).openCapital * K.fraction settings
      ∨ K.reserved (replay s.events).openItems + K.offered candidates
        ≤ (replay s.events).totalCapital * K.fraction settings + budgetTolerance

/-- A plan is only made of positive capital. -/
theorem pos_of_allocated {settings : AllocatorSettings} {candidates : List UnifiedPaperCandidate}
    {familyFailures : List FamilyFailure} {total : ℚ} {maxVenueFraction maxAssetFraction : Option ℚ}
    {maxAllocations : Option ℤ} {observedAt : Instant} {plan : UnifiedPaperAllocationPlan}
    (h : allocatePrequalifiedCandidates settings candidates familyFailures total
      maxVenueFraction maxAssetFraction maxAllocations observedAt = .ok plan) : 0 < total := by
  unfold allocatePrequalifiedCandidates at h
  split at h
  · cases h
  · exact not_le.mp ‹¬ total ≤ 0›

/-- Opening and deploying move capital between cash and reserve. -/
theorem Ledger.totalCapital_eq {R : Runtime} {n : ℕ} {s : PortfolioStore}
    (h : Ledger R n s.events) :
    (replay s.events).totalCapital = canonicalInitialCapitalUsd + (replay s.events).realized := by
  rw [Replay.totalCapital, h.balanced.cash]
  ring

/-- **One opening.** When the allocation half starts with room, each of its openings is
    within the budgets of the portfolio. -/
theorem Deployed.withinBudgets {R : Runtime} {n : ℕ} {settings : AllocatorSettings}
    {candidates : List UnifiedPaperCandidate} {base s : PortfolioStore}
    (hroom : BudgetRoom settings candidates base) (hbase : Ledger R n base.events)
    (hs : Ledger R n s.events) {familyFailures : List FamilyFailure}
    {maxVenueFraction maxAssetFraction : Option ℚ} {maxAllocations : Option ℤ}
    {observedAt : Instant} {plan : UnifiedPaperAllocationPlan}
    (hplan : allocatePrequalifiedCandidates settings candidates familyFailures
      (replay base.events).cash maxVenueFraction maxAssetFraction maxAllocations observedAt
      = .ok plan)
    {taken seen rest : List UnifiedPaperAllocation} {allocation : UnifiedPaperAllocation}
    (hallocations : plan.allocations = seen ++ allocation :: rest) (htaken : taken.Sublist seen)
    (hdeployed : Deployed base s taken) {e : CanonicalPortfolioEvent}
    (he : OpensAs allocation (0, e)) : WithinBudgets settings s e := by
  intro K
  obtain ⟨⟨accepted, hsubperm, haccepted⟩, hwithin⟩ := allocatePrequalifiedCandidates_within hplan
  obtain ⟨items, hitems, hopens⟩ := hdeployed.items
  -- What the class reserves after the opening is what it reserved at first plus a part of the plan.
  have hafter : K.reserved (replay s.events).openItems
        + K.weight (e.family.getD "") (e.exposureKind.getD "") e.capitalReservedUsd
      = K.reserved (replay base.events).openItems + K.allocated (taken ++ [allocation]) := by
    rw [hitems, K.reserved_append, K.reserved_eq_allocated hopens, K.allocated_append,
      he.family, he.exposure, he.capital]
    simp [RiskClass.allocated, add_assoc]
  have hsub : (taken ++ [allocation]).Sublist plan.allocations := by
    rw [hallocations]
    exact htaken.append (List.singleton_sublist.mpr List.mem_cons_self)
  have hle : K.allocated (taken ++ [allocation]) ≤ K.allocated plan.allocations := by
    rw [haccepted] at hsub ⊢
    exact K.allocated_le_of_sublist hsub
  have hoffered : K.allocated plan.allocations ≤ K.offered candidates := by
    rw [haccepted, K.allocated_map_toAllocation]
    obtain ⟨sub, hperm, hsub'⟩ := hsubperm
    rw [← K.offered_eq_of_perm hperm]
    exact K.offered_le_of_sublist hsub'
  have htotal : (replay s.events).totalCapital = (replay base.events).totalCapital := by
    rw [hs.totalCapital_eq, hbase.totalCapital_eq, hdeployed.realized]
  rw [hafter, htotal]
  rcases hroom K with hshare | hfits
  · have hsum : (replay base.events).totalCapital * K.fraction settings
        = (replay base.events).openCapital * K.fraction settings
          + (replay base.events).cash * K.fraction settings := by
      rw [Replay.totalCapital]
      ring
    linarith [hwithin K]
  · linarith

/-! ### Runs -/

/-- A cycle whose plans come from the allocator, and that has room for what it is offered
    when its allocation half starts. -/
def RoomyCycle (R : Runtime) (settings : AllocatorSettings) (n : ℕ) (s : PortfolioStore)
    (input : CycleInput) : Prop :=
  ∃ candidates, input.Offers settings candidates
    ∧ BudgetRoom settings candidates (afterSettlement R n input s)

/-- **Budgets over runs.** In every run all of whose cycles have room, each opening of each
    cycle is within the budgets of the portfolio. -/
theorem withinBudgets_of_roomy {R : Runtime} {settings : AllocatorSettings} {n : ℕ}
    {s : PortfolioStore} (h : Reachable R (RoomyCycle R settings) n s) {input : CycleInput}
    (hinput : RoomyCycle R settings n s input) {k : ℕ} {e : CanonicalPortfolioEvent}
    (hk : (runCycle R n input s).1[k]?.bind Write.event? = some e) (hopen : e.eventType = .open) :
    WithinBudgets settings (commitAll s ((runCycle R n input s).1.take k)) e := by
  obtain ⟨candidates, hoffers, hroom⟩ := hinput
  obtain ⟨i, plan, seen, rest, taken, allocation, trial, hplan, hallocations, htaken, hdeployed,
    hopened, hledger⟩ := opening_of_journal h.sound hk hopen
  obtain ⟨failures, venueFraction, assetFraction, maxAllocations, observedAt, hmade⟩ :=
    hoffers _ _ hplan
  have hcash : 0 < (replay (afterSettlement R n input s).events).cash := by
    rcases lt_max_iff.mp (pos_of_allocated hmade) with hlt | hlt
    · exact absurd hlt (lt_irrefl 0)
    · exact hlt
  rw [max_eq_right hcash.le] at hmade
  have hbase : Ledger R (n + 1) (afterSettlement R n input s).events := by
    refine (sound_afterSettlement h.sound input).resolve_left (fun hempty => ?_)
    rw [hempty] at hcash
    exact absurd hcash (lt_irrefl 0)
  exact hdeployed.withinBudgets hroom hbase hledger hmade hallocations htaken
    ⟨hopened.amounts.2.2, hopened.exposure.1, hopened.exposure.2⟩

/-! ### Two cycles -/

/-- Default risk fractions: 40 % alpha, 35 % directional, 25 % in one direction. -/
def defaultFractions : AllocatorSettings where
  allocatorMaxVenueFraction := 1
  allocatorMaxAssetFraction := 1
  allocatorMaxAllocations := 10
  allocatorMaxAlphaFraction := none
  allocatorMaxDirectionalFraction := none
  allocatorMaxSameDirectionFraction := none
  allocatorMaxAlphaStrategyFraction := none

/-- A spot long of some dollars. -/
def longOf (symbol : String) (notional : Positive) : UnifiedPaperCandidate :=
  Sample.candidate symbol symbol .directionalLong .spot notional

/-- A cycle offered one such candidate, with the other market quoted. -/
def offerLong (completedAt : Instant) (quoted offered : String) (notional : Positive) : CycleInput :=
  Sample.input completedAt
    [⟨"kraken", "BTC", .spot, quoted, 100, completedAt⟩] []
    (fun cash => (allocatePrequalifiedCandidates defaultFractions [longOf offered notional] [] cash
      none none none completedAt).mapError (fun _ => "ValueError"))

theorem offerLong_offers (completedAt : Instant) (quoted offered : String) (notional : Positive) :
    (offerLong completedAt quoted offered notional).Offers defaultFractions
      [longOf offered notional] := by
  intro cash plan hplan
  refine ⟨[], none, none, none, completedAt, ?_⟩
  replace hplan : (allocatePrequalifiedCandidates defaultFractions [longOf offered notional] [] cash
    none none none completedAt).mapError (fun _ => "ValueError") = .ok plan := hplan
  cases hmade : allocatePrequalifiedCandidates defaultFractions [longOf offered notional] [] cash
      none none none completedAt with
  | error raised =>
    rw [hmade] at hplan
    cases hplan
  | ok made =>
    rw [hmade] at hplan
    injection hplan with hplan
    rw [hplan]

/-- The ledger after a first cycle that opened one long. -/
def afterOneLong (notional : Positive) : PortfolioStore :=
  commitAll PortfolioStore.empty
    ((runCycle Runtime.sample 0 (offerLong 0 "" "BTC/USD" notional) PortfolioStore.empty).1.take 6)

theorem roomyCycle_first : RoomyCycle Runtime.sample defaultFractions 0 PortfolioStore.empty
    (offerLong 0 "" "BTC/USD" 20000) := by
  refine ⟨_, offerLong_offers 0 "" "BTC/USD" 20000, fun K => Or.inl ?_⟩
  cases K <;> decide +kernel

theorem roomyCycle_second : RoomyCycle Runtime.sample defaultFractions 1 (afterOneLong 20000)
    (offerLong 1 "BTC/USD" "BTC/USDT" 20000) := by
  refine ⟨_, offerLong_offers 1 "BTC/USD" "BTC/USDT" 20000, fun K => Or.inr ?_⟩
  cases K <;> decide +kernel

/-- A second cycle opens a long of 20000 dollars next to the one of the first cycle, and both are
    within the budget of 62500 dollars. -/
theorem withinBudgets_second :
    ∃ e, (runCycle Runtime.sample 1 (offerLong 1 "BTC/USD" "BTC/USDT" 20000)
        (afterOneLong 20000)).1[3]?.bind Write.event? = some e ∧ e.eventType = .open
      ∧ WithinBudgets defaultFractions (commitAll (afterOneLong 20000)
        ((runCycle Runtime.sample 1 (offerLong 1 "BTC/USD" "BTC/USDT" 20000)
          (afterOneLong 20000)).1.take 3)) e := by
  have htype : ((runCycle Runtime.sample 1 (offerLong 1 "BTC/USD" "BTC/USDT" 20000)
      (afterOneLong 20000)).1[3]?.bind Write.event?).map CanonicalPortfolioEvent.eventType
      = some .open := by
    decide +kernel
  obtain ⟨e, he, htype⟩ := Option.map_eq_some_iff.mp htype
  exact ⟨e, he, htype, withinBudgets_of_roomy (.cycle .start _ roomyCycle_first 6) roomyCycle_second
    he htype⟩

/-- Two cycles, each within the overlay's budgets, open longs of 80000 dollars on 250000
    dollars of paper capital, where the budget is 62500. -/
theorem not_withinBudgets_of_offers :
    ¬ ∀ (R : Runtime) (settings : AllocatorSettings) (n : ℕ) (s : PortfolioStore),
      Reachable R (fun _ _ input => ∃ candidates, input.Offers settings candidates) n s →
      ∀ input : CycleInput, (∃ candidates, input.Offers settings candidates) →
      ∀ k e, (runCycle R n input s).1[k]?.bind Write.event? = some e → e.eventType = .open →
        WithinBudgets settings (commitAll s ((runCycle R n input s).1.take k)) e := by
  intro h
  have hreachable : Reachable Runtime.sample
      (fun _ _ input => ∃ candidates, input.Offers defaultFractions candidates) 1
      (afterOneLong 40000) :=
    .cycle .start _ ⟨_, offerLong_offers 0 "" "BTC/USD" 40000⟩ 6
  have hevent : ((runCycle Runtime.sample 1 (offerLong 1 "BTC/USD" "BTC/USDT" 40000)
      (afterOneLong 40000)).1[3]?.bind Write.event?).map
        (fun e => (e.eventType, e.family, e.exposureKind, e.capitalReservedUsd))
      = some (.open, some "alpha", some "directional_long", 40000) := by decide +kernel
  obtain ⟨e, he, hfields⟩ := Option.map_eq_some_iff.mp hevent
  simp only [Prod.mk.injEq] at hfields
  obtain ⟨htype, hfamily, hexposure, hcapital⟩ := hfields
  have hwithin := h _ _ 1 _ hreachable _ ⟨_, offerLong_offers 1 "BTC/USD" "BTC/USDT" 40000⟩ 3 e he
    htype .directionalLong
  rw [hfamily, hexposure, hcapital] at hwithin
  revert hwithin
  decide +kernel

end InefficiencyEngine.Portfolio
