import InefficiencyEngine.Lib.Budgets
import InefficiencyEngine.Lib.Numbers
import InefficiencyEngine.Portfolio.Exclusion

namespace InefficiencyEngine.Portfolio

/-!
# What the greedy loop selects, and what it leaves out

`allocate_prequalified_candidates` and `UnifiedPaperAllocatorService.allocate` run one greedy
loop over the ranked candidates.  `GreedySplit.step` keeps the invariant of the loop: the running
totals are the loads of the accepted candidates on the budgets, every load is within its
budget, and each refused candidate is still blocked by what is accepted.

The strategy budget is where the loop and the budgets part: the overlay counts the capital of
every family under a strategy's name against an alpha candidate of that name.
-/

/-! ### Budgets -/

/-- The budgets of a plan. -/
inductive Budget
  | total
  | venue (venue : String)
  | asset (asset : String)
  | alpha
  | alphaStrategy (strategy : String)
  | directional
  | long
  | short

/-- What a candidate takes of a budget. -/
def Budget.weight (budget : Budget) (c : UnifiedPaperCandidate) : ℚ :=
  match budget with
  | .total => c.capitalRequiredUsd
  | .venue v => if v ∈ c.venues then venueShare c else 0
  | .asset a => if c.asset = a then c.capitalRequiredUsd else 0
  | .alpha => if c.family = .alpha then c.capitalRequiredUsd else 0
  | .alphaStrategy strategy =>
    if c.family = .alpha ∧ c.strategy = strategy then c.capitalRequiredUsd else 0
  | .directional => if c.exposureKind = .marketNeutral then 0 else c.capitalRequiredUsd
  | .long => if c.exposureKind = .directionalLong then c.capitalRequiredUsd else 0
  | .short => if c.exposureKind = .directionalShort then c.capitalRequiredUsd else 0

/-- What a candidate of any family takes under the name of a strategy. -/
def strategyWeight (strategy : String) (c : UnifiedPaperCandidate) : ℚ :=
  if c.strategy = strategy then c.capitalRequiredUsd else 0

/-- The size of a budget. -/
def Budget.cap (settings : AllocatorSettings) (limits : AllocationLimits) : Budget → ℚ
  | .total => limits.totalCapitalUsd
  | .venue _ => limits.venueCap
  | .asset _ => limits.assetCap
  | .alpha => limits.totalCapitalUsd * settings.maxAlphaFraction
  | .alphaStrategy _ => limits.totalCapitalUsd * settings.maxAlphaStrategyFraction
  | .directional => limits.totalCapitalUsd * settings.maxDirectionalFraction
  | .long => limits.totalCapitalUsd * settings.maxSameDirectionFraction
  | .short => limits.totalCapitalUsd * settings.maxSameDirectionFraction

/-- A share of a candidate's capital is positive. -/
theorem venueShare_nonneg (c : UnifiedPaperCandidate) : 0 ≤ venueShare c :=
  div_nonneg c.capitalRequiredUsd.2.le (Nat.cast_nonneg _)

theorem Budget.weight_nonneg (budget : Budget) (c : UnifiedPaperCandidate) :
    0 ≤ budget.weight c := by
  have hcapital : (0 : ℚ) ≤ c.capitalRequiredUsd := c.capitalRequiredUsd.2.le
  cases budget with
  | total => exact hcapital
  | venue v =>
    rw [weight]
    split
    · exact venueShare_nonneg c
    · exact le_rfl
  | directional =>
    rw [weight]
    split
    · exact le_rfl
    · exact hcapital
  | _ =>
    rw [weight]
    split
    · exact hcapital
    · exact le_rfl

theorem strategyWeight_nonneg (strategy : String) (c : UnifiedPaperCandidate) :
    0 ≤ strategyWeight strategy c := by
  rw [strategyWeight]
  split
  · exact c.capitalRequiredUsd.2.le
  · exact le_rfl

/-- The alpha capital of a strategy is part of all the capital under its name. -/
theorem load_alphaStrategy_le (strategy : String) (items : List UnifiedPaperCandidate) :
    load (Budget.alphaStrategy strategy).weight items ≤ load (strategyWeight strategy) items := by
  refine List.sum_le_sum (fun c _ => ?_)
  by_cases hname : c.strategy = strategy
  · by_cases hfamily : c.family = .alpha
    · rw [Budget.weight, strategyWeight, if_pos ⟨hfamily, hname⟩, if_pos hname]
    · rw [Budget.weight, if_neg (fun h => hfamily h.1)]
      exact strategyWeight_nonneg strategy c
  · rw [Budget.weight, if_neg (fun h => hname h.2)]
    exact strategyWeight_nonneg strategy c

section Loop

variable (settings : AllocatorSettings) (limits : AllocationLimits)

/-- A selection is within every budget, up to the tolerance of the comparisons. -/
def FitsBudgets (items : List UnifiedPaperCandidate) : Prop :=
  ∀ budget : Budget, load budget.weight items ≤ budget.cap settings limits + budgetTolerance

/-- A candidate that cannot be added to a selection: the selection is full, a conflict key
    is taken, or a budget would be exceeded. -/
def Violates (items : List UnifiedPaperCandidate) (c : UnifiedPaperCandidate) : Prop :=
  limits.allocationLimit ≤ items.length
    ∨ (∃ item ∈ items, ¬ KeysDisjoint item c)
    ∨ ¬ FitsBudgets settings limits (items ++ [c])

/-- A candidate the loop refuses: one that violates a limit, or an alpha candidate for
    which the capital of all families under its strategy's name leaves no room. -/
def Blocked (items : List UnifiedPaperCandidate) (c : UnifiedPaperCandidate) : Prop :=
  Violates settings limits items c
    ∨ c.family = .alpha ∧ limits.totalCapitalUsd * settings.maxAlphaStrategyFraction
        + budgetTolerance < load (strategyWeight c.strategy) (items ++ [c])

variable {settings limits}

/-- A candidate over a budget violates a limit. -/
theorem Violates.of_budget {items : List UnifiedPaperCandidate} {c : UnifiedPaperCandidate}
    (budget : Budget) (h : budget.cap settings limits + budgetTolerance
      < load budget.weight items + budget.weight c) : Violates settings limits items c := by
  refine Or.inr (Or.inr (fun hwithin => ?_))
  have hle := hwithin budget
  rw [load_snoc] at hle
  exact absurd h (not_lt.mpr hle)

/-- **Refused for good.** What blocks a candidate still blocks it when more is accepted. -/
theorem Blocked.append {items : List UnifiedPaperCandidate} {c : UnifiedPaperCandidate}
    (h : Blocked settings limits items c) (more : List UnifiedPaperCandidate) :
    Blocked settings limits (items ++ more) c := by
  rcases h with (hcount | ⟨item, hitem, hkey⟩ | hbudget) | ⟨hfamily, hstrategy⟩
  · refine Or.inl (Or.inl ?_)
    rw [List.length_append]
    push_cast
    omega
  · exact Or.inl (Or.inr (Or.inl ⟨item, List.mem_append_left _ hitem, hkey⟩))
  · refine Or.inl (Or.inr (Or.inr (fun hwithin => hbudget (fun budget => ?_))))
    refine le_trans ?_ (hwithin budget)
    rw [load_snoc, load_snoc]
    exact add_le_add_left (load_le_append budget.weight_nonneg items more) _
  · refine Or.inr ⟨hfamily, lt_of_lt_of_le hstrategy ?_⟩
    rw [load_snoc, load_snoc]
    exact add_le_add_left (load_le_append (strategyWeight_nonneg c.strategy) items more) _

/-! ### The running totals -/

/-- The accumulators of the loop are the loads of the accepted candidates. -/
structure Tallies (settings : AllocatorSettings) (limits : AllocationLimits)
    (items : List UnifiedPaperCandidate) (s : AllocationState) : Prop where
  allocations : s.allocations = items.map UnifiedPaperCandidate.toAllocation
  conflicts : s.usedConflicts = items.flatMap UnifiedPaperCandidate.conflictKeys
  total : s.allocated = load Budget.total.weight items
  venue : ∀ venue, (s.venueUsed.get? venue).getD 0 = load (Budget.venue venue).weight items
  asset : ∀ asset, (s.assetUsed.get? asset).getD 0 = load (Budget.asset asset).weight items
  alpha : s.overlay.alphaUsed = load Budget.alpha.weight items
  strategy : ∀ strategy,
    (s.overlay.strategyUsed.get? strategy).getD 0 = load (strategyWeight strategy) items
  directional : s.overlay.directionalUsed = load Budget.directional.weight items
  long : s.overlay.longUsed = load Budget.long.weight items
  short : s.overlay.shortUsed = load Budget.short.weight items
  caps : s.overlay.total = limits.totalCapitalUsd
    ∧ s.overlay.maxAlphaFraction = settings.maxAlphaFraction
    ∧ s.overlay.maxDirectionalFraction = settings.maxDirectionalFraction
    ∧ s.overlay.maxSameDirectionFraction = settings.maxSameDirectionFraction
    ∧ s.overlay.maxAlphaStrategyFraction = settings.maxAlphaStrategyFraction

/-- A decision leaves the totals. -/
theorem Tallies.afterDecision {items : List UnifiedPaperCandidate} {s : AllocationState}
    (h : Tallies settings limits items s) (c : UnifiedPaperCandidate) :
    Tallies settings limits items { s with overlay := s.overlay.afterDecision c } := by
  unfold PortfolioRiskOverlay.afterDecision
  by_cases hread : c.family = .alpha
      ∧ ¬ PortfolioRiskOverlay.exceeds s.overlay.alphaUsed c.capitalRequiredUsd s.overlay.total
        s.overlay.maxAlphaFraction
  · rw [if_pos hread]
    refine { h with strategy := fun strategy => ?_ }
    show ((s.overlay.strategyUsed.add c.strategy 0).get? strategy).getD 0 = _
    rw [Dict.getD_get?_add, ite_self, add_zero, h.strategy]
  · rw [if_neg hread]
    exact h

/-- Skipping leaves the totals. -/
theorem Tallies.skip {items : List UnifiedPaperCandidate} {s : AllocationState}
    (h : Tallies settings limits items s) (c : UnifiedPaperCandidate) (reason : String) :
    Tallies settings limits items (s.skip c s.overlay reason) :=
  { h with }

/-- Accepting a candidate adds its weights to the totals, if its venues are charged by them.
    Every tally is the sum of one weight over the accepted candidates, and accepting adds the
    weight of one more. -/
theorem Tallies.acceptWith {items : List UnifiedPaperCandidate} {s : AllocationState}
    (h : Tallies settings limits items s) (c : UnifiedPaperCandidate) {spent : Dict String ℚ}
    (hspent : ∀ venue,
      (spent.get? venue).getD 0 = load (Budget.venue venue).weight (items ++ [c])) :
    Tallies settings limits (items ++ [c])
      { s.accept c (s.overlay.charge c) with venueUsed := spent } where
  allocations := by
    show s.allocations ++ [c.toAllocation] = _
    rw [h.allocations, List.map_append, List.map_singleton]
  conflicts := by
    show s.usedConflicts ++ c.conflictKeys = _
    rw [h.conflicts, List.flatMap_append, List.flatMap_singleton]
  total := by
    rw [load_snoc, ← h.total]
    rfl
  venue := hspent
  asset asset := by
    show ((s.assetUsed.add c.asset c.capitalRequiredUsd).get? asset).getD 0 = _
    rw [Dict.getD_get?_add, h.asset, load_snoc]
    rfl
  alpha := by
    show (if c.family = .alpha then s.overlay.alphaUsed + c.capitalRequiredUsd
      else s.overlay.alphaUsed) = _
    rw [load_snoc, ← h.alpha, Budget.weight]
    -- the budget of the alpha family takes the capital of alpha candidates only
    split
    · rfl
    · rw [add_zero]
  strategy strategy := by
    show ((s.overlay.strategyUsed.add c.strategy c.capitalRequiredUsd).get? strategy).getD 0 = _
    rw [Dict.getD_get?_add, h.strategy, load_snoc]
    rfl
  directional := by
    show (if c.exposureKind = .marketNeutral then s.overlay.directionalUsed
      else s.overlay.directionalUsed + c.capitalRequiredUsd) = _
    rw [load_snoc, ← h.directional, Budget.weight]
    -- the directional budget takes that of every candidate that is not neutral
    split
    · rw [add_zero]
    · rfl
  long := by
    show (if c.exposureKind = .directionalLong then s.overlay.longUsed + c.capitalRequiredUsd
      else s.overlay.longUsed) = _
    rw [load_snoc, ← h.long, Budget.weight]
    split
    · rfl
    · rw [add_zero]
  short := by
    show (if c.exposureKind = .directionalShort then s.overlay.shortUsed + c.capitalRequiredUsd
      else s.overlay.shortUsed) = _
    rw [load_snoc, ← h.short, Budget.weight]
    split
    · rfl
    · rw [add_zero]
  caps := h.caps

/-- Accepting a candidate that lists no venue twice adds its weights to the totals. -/
theorem Tallies.accept {items : List UnifiedPaperCandidate} {s : AllocationState}
    (h : Tallies settings limits items s) {c : UnifiedPaperCandidate} (hvenues : c.venues.Nodup) :
    Tallies settings limits (items ++ [c]) (s.accept c (s.overlay.charge c)) := by
  refine h.acceptWith c (fun venue => ?_)
  rw [Dict.getD_get?_foldl_add hvenues, h.venue, load_snoc]
  rfl

/-! ### One iteration -/

/-- What the gates ahead of the overlay refuse is blocked. -/
theorem Tallies.blocked_of_refusal {items : List UnifiedPaperCandidate} {s : AllocationState}
    (h : Tallies settings limits items s) {c : UnifiedPaperCandidate} {reason : String}
    (hrefusal : s.refusal limits c = some reason) : Blocked settings limits items c := by
  unfold AllocationState.refusal at hrefusal
  dsimp only at hrefusal
  split_ifs at hrefusal with hcount hkey htotal hvenue hasset
  · rw [h.allocations, List.length_map] at hcount
    exact Or.inl (Or.inl hcount)
  · obtain ⟨key, hkey, hused⟩ := hkey
    rw [h.conflicts, List.mem_flatMap] at hused
    obtain ⟨item, hitem, hshared⟩ := hused
    exact Or.inl (Or.inr (Or.inl ⟨item, hitem, fun hdisjoint => hdisjoint hshared hkey⟩))
  · rw [h.total] at htotal
    exact Or.inl (Violates.of_budget Budget.total htotal)
  · obtain ⟨venue, hmem, hover⟩ := hvenue
    rw [h.venue] at hover
    refine Or.inl (Violates.of_budget (Budget.venue venue) ?_)
    rw [Budget.weight, if_pos hmem]
    exact hover
  · rw [h.asset] at hasset
    refine Or.inl (Violates.of_budget (Budget.asset c.asset) ?_)
    rw [Budget.weight, if_pos rfl]
    exact hasset

/-- What the overlay rejects is blocked. -/
theorem Tallies.blocked_of_rejection {items : List UnifiedPaperCandidate} {s : AllocationState}
    (h : Tallies settings limits items s) {c : UnifiedPaperCandidate} {reason : String}
    (hrejection : s.overlay.rejection c = some reason) : Blocked settings limits items c := by
  obtain ⟨htotal, halpha, hdirectional, hsame, hstrategy⟩ := h.caps
  unfold PortfolioRiskOverlay.rejection PortfolioRiskOverlay.exceeds at hrejection
  dsimp only at hrejection
  rw [htotal, halpha, hdirectional, hsame, hstrategy, h.alpha, h.directional, h.long, h.short,
    h.strategy] at hrejection
  split_ifs at hrejection with hpositive hfamily hname hkind hlong hshort
  · exact absurd c.capitalRequiredUsd.2 (not_lt.mpr hpositive)
  · refine Or.inl (Violates.of_budget Budget.alpha ?_)
    rw [Budget.weight, if_pos hfamily.1]
    exact hfamily.2
  · -- The overlay counts the capital of all families under the strategy's name.
    refine Or.inr ⟨hname.1, ?_⟩
    rw [load_snoc, strategyWeight, if_pos rfl]
    exact hname.2
  · refine Or.inl (Violates.of_budget Budget.directional ?_)
    rw [Budget.weight, if_neg hkind.1]
    exact hkind.2
  · refine Or.inl (Violates.of_budget Budget.long ?_)
    rw [Budget.weight, if_pos hlong.1]
    exact hlong.2
  · refine Or.inl (Violates.of_budget Budget.short ?_)
    rw [Budget.weight, if_pos hshort.1]
    exact hshort.2

/-- What passes the gates leaves the selection within the count, without a shared key and
    within the total, venue and asset budgets. -/
theorem Tallies.of_refusal_none {items : List UnifiedPaperCandidate} {s : AllocationState}
    (h : Tallies settings limits items s) {c : UnifiedPaperCandidate}
    (hrefusal : s.refusal limits c = none) :
    (items.length : ℤ) < limits.allocationLimit
      ∧ (∀ item ∈ items, KeysDisjoint item c)
      ∧ load Budget.total.weight items + c.capitalRequiredUsd
          ≤ limits.totalCapitalUsd + budgetTolerance
      ∧ (∀ venue ∈ c.venues, load (Budget.venue venue).weight items + venueShare c
          ≤ limits.venueCap + budgetTolerance)
      ∧ load (Budget.asset c.asset).weight items + c.capitalRequiredUsd
          ≤ limits.assetCap + budgetTolerance := by
  unfold AllocationState.refusal at hrefusal
  dsimp only at hrefusal
  split_ifs at hrefusal with hcount hkey htotal hvenue hasset
  rw [h.allocations, List.length_map] at hcount
  rw [h.total] at htotal
  rw [h.asset] at hasset
  push Not at hvenue hkey
  refine ⟨not_le.mp hcount, fun item hitem key hshared hmem => ?_, not_lt.mp htotal,
    fun venue hmem => ?_, not_lt.mp hasset⟩
  · refine hkey key hmem ?_
    rw [h.conflicts]
    exact List.mem_flatMap.mpr ⟨item, hitem, hshared⟩
  · rw [← h.venue]
    exact hvenue venue hmem

/-- What the overlay does not reject fits into the budgets it keeps. -/
theorem Tallies.of_rejection_none {items : List UnifiedPaperCandidate} {s : AllocationState}
    (h : Tallies settings limits items s) {c : UnifiedPaperCandidate}
    (hrejection : s.overlay.rejection c = none) :
    (c.family = .alpha → load Budget.alpha.weight items + c.capitalRequiredUsd
        ≤ limits.totalCapitalUsd * settings.maxAlphaFraction + budgetTolerance)
      ∧ (c.family = .alpha → load (strategyWeight c.strategy) items + c.capitalRequiredUsd
        ≤ limits.totalCapitalUsd * settings.maxAlphaStrategyFraction + budgetTolerance)
      ∧ (c.exposureKind ≠ .marketNeutral → load Budget.directional.weight items
        + c.capitalRequiredUsd
        ≤ limits.totalCapitalUsd * settings.maxDirectionalFraction + budgetTolerance)
      ∧ (c.exposureKind = .directionalLong → load Budget.long.weight items + c.capitalRequiredUsd
        ≤ limits.totalCapitalUsd * settings.maxSameDirectionFraction + budgetTolerance)
      ∧ (c.exposureKind = .directionalShort → load Budget.short.weight items
        + c.capitalRequiredUsd
        ≤ limits.totalCapitalUsd * settings.maxSameDirectionFraction + budgetTolerance) := by
  obtain ⟨htotal, halpha, hdirectional, hsame, hstrategy⟩ := h.caps
  unfold PortfolioRiskOverlay.rejection PortfolioRiskOverlay.exceeds at hrejection
  dsimp only at hrejection
  rw [htotal, halpha, hdirectional, hsame, hstrategy, h.alpha, h.directional, h.long, h.short,
    h.strategy] at hrejection
  split_ifs at hrejection with hpositive hfamily hname hkind hlong hshort
  exact ⟨fun he => not_lt.mp (fun hlt => hfamily ⟨he, hlt⟩),
    fun he => not_lt.mp (fun hlt => hname ⟨he, hlt⟩),
    fun he => not_lt.mp (fun hlt => hkind ⟨he, hlt⟩),
    fun he => not_lt.mp (fun hlt => hlong ⟨he, hlt⟩),
    fun he => not_lt.mp (fun hlt => hshort ⟨he, hlt⟩)⟩

/-- **Gate soundness.** A selection within its budgets stays so when a candidate that neither
    the gates nor the overlay refuse is added. -/
theorem Tallies.fits {items : List UnifiedPaperCandidate} {s : AllocationState}
    (h : Tallies settings limits items s) (hfits : FitsBudgets settings limits items)
    {c : UnifiedPaperCandidate} (hrefusal : s.refusal limits c = none)
    (hrejection : s.overlay.rejection c = none) :
    FitsBudgets settings limits (items ++ [c]) := by
  obtain ⟨-, -, htotal, hvenue, hasset⟩ := h.of_refusal_none hrefusal
  obtain ⟨halpha, hstrategy, hdirectional, hlong, hshort⟩ := h.of_rejection_none hrejection
  intro budget
  rw [load_snoc]
  -- A budget the candidate does not count against stays as it is.
  have hkept : budget.weight c = 0 →
      load budget.weight items + budget.weight c ≤ budget.cap settings limits + budgetTolerance := by
    intro hzero
    rw [hzero, add_zero]
    exact hfits budget
  cases budget with
  | total => exact htotal
  | venue v =>
    by_cases hmem : v ∈ c.venues
    · rw [Budget.weight, if_pos hmem]
      exact hvenue v hmem
    · exact hkept (if_neg hmem)
  | asset a =>
    by_cases heq : c.asset = a
    · rw [Budget.weight, if_pos heq, ← heq]
      exact hasset
    · exact hkept (if_neg heq)
  | alpha =>
    by_cases hfamily : c.family = .alpha
    · rw [Budget.weight, if_pos hfamily]
      exact halpha hfamily
    · exact hkept (if_neg hfamily)
  | alphaStrategy name =>
    by_cases hname : c.family = .alpha ∧ c.strategy = name
    · rw [Budget.weight, if_pos hname, ← hname.2]
      calc load (Budget.alphaStrategy c.strategy).weight items + c.capitalRequiredUsd
          ≤ load (strategyWeight c.strategy) items + c.capitalRequiredUsd :=
            add_le_add_left (load_alphaStrategy_le c.strategy items) _
        _ ≤ limits.totalCapitalUsd * settings.maxAlphaStrategyFraction + budgetTolerance :=
            hstrategy hname.1
    · exact hkept (if_neg hname)
  | directional =>
    by_cases hkind : c.exposureKind = .marketNeutral
    · exact hkept (if_pos hkind)
    · rw [Budget.weight, if_neg hkind]
      exact hdirectional hkind
  | long =>
    by_cases hkind : c.exposureKind = .directionalLong
    · rw [Budget.weight, if_pos hkind]
      exact hlong hkind
    · exact hkept (if_neg hkind)
  | short =>
    by_cases hkind : c.exposureKind = .directionalShort
    · rw [Budget.weight, if_pos hkind]
      exact hshort hkind
    · exact hkept (if_neg hkind)

/-! ### The whole loop -/

/-- What the loop maintains over the candidates seen: each of them is accepted or refused,
    the accepted ones respect every limit, and the refused ones are blocked. -/
structure GreedySplit (settings : AllocatorSettings) (limits : AllocationLimits)
    (seen accepted refused : List UnifiedPaperCandidate) (s : AllocationState) : Prop where
  split : (accepted ++ refused).Perm seen
  tallies : Tallies settings limits accepted s
  skipped : s.skipped.map SkippedCandidate.candidateId
    = refused.map UnifiedPaperCandidate.candidateId
  count : (accepted.length : ℤ) ≤ limits.allocationLimit
  fits : FitsBudgets settings limits accepted
  disjoint : accepted.Pairwise KeysDisjoint
  blocked : ∀ c ∈ refused, Blocked settings limits accepted c

/-- A blocked candidate can be put with the refused ones. -/
theorem GreedySplit.refuse {seen accepted refused : List UnifiedPaperCandidate}
    {s : AllocationState} (h : GreedySplit settings limits seen accepted refused s)
    {c : UnifiedPaperCandidate} (hblocked : Blocked settings limits accepted c)
    {s' : AllocationState} (htallies : Tallies settings limits accepted s')
    (hskipped : s'.skipped.map SkippedCandidate.candidateId
      = s.skipped.map SkippedCandidate.candidateId ++ [c.candidateId]) :
    GreedySplit settings limits (seen ++ [c]) accepted (refused ++ [c]) s' where
  split := by
    rw [← List.append_assoc]
    exact h.split.append_right [c]
  tallies := htallies
  skipped := by
    rw [hskipped, h.skipped, List.map_append, List.map_singleton]
  count := h.count
  fits := h.fits
  disjoint := h.disjoint
  blocked d hd := by
    rcases List.mem_append.mp hd with hd | hd
    · exact h.blocked d hd
    · rw [List.mem_singleton.mp hd]
      exact hblocked

/-- **Step lemma.** An iteration never raises; it accepts the candidate or refuses it. The
    checks of the source are passed one after another: the refusal of the allocator, the
    rejection of the overlay, and then the acceptance that charges every tally. -/
theorem GreedySplit.step {seen accepted refused : List UnifiedPaperCandidate}
    {s : AllocationState} (h : GreedySplit settings limits seen accepted refused s)
    {c : UnifiedPaperCandidate} (hvenues : c.venues.Nodup) :
    ∃ s', s.step limits c = .ok s' ∧ ∃ accepted' refused',
      GreedySplit settings limits (seen ++ [c]) accepted' refused' s' := by
  unfold AllocationState.step
  cases hrefusal : s.refusal limits c with
  -- refused by a limit of the allocator
  | some reason =>
    refine ⟨_, rfl, accepted, refused ++ [c],
      h.refuse (h.tallies.blocked_of_refusal hrefusal) (h.tallies.skip c reason) ?_⟩
    exact List.map_append
  | none =>
    cases hrejection : s.overlay.rejection c with
    -- rejected by the overlay, which leaves its tallies as they are
    | some reason =>
      have hdecision : s.overlay.decision c = ⟨c.candidateId, false, some reason⟩ := by
        rw [PortfolioRiskOverlay.decision, hrejection]
      simp only [hdecision, Bool.false_eq_true, if_false]
      refine ⟨_, rfl, accepted, refused ++ [c],
        h.refuse (h.tallies.blocked_of_rejection hrejection)
          ((h.tallies.afterDecision c).skip c reason) ?_⟩
      exact List.map_append
    -- accepted: every budget still fits and the keys are free
    | none =>
      have haccepted : (s.overlay.decision c).accepted = true := by
        rw [PortfolioRiskOverlay.decision, hrejection]
      simp only [haccepted, if_true, s.overlay.register_of_accepted c haccepted]
      obtain ⟨hcount, hkeys, -⟩ := h.tallies.of_refusal_none hrefusal
      refine ⟨_, rfl, accepted ++ [c], refused, ?_⟩
      refine
        { split := ?_
          tallies := ((h.tallies.afterDecision c).afterDecision c).accept hvenues
          skipped := h.skipped
          count := ?_
          fits := h.tallies.fits h.fits hrefusal hrejection
          disjoint := ?_
          blocked := fun d hd => (h.blocked d hd).append [c] }
      · calc ((accepted ++ [c]) ++ refused).Perm ((accepted ++ refused) ++ [c]) := by
              rw [List.append_assoc, List.append_assoc]
              exact List.perm_append_comm.append_left accepted
          _ |>.Perm (seen ++ [c]) := h.split.append_right [c]
      · rw [List.length_append, List.length_singleton]
        push_cast
        omega
      · refine List.pairwise_append.mpr ⟨h.disjoint, List.pairwise_singleton _ c, ?_⟩
        intro item hitem d hd
        rw [List.mem_singleton.mp hd]
        exact hkeys item hitem

end Loop

/-! ### Plans -/

/-- `UnifiedPaperAllocatorService.allocate`, once the candidate families have given their rows:
    the same ranking, constraints and loop. -/
def allocate (settings : AllocatorSettings) (rows : List UnifiedPaperCandidate)
    (familyFailures : List FamilyFailure) (totalCapitalUsd : ℚ)
    (maxVenueFraction maxAssetFraction : Option ℚ) (maxAllocations : Option ℤ) (now : Instant) :
    Except Raised UnifiedPaperAllocationPlan :=
  allocatePrequalifiedCandidates settings rows familyFailures totalCapitalUsd maxVenueFraction
    maxAssetFraction maxAllocations now

/-- The limits of a plan. -/
def planLimits (settings : AllocatorSettings) (totalCapitalUsd : ℚ)
    (maxVenueFraction maxAssetFraction : Option ℚ) (maxAllocations : Option ℤ) :
    AllocationLimits where
  totalCapitalUsd := totalCapitalUsd
  venueCap := totalCapitalUsd * orDefault maxVenueFraction settings.allocatorMaxVenueFraction
  assetCap := totalCapitalUsd * orDefault maxAssetFraction settings.allocatorMaxAssetFraction
  allocationLimit := settings.allocationLimit maxAllocations

/-- A positive capital, and settings and overrides that are all valid. -/
structure ValidRequest (settings : AllocatorSettings) (totalCapitalUsd : ℚ)
    (maxVenueFraction maxAssetFraction : Option ℚ) (maxAllocations : Option ℤ) : Prop where
  total : 0 < totalCapitalUsd
  venue : validFraction (orDefault maxVenueFraction settings.allocatorMaxVenueFraction) = true
  asset : validFraction (orDefault maxAssetFraction settings.allocatorMaxAssetFraction) = true
  count : 0 < settings.allocationLimit maxAllocations
  alpha : validFraction settings.maxAlphaFraction = true
  directional : validFraction settings.maxDirectionalFraction = true
  sameDirection : validFraction settings.maxSameDirectionFraction = true
  alphaStrategy : validFraction settings.maxAlphaStrategyFraction = true

/-- A plan puts each candidate either into the allocations or into the skipped ones, its
    allocations respect every limit and have disjoint conflict keys, and each skipped
    candidate is refusable with what is allocated. -/
def RespectsLimits (settings : AllocatorSettings) (limits : AllocationLimits)
    (refusable : List UnifiedPaperCandidate → UnifiedPaperCandidate → Prop)
    (candidates : List UnifiedPaperCandidate) (plan : UnifiedPaperAllocationPlan) : Prop :=
  ∃ accepted refused : List UnifiedPaperCandidate,
    (accepted ++ refused).Perm candidates
      ∧ plan.allocations = accepted.map UnifiedPaperCandidate.toAllocation
      ∧ plan.skipped.map SkippedCandidate.candidateId
        = refused.map UnifiedPaperCandidate.candidateId
      ∧ (accepted.length : ℤ) ≤ limits.allocationLimit
      ∧ FitsBudgets settings limits accepted
      ∧ accepted.Pairwise KeysDisjoint
      ∧ ∀ c ∈ refused, refusable accepted c

section Plan

variable {settings : AllocatorSettings} {totalCapitalUsd : ℚ}
  {maxVenueFraction maxAssetFraction : Option ℚ} {maxAllocations : Option ℤ}

/-- Nothing exceeds a budget of a valid request. -/
theorem ValidRequest.cap_nonneg
    (h : ValidRequest settings totalCapitalUsd maxVenueFraction maxAssetFraction maxAllocations)
    (budget : Budget) : 0 ≤ budget.cap settings
      (planLimits settings totalCapitalUsd maxVenueFraction maxAssetFraction maxAllocations) := by
  have hfraction : ∀ {fraction : ℚ}, validFraction fraction = true →
      0 ≤ totalCapitalUsd * fraction := by
    intro fraction hvalid
    have hbounds : 0 < fraction ∧ fraction ≤ 1 := of_decide_eq_true hvalid
    exact mul_nonneg h.total.le hbounds.1.le
  cases budget with
  | total => exact h.total.le
  | venue v => exact hfraction h.venue
  | asset a => exact hfraction h.asset
  | alpha => exact hfraction h.alpha
  | alphaStrategy name => exact hfraction h.alphaStrategy
  | directional => exact hfraction h.directional
  | long => exact hfraction h.sameDirection
  | short => exact hfraction h.sameDirection

/-- The overlay of a valid request has charged nothing yet. -/
theorem ValidRequest.init
    (h : ValidRequest settings totalCapitalUsd maxVenueFraction maxAssetFraction maxAllocations) :
    ∃ overlay, PortfolioRiskOverlay.init settings totalCapitalUsd = .ok overlay
      ∧ Tallies settings
        (planLimits settings totalCapitalUsd maxVenueFraction maxAssetFraction maxAllocations) []
        (AllocationState.start overlay) := by
  have hcheck : ∀ {name : String} {fraction : ℚ}, validFraction fraction = true →
      PortfolioRiskOverlay.checkFraction name fraction = .ok () := by
    intro name fraction hvalid
    rw [PortfolioRiskOverlay.checkFraction, if_pos (of_decide_eq_true hvalid)]
  rw [PortfolioRiskOverlay.init, if_neg (not_le.mpr h.total), hcheck h.alpha,
    hcheck h.directional, hcheck h.sameDirection, hcheck h.alphaStrategy]
  exact ⟨_, rfl, ⟨rfl, rfl, rfl, fun _ => rfl, fun _ => rfl, rfl, fun _ => rfl, rfl, rfl, rfl,
    ⟨rfl, rfl, rfl, rfl, rfl⟩⟩⟩

/-- **Greedy plan.** Every valid request gets a plan, whose allocations respect every limit and
    whose skipped candidates are blocked by what is allocated. Both entries of the allocator
    share the loop, so one run is followed, with the tallies, the accepted and the refused
    candidates as its invariant. -/
theorem allocate_respectsLimits
    (h : ValidRequest settings totalCapitalUsd maxVenueFraction maxAssetFraction maxAllocations)
    {candidates : List UnifiedPaperCandidate} (hvenues : ∀ c ∈ candidates, c.venues.Nodup)
    (familyFailures : List FamilyFailure) (observedAt : Instant) :
    (∃ plan, allocatePrequalifiedCandidates settings candidates familyFailures totalCapitalUsd
        maxVenueFraction maxAssetFraction maxAllocations observedAt = .ok plan
      ∧ RespectsLimits settings
        (planLimits settings totalCapitalUsd maxVenueFraction maxAssetFraction maxAllocations)
        (Blocked settings (planLimits settings totalCapitalUsd maxVenueFraction maxAssetFraction
          maxAllocations)) candidates plan)
    ∧ ∃ plan, allocate settings candidates familyFailures totalCapitalUsd maxVenueFraction
        maxAssetFraction maxAllocations observedAt = .ok plan
      ∧ RespectsLimits settings
        (planLimits settings totalCapitalUsd maxVenueFraction maxAssetFraction maxAllocations)
        (Blocked settings (planLimits settings totalCapitalUsd maxVenueFraction maxAssetFraction
          maxAllocations)) candidates plan := by
  suffices hplan : ∃ plan, allocatePrequalifiedCandidates settings candidates familyFailures
      totalCapitalUsd maxVenueFraction maxAssetFraction maxAllocations observedAt = .ok plan
      ∧ RespectsLimits settings
        (planLimits settings totalCapitalUsd maxVenueFraction maxAssetFraction maxAllocations)
        (Blocked settings (planLimits settings totalCapitalUsd maxVenueFraction maxAssetFraction
          maxAllocations)) candidates plan from ⟨hplan, hplan⟩
  -- the run starts with empty tallies, from a request whose fractions are valid
  obtain ⟨overlay, hoverlay, htallies⟩ := h.init
  have hstart : GreedySplit settings
      (planLimits settings totalCapitalUsd maxVenueFraction maxAssetFraction maxAllocations)
      [] [] [] (AllocationState.start overlay) :=
    { split := List.Perm.refl _
      tallies := htallies
      skipped := rfl
      count := h.count.le
      fits := fun budget => add_nonneg (h.cap_nonneg budget) (by norm_num [budgetTolerance])
      disjoint := List.Pairwise.nil
      blocked := fun c hc => (by cases hc) }
  obtain ⟨final, hfinal, accepted, refused, hsplit⟩ := foldlM_total
    (P := fun seen s => ∃ accepted refused, GreedySplit settings (planLimits settings
      totalCapitalUsd maxVenueFraction maxAssetFraction maxAllocations) seen accepted refused s)
    (fun seen s c (hc : c ∈ candidates.insertionSort ranksBefore) hs => by
      obtain ⟨accepted, refused, hs⟩ := hs
      exact hs.step (hvenues c ((List.mem_insertionSort _).mp hc)))
    ⟨[], [], hstart⟩
  refine ⟨final.plan familyFailures totalCapitalUsd observedAt
    (candidates.insertionSort ranksBefore).length, ?_, accepted, refused, ?_⟩
  -- a valid request passes the checks before the loop
  · have hconstraints : ¬ (¬ validFraction (orDefault maxVenueFraction
        settings.allocatorMaxVenueFraction) = true
        ∨ ¬ validFraction (orDefault maxAssetFraction settings.allocatorMaxAssetFraction) = true
        ∨ settings.allocationLimit maxAllocations ≤ 0) := by
      rintro (hvenue | hasset | hcount)
      · exact hvenue h.venue
      · exact hasset h.asset
      · exact absurd h.count (not_lt.mpr hcount)
    unfold allocatePrequalifiedCandidates
    rw [if_neg (not_le.mpr h.total)]
    dsimp only
    rw [if_neg hconstraints, hoverlay]
    show ((candidates.insertionSort ranksBefore).foldlM (AllocationState.step (planLimits settings
      totalCapitalUsd maxVenueFraction maxAssetFraction maxAllocations))
      (AllocationState.start overlay) >>= _) = _
    rw [hfinal]
    rfl
  · exact ⟨hsplit.split.trans (List.perm_insertionSort _ _), hsplit.tallies.allocations,
      hsplit.skipped, hsplit.count, hsplit.fits, hsplit.disjoint, hsplit.blocked⟩

end Plan

/-! ### A strategy name of two families -/

/-- A structural candidate of 300, ranked first, under the name of an alpha strategy. -/
def structuralMomentum : UnifiedPaperCandidate :=
  { Sample.candidate "structural" "BTC-USD" .marketNeutral .spot 300 with
    family := .coreCex
    expectedReturnOnReservedCapital := 2 }

/-- An alpha candidate of 100 of that strategy. -/
def alphaMomentum : UnifiedPaperCandidate :=
  Sample.candidate "alpha" "ETH-USD" .marketNeutral .spot 100

/-- A request for 1000 whose venue and asset fractions do not bind. -/
theorem validRequest_thousand : ValidRequest defaultFractions 1000 (some 1) (some 1) (some 10) := by
  constructor <;> decide +kernel

/-- The plan that a thousand dollars get for the two candidates, both of one strategy, keeps the
    limits of the request. -/
theorem allocate_respectsLimits_thousand :
    ∃ plan, allocate defaultFractions [structuralMomentum, alphaMomentum] [] 1000 (some 1)
        (some 1) (some 10) 0 = .ok plan
      ∧ RespectsLimits defaultFractions
        (planLimits defaultFractions 1000 (some 1) (some 1) (some 10))
        (Blocked defaultFractions (planLimits defaultFractions 1000 (some 1) (some 1) (some 10)))
        [structuralMomentum, alphaMomentum] plan := by
  refine (allocate_respectsLimits validRequest_thousand ?_ [] 0).2
  intro c hc
  rcases List.mem_cons.mp hc with rfl | hc
  · decide
  · rw [List.mem_singleton.mp hc]
    decide

/-- Both candidates together are within every budget. -/
theorem fitsBudgets_both : FitsBudgets defaultFractions
    (planLimits defaultFractions 1000 (some 1) (some 1) (some 10))
    [structuralMomentum, alphaMomentum] := by
  have hload : ∀ budget : Budget, load budget.weight [structuralMomentum, alphaMomentum]
      = budget.weight structuralMomentum + budget.weight alphaMomentum := by
    intro budget
    simp [load]
  have hunused : ∀ budget : Budget, budget.weight structuralMomentum = 0 →
      budget.weight alphaMomentum = 0 → load budget.weight [structuralMomentum, alphaMomentum]
        ≤ budget.cap defaultFractions (planLimits defaultFractions 1000 (some 1) (some 1) (some 10))
          + budgetTolerance := by
    intro budget hstructural halpha
    rw [hload, hstructural, halpha, add_zero]
    exact add_nonneg (validRequest_thousand.cap_nonneg budget) (by norm_num [budgetTolerance])
  -- Only the budgets of the common venue, asset and strategy see the candidates.
  intro budget
  cases budget with
  | venue v =>
    by_cases hv : v = "kraken"
    · subst hv
      decide +kernel
    · refine hunused _ ?_ ?_
      · simp [Budget.weight, structuralMomentum, Sample.candidate, hv]
      · simp [Budget.weight, alphaMomentum, Sample.candidate, hv]
  | asset a =>
    by_cases ha : "BTC" = a
    · subst ha
      decide +kernel
    · refine hunused _ ?_ ?_
      · simp [Budget.weight, structuralMomentum, Sample.candidate, ha]
      · simp [Budget.weight, alphaMomentum, Sample.candidate, ha]
  | alphaStrategy name =>
    by_cases hname : "momentum" = name
    · subst hname
      decide +kernel
    · refine hunused _ ?_ ?_
      · simp [Budget.weight, structuralMomentum, Sample.candidate, hname]
      · simp [Budget.weight, alphaMomentum, Sample.candidate, hname]
  | _ => decide +kernel

/-- **Left out.** The alpha candidate is skipped for its strategy's budget, of which no alpha
    capital is in use; adding it would violate no limit. -/
theorem not_respectsLimits_sharedStrategy :
    ∃ plan, allocatePrequalifiedCandidates defaultFractions [structuralMomentum, alphaMomentum] []
        1000 (some 1) (some 1) (some 10) 0 = .ok plan
      ∧ ¬ RespectsLimits defaultFractions
        (planLimits defaultFractions 1000 (some 1) (some 1) (some 10))
        (Violates defaultFractions (planLimits defaultFractions 1000 (some 1) (some 1) (some 10)))
        [structuralMomentum, alphaMomentum] plan := by
  have hskipped : (allocatePrequalifiedCandidates defaultFractions
      [structuralMomentum, alphaMomentum] [] 1000 (some 1) (some 1) (some 10) 0).toOption.map
        (fun plan => plan.skipped.map SkippedCandidate.candidateId) = some ["alpha"] := by
    decide +kernel
  obtain ⟨plan, hplan, hids⟩ := Option.map_eq_some_iff.mp hskipped
  refine ⟨plan, ok_of_toOption hplan, ?_⟩
  rintro ⟨accepted, refused, hsplit, -, hrefused, -, -, -, hviolates⟩
  -- The one refused candidate is the alpha candidate, so the other one is accepted.
  rw [hids] at hrefused
  obtain ⟨c, rfl, hid⟩ : ∃ c, refused = [c] ∧ c.candidateId = "alpha" := by
    cases refused with
    | nil => cases hrefused
    | cons c rest =>
      cases rest with
      | nil => exact ⟨c, rfl, (List.cons.inj hrefused).1.symm⟩
      | cons d rest => cases (List.cons.inj hrefused).2
  have hmem : c ∈ [structuralMomentum, alphaMomentum] :=
    hsplit.subset (List.mem_append_right _ (List.mem_singleton.mpr rfl))
  have hc : c = alphaMomentum := by
    rcases List.mem_cons.mp hmem with rfl | hmem
    · exact absurd hid (by decide)
    · exact List.mem_singleton.mp hmem
  subst hc
  have haccepted : accepted = [structuralMomentum] :=
    List.perm_singleton.mp ((List.perm_append_right_iff [alphaMomentum]).mp hsplit)
  subst haccepted
  rcases hviolates alphaMomentum (List.mem_singleton.mpr rfl) with hcount | ⟨item, hitem, hkey⟩ | hover
  · exact absurd hcount (by decide)
  · refine hkey ?_
    rw [List.mem_singleton.mp hitem]
    intro key hshared
    cases hshared
  · exact hover fitsBudgets_both

end InefficiencyEngine.Portfolio
