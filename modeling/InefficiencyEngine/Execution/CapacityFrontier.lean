import InefficiencyEngine.Execution.Qualification

namespace InefficiencyEngine.Execution

open Portfolio

/-!
# The capacity of an opportunity

What slips rises with the quantity and every other cost is the same for every notional, so a
notional that passes the hurdle leaves every smaller one passing, down to the dust of the walks
(`passes_of_le`).  So the bisection of `qualify_opportunity` brackets the notionals that pass
(`capacity_frontier`).

The exit is assumed to slip a multiple of the entry.  Nothing bounds the multiple from below, and
where it is less than minus one, slippage is a gain and larger notionals pass before smaller ones
(`not_downwardClosed_slippageGain`).
-/

/-! ### Extrema of a list -/

section Extrema

variable {xs : List ℚ}

theorem getD_max?_mem (h : xs ≠ []) : xs.max?.getD 0 ∈ xs := by
  obtain ⟨x, hx⟩ := Option.isSome_iff_exists.mp (List.isSome_max?_of_ne_nil h)
  rw [hx]
  exact List.max?_mem hx

theorem getD_min?_mem (h : xs ≠ []) : xs.min?.getD 0 ∈ xs := by
  obtain ⟨x, hx⟩ := Option.isSome_iff_exists.mp (List.isSome_min?_of_ne_nil h)
  rw [hx]
  exact List.min?_mem hx

theorem getD_min?_le {x : ℚ} (hx : x ∈ xs) : xs.min?.getD 0 ≤ x := by
  obtain ⟨least, hleast⟩ := Option.isSome_iff_exists.mp (List.isSome_min?_of_mem hx)
  rw [hleast]
  exact (List.min?_eq_some_iff.mp hleast).2 x hx

end Extrema

/-! ### Orders that the books hold -/

section Orders

variable {snapshot : OrderBookSnapshot} {side : TradeSide} {q : ℚ} {leg : OpportunityLeg}
  {book : OrderBookSnapshot}

/-- A book that is short by no more than dust fills the order. -/
theorem estimateMarketOrderQuantity_of_depth (hq : quantityDust < q)
    (hdepth : q ≤ maxExecutableQuantity snapshot side + quantityDust) :
    estimateMarketOrderQuantity snapshot side q true = .ok (quantityFill snapshot side q) := by
  rw [estimateMarketOrderQuantity_eq hq, if_neg]
  rintro ⟨-, hfails⟩
  have hshort := (tolerance_lt_shortfall_iff hq).mp hfails
  have hleft : q - min q (maxExecutableQuantity snapshot side) ≤ quantityDust := by
    rcases min_choice q (maxExecutableQuantity snapshot side) with h | h
    · rw [h, sub_self]
      exact quantityDust_nonneg
    · rw [h]
      linarith
  exact absurd (hleft.trans (le_max_left _ _)) (not_le.mpr hshort)

/-- A fill passes the validation of an estimate. -/
theorem legEstimate_quantityFill (hq : quantityDust < q) :
    ∃ estimate, PairContext.legEstimate leg q (quantityFill book (tradeSide leg.side) q)
        = .ok estimate
      ∧ (estimate.slippageBps : ℚ)
        = (quantityFill book (tradeSide leg.side) q).slippageBps := by
  have hpos : 0 < q := lt_of_le_of_lt quantityDust_nonneg hq
  obtain ⟨hfilled, -, hdepth⟩ := @quantityFill_bounds book (tradeSide leg.side) q hq
  have hnotional : 0 < (quantityFill book (tradeSide leg.side) q).filledNotionalUsd :=
    Rung.worth_pos (ladder_sized book _) (ladder_rated book _) hfilled hdepth
  have haverage : 0 < (quantityFill book (tradeSide leg.side) q).averagePrice :=
    div_pos hnotional hfilled
  have hbest : 0 < (quantityFill book (tradeSide leg.side) q).bestPrice := bestPrice_pos
  have hslippage : 0 ≤ (quantityFill book (tradeSide leg.side) q).slippageBps :=
    slippageBps_nonneg _ _ _
  have hlevels : 0 < (quantityFill book (tradeSide leg.side) q).levelsConsumed :=
    Rung.steps_pos (ladder_ne_nil book _) hq
  simp only [PairContext.legEstimate, positive_of_lt hpos, positive_of_lt hfilled,
    positive_of_lt hnotional, positive_of_lt haverage, positive_of_lt hbest,
    nonNegative_of_le hslippage]
  exact ⟨_, dif_pos hlevels, rfl⟩

end Orders

namespace PairContext

variable {ctx : PairContext} {m n t t' : ℚ} {leg : OpportunityLeg} {book : OrderBookSnapshot}

/-! ### The loop over the legs -/

/-- The slippage of the entry at a quantity. -/
def slippageAt (pairs : List (OpportunityLeg × OrderBookSnapshot)) (t : ℚ) : ℚ :=
  (pairs.map (fun pair => (quantityFill pair.2 (tradeSide pair.1.side) t).slippageBps)).sum

/-- Every book holds the quantity, but for dust. -/
def Holds (pairs : List (OpportunityLeg × OrderBookSnapshot)) (t : ℚ) : Prop :=
  ∀ pair ∈ pairs, t ≤ maxExecutableQuantity pair.2 (tradeSide pair.1.side) + quantityDust

/-- The slippage of the entry rises with the quantity. -/
theorem slippageAt_le (pairs : List (OpportunityLeg × OrderBookSnapshot)) (ht : quantityDust < t)
    (hle : t ≤ t') : slippageAt pairs t ≤ slippageAt pairs t' := by
  refine List.sum_le_sum (fun pair _ => ?_)
  show slippageBps _ _ _ ≤ slippageBps _ _ _
  rw [slippageBps_eq, slippageBps_eq]
  exact max_le_max_left 0
    (unclampedSlippageBps_le bestPrice_pos (averagePrice_noBetter ht hle))

/-- Books that hold the quantity fill every leg. -/
theorem estimateLegs_of_holds (ht : quantityDust < t)
    (pairs : List (OpportunityLeg × OrderBookSnapshot)) (hholds : Holds pairs t)
    (estimates : List LegExecutionEstimate) :
    ∃ more, estimateLegs t pairs estimates = .ok (estimates ++ more, true)
      ∧ (more.map (fun estimate => (estimate.slippageBps : ℚ))).sum = slippageAt pairs t := by
  induction pairs generalizing estimates with
  | nil => exact ⟨[], by rw [List.append_nil]; rfl, rfl⟩
  | cons pair rest ih =>
    obtain ⟨leg, book⟩ := pair
    obtain ⟨estimate, hestimate, hslippage⟩ := @legEstimate_quantityFill t leg book ht
    obtain ⟨more, hmore, hsum⟩ := ih (fun p hp => hholds p (List.mem_cons_of_mem _ hp))
      (estimates ++ [estimate])
    refine ⟨estimate :: more, ?_, ?_⟩
    · rw [estimateLegs, estimateMarketOrderQuantity_of_depth ht (hholds _ List.mem_cons_self)]
      simp only [hestimate]
      rw [List.append_assoc] at hmore
      exact hmore
    · rw [List.map_cons, List.sum_cons, hsum, hslippage]
      rfl

/-- Every leg is filled only above the dust. -/
theorem quantityDust_lt_of_estimateLegs {pairs : List (OpportunityLeg × OrderBookSnapshot)}
    (hne : pairs ≠ []) {estimates found : List LegExecutionEstimate}
    (h : estimateLegs t pairs estimates = .ok (found, true)) : quantityDust < t := by
  cases pairs with
  | nil => exact absurd rfl hne
  | cons pair rest =>
    obtain ⟨leg, book⟩ := pair
    rw [estimateLegs] at h
    cases hfill : estimateMarketOrderQuantity book (tradeSide leg.side) t true with
    | error e =>
      rw [hfill] at h
      cases e <;> cases h
    | ok fill => exact quantityDust_lt_of_ok hfill

/-! ### The hurdle -/

/-- What is left of the edge falls with the slippage. -/
theorem netHourlyBps_le {costs : EconomicCostBreakdown} {s s' : ℚ}
    (hhours : 0 < ctx.opportunity.holdingHours)
    (hmultiplier : -1 ≤ ctx.settings.exitSlippageMultiplier) (hle : s ≤ s') :
    ctx.netHourlyBps costs s' ≤ ctx.netHourlyBps costs s := by
  have hgain : 0 ≤ (s' - s) * (1 + ctx.settings.exitSlippageMultiplier) :=
    mul_nonneg (sub_nonneg.mpr hle) (by linarith)
  refine div_le_div_of_nonneg_right ?_ hhours.le
  simp only [totalCostBps]
  linarith

/-- **Hurdle.** What clears it at a slippage clears it at a lower one. -/
theorem Clears.of_le {costs : EconomicCostBreakdown} {s s' : ℚ}
    (hhours : 0 < ctx.opportunity.holdingHours)
    (hmultiplier : -1 ≤ ctx.settings.exitSlippageMultiplier) (hle : s ≤ s')
    (h : ctx.Clears costs s') : ctx.Clears costs s := by
  have hnet : ctx.netHourlyBps costs s' ≤ ctx.netHourlyBps costs s :=
    netHourlyBps_le hhours hmultiplier hle
  obtain ⟨hpos, hhurdle⟩ := h
  refine ⟨lt_of_lt_of_le hpos hnet, hhurdle.trans ?_⟩
  unfold capitalAdjustedAnnualized
  by_cases hcapital : 0 < costs.capitalMultiple
  · rw [if_pos hcapital, if_pos hcapital, WithBot.coe_le_coe]
    refine div_le_div_of_nonneg_right ?_ hcapital.le
    simp only [legNotionalAnnualized]
    linarith
  · rw [if_neg hcapital, if_neg hcapital]

/-! ### What passes -/

variable (ctx) in
/-- A notional passes where it evaluates to a tier that qualifies. -/
def Passes (n : ℚ) : Prop := Accepts ctx.evaluate CapitalTierQualification.qualifies n

variable (ctx) in
/-- `target_quantity`. -/
def targetQuantity (n : ℚ) : ℚ := n / ctx.conservativeReference

variable (ctx) in
/-- The costs of a dollar. -/
def unitCosts : Except CostError EconomicCostBreakdown :=
  economicCosts ctx.opportunity 1 ctx.settings ctx.worstBookAge ctx.latencyModel

/-- A reserve keeps at least the quantity. -/
theorem one_le_reserveRatio : 1 ≤ ctx.reserveRatio := le_max_left _ _

/-- Books that are not short of the reserve hold the quantity. -/
theorem holds_of_not_shortOf (ht : 0 ≤ t) (h : ¬ ctx.ShortOf (t * ctx.reserveRatio)) :
    Holds ctx.legBooks t := by
  intro pair hpair
  by_contra hlt
  refine h ⟨(tradeSide pair.1.side, pair.2), List.mem_map.mpr ⟨pair, hpair, rfl⟩, ?_⟩
  have hmore : t ≤ t * ctx.reserveRatio := le_mul_of_one_le_right ht one_le_reserveRatio
  exact lt_of_lt_of_le (not_le.mp hlt) hmore

/-- Books that are short of a quantity are short of more. -/
theorem ShortOf.of_le (h : ctx.ShortOf t) (hle : t ≤ t') : ctx.ShortOf t' := by
  obtain ⟨pair, hpair, hlt⟩ := h
  exact ⟨pair, hpair, lt_of_lt_of_le hlt hle⟩

/-- A rejected tier does not qualify. -/
theorem not_qualifies_of_rejectedTier {opportunity : Opportunity} {reason : Rejection}
    {target : Option ℚ} {estimates : List LegExecutionEstimate} {tier : CapitalTierQualification}
    (h : (rejectedTier opportunity n reason).map (fun tier => { tier with
      targetBaseQuantity := target, legEstimates := estimates }) = .ok tier) :
    ¬ tier.qualifies := by
  by_cases hn : 0 < n
  · rw [rejectedTier, positive_of_lt hn] at h
    cases h
    exact Bool.false_ne_true
  · rw [rejectedTier, positive, dif_neg hn] at h
    cases h

/-- A tier whose legs are filled qualifies where it clears the hurdle. -/
theorem qualifies_filledTier {costs : EconomicCostBreakdown}
    {estimates : List LegExecutionEstimate} (hn : 0 < n) (ht : 0 < t) :
    ∃ tier, ctx.filledTier n t costs estimates = .ok tier
      ∧ (tier.qualifies ↔ ctx.Clears costs
        (estimates.map (fun estimate => (estimate.slippageBps : ℚ))).sum) := by
  simp only [filledTier, positive_of_lt hn, positive_of_lt ht]
  exact ⟨_, rfl, decide_eq_true_iff⟩

/-- Costs are refused of no other than a positive notional. -/
theorem pos_of_economicCosts {costs : EconomicCostBreakdown}
    {latencyModel : Option EmpiricalLatencyModel}
    (h : economicCosts ctx.opportunity n ctx.settings ctx.worstBookAge latencyModel = .ok costs) :
    0 < n := by
  by_contra hle
  rw [economicCosts, if_pos (not_lt.mp hle)] at h
  cases h

section Evaluation

variable (hresolver : ctx.latencyModelResolver = none) (hreference : 0 < ctx.conservativeReference)
  (hne : ctx.legBooks ≠ [])

include hresolver hreference hne

/-- **Evaluation.** A notional passes where the books hold its target above the dust with its
    reserve, the costs of a dollar are known, and the slippage of the target clears the hurdle.
    The costs are linear in the notional, so those of one dollar decide, and the estimates of
    the legs add up to one slippage that depends on the target alone. -/
theorem passes_iff :
    ctx.Passes n ↔ quantityDust < ctx.targetQuantity n
      ∧ ¬ ctx.ShortOf (ctx.targetQuantity n * ctx.reserveRatio)
      ∧ ∃ costs, ctx.unitCosts = .ok costs
        ∧ ctx.Clears costs (slippageAt ctx.legBooks (ctx.targetQuantity n)) := by
  have hmodel : ctx.effectiveLatencyModel n = ctx.latencyModel := by
    rw [effectiveLatencyModel, hresolver]
  constructor
  -- each way to reject the tier contradicts that it qualifies
  · rintro ⟨tier, htier, hqualifies⟩
    unfold evaluate at htier
    by_cases hshort : ctx.ShortOf (n / ctx.conservativeReference * ctx.reserveRatio)
    · rw [if_pos hshort] at htier
      exact absurd hqualifies (not_qualifies_of_rejectedTier htier)
    · rw [if_neg hshort, hmodel] at htier
      cases hcosts : economicCosts ctx.opportunity n ctx.settings ctx.worstBookAge
          ctx.latencyModel with
      | error e =>
        rw [hcosts] at htier
        cases e with
        | unknownVenueFee message => exact absurd hqualifies (not_qualifies_of_rejectedTier htier)
        | borrowCostUnavailable message =>
          exact absurd hqualifies (not_qualifies_of_rejectedTier htier)
        | valueError message => cases htier
      | ok costs =>
        have hn := pos_of_economicCosts hcosts
        rw [hcosts] at htier
        obtain ⟨⟨estimates, complete⟩, hestimates, htier⟩ := bind_eq_ok htier
        cases complete with
        | false => exact absurd hqualifies (not_qualifies_of_rejectedTier htier)
        | true =>
          have hdust := quantityDust_lt_of_estimateLegs hne hestimates
          have ht : 0 < n / ctx.conservativeReference := div_pos hn hreference
          obtain ⟨more, hmore, hsum⟩ :=
            estimateLegs_of_holds hdust ctx.legBooks (holds_of_not_shortOf ht.le hshort) []
          rw [hestimates] at hmore
          cases hmore
          obtain ⟨tier', htier', hclears⟩ :=
            @qualifies_filledTier ctx n _ costs ([] ++ more) hn ht
          have hfinal : ctx.filledTier n _ costs ([] ++ more) = .ok tier := htier
          rw [htier'] at hfinal
          cases hfinal
          -- the costs of the notional are the scaled costs of a dollar
          rw [economicCosts_eq hn] at hcosts
          cases hunit : economicCosts ctx.opportunity 1 ctx.settings ctx.worstBookAge
              ctx.latencyModel with
          | error e =>
            rw [hunit] at hcosts
            cases hcosts
          | ok unit =>
            rw [hunit] at hcosts
            cases hcosts
            have hclear := hclears.mp hqualifies
            rw [List.nil_append, hsum] at hclear
            exact ⟨hdust, hshort, unit, hunit, hclear⟩
  -- a target above the dust is a positive notional, and every step of the evaluation returns
  · rintro ⟨hdust, hshort, costs, hunit, hclear⟩
    have ht : 0 < ctx.targetQuantity n := lt_of_le_of_lt quantityDust_nonneg hdust
    have hn : 0 < n := by
      have h := mul_pos ht hreference
      rwa [targetQuantity, div_mul_cancel₀ _ hreference.ne'] at h
    obtain ⟨more, hmore, hsum⟩ :=
      estimateLegs_of_holds hdust ctx.legBooks (holds_of_not_shortOf ht.le hshort) []
    obtain ⟨tier, htier, hclears⟩ :=
      @qualifies_filledTier ctx n _ (costs.scale n) ([] ++ more) hn ht
    rw [List.nil_append, hsum] at hclears
    refine ⟨tier, ?_, hclears.mpr hclear⟩
    have hcosts : economicCosts ctx.opportunity n ctx.settings ctx.worstBookAge ctx.latencyModel
        = .ok (costs.scale n) := by
      rw [economicCosts_eq hn]
      exact congrArg (Except.map (EconomicCostBreakdown.scale n)) hunit
    rw [targetQuantity] at hshort hmore
    rw [evaluate, if_neg hshort, hmodel, hcosts]
    simp only [hmore]
    exact htier

/-- **Downward closed.** A notional above the dust passes where a larger one does. -/
theorem passes_of_le (hhours : 0 < ctx.opportunity.holdingHours)
    (hmultiplier : -1 ≤ ctx.settings.exitSlippageMultiplier)
    (hdust : quantityDust < ctx.targetQuantity m) (hle : m ≤ n) (h : ctx.Passes n) :
    ctx.Passes m := by
  have htarget : ctx.targetQuantity m ≤ ctx.targetQuantity n :=
    div_le_div_of_nonneg_right hle hreference.le
  rw [passes_iff hresolver hreference hne] at h ⊢
  obtain ⟨-, hshort, costs, hcosts, hclears⟩ := h
  have hratio : 0 ≤ ctx.reserveRatio := le_trans zero_le_one one_le_reserveRatio
  refine ⟨hdust, fun hless => hshort (hless.of_le (mul_le_mul_of_nonneg_right htarget hratio)),
    costs, hcosts, ?_⟩
  exact hclears.of_le hhours hmultiplier (slippageAt_le ctx.legBooks hdust htarget)

end Evaluation

/-! ### No evaluation of a positive notional raises -/

/-- A tier is of the notional it evaluates. Both the tier that qualifies and every rejected one
    are built from the notional they were asked about. -/
theorem notional_of_evaluate {tier : CapitalTierQualification} (h : ctx.evaluate n = .ok tier) :
    (tier.notionalUsdPerLeg : ℚ) = n := by
  -- a rejected tier changes the reason, the target and the estimates, not the notional
  have hrejected : ∀ {reason : Rejection} {target : Option ℚ}
      {estimates : List LegExecutionEstimate},
      (rejectedTier ctx.opportunity n reason).map (fun tier => { tier with
        targetBaseQuantity := target, legEstimates := estimates }) = .ok tier →
      (tier.notionalUsdPerLeg : ℚ) = n := by
    intro reason target estimates hmap
    cases htier : rejectedTier ctx.opportunity n reason with
    | error e =>
      rw [htier] at hmap
      cases hmap
    | ok tier' =>
      rw [htier] at hmap
      cases hmap
      obtain ⟨notional, hnotional, h⟩ := bind_eq_ok htier
      cases h
      exact positive_eq_ok hnotional
  unfold evaluate at h
  by_cases hshort : ctx.ShortOf (n / ctx.conservativeReference * ctx.reserveRatio)
  · rw [if_pos hshort] at h
    exact hrejected h
  · rw [if_neg hshort] at h
    cases hcosts : economicCosts ctx.opportunity n ctx.settings ctx.worstBookAge
        (ctx.effectiveLatencyModel n) with
    | error e =>
      rw [hcosts] at h
      cases e with
      | unknownVenueFee message => exact hrejected h
      | borrowCostUnavailable message => exact hrejected h
      | valueError message => cases h
    | ok costs =>
      rw [hcosts] at h
      obtain ⟨⟨estimates, complete⟩, -, h⟩ := bind_eq_ok h
      cases complete with
      | false => exact hrejected h
      | true =>
        obtain ⟨notional, hnotional, h⟩ := bind_eq_ok h
        obtain ⟨target, -, h⟩ := bind_eq_ok h
        cases h
        exact positive_eq_ok hnotional

/-! ### The reference price and the ceiling -/

theorem levelsFor_ne_nil (book : OrderBookSnapshot) (side : TradeSide) :
    levelsFor book side ≠ [] := by
  cases side with
  | buy => exact book.asks_ne
  | sell => exact book.bids_ne

/-- The touch price is that of a level. -/
theorem exists_level_touchPrice (book : OrderBookSnapshot) (side : TradeSide) :
    ∃ level ∈ levelsFor book side, touchPrice book side = level.price := by
  have hne : (levelsFor book side).map (fun level => (level.price : ℚ)) ≠ [] :=
    fun h => levelsFor_ne_nil book side (List.map_eq_nil_iff.mp h)
  cases side with
  | buy =>
    obtain ⟨level, hlevel, hprice⟩ := List.mem_map.mp (getD_min?_mem hne)
    exact ⟨level, hlevel, hprice.symm⟩
  | sell =>
    obtain ⟨level, hlevel, hprice⟩ := List.mem_map.mp (getD_max?_mem hne)
    exact ⟨level, hlevel, hprice.symm⟩

theorem maxExecutableQuantity_pos (book : OrderBookSnapshot) (side : TradeSide) :
    0 < maxExecutableQuantity book side := by
  have hne : (levelsFor book side).map (fun level => (level.size : ℚ)) ≠ [] :=
    fun h => levelsFor_ne_nil book side (List.map_eq_nil_iff.mp h)
  refine List.sum_pos _ (fun x hx => ?_) hne
  obtain ⟨level, -, rfl⟩ := List.mem_map.mp hx
  exact level.size.2

theorem sidePairs_ne_nil (hne : ctx.legBooks ≠ []) : ctx.sidePairs ≠ [] :=
  fun h => hne (List.map_eq_nil_iff.mp h)

/-- The reference price is a touch price. -/
theorem exists_conservativeReference (hne : ctx.legBooks ≠ []) :
    ∃ pair ∈ ctx.legBooks, ∃ level ∈ levelsFor pair.2 (tradeSide pair.1.side),
      ctx.conservativeReference = level.price := by
  have hne' : ctx.sidePairs.map (fun pair => touchPrice pair.2 pair.1) ≠ [] :=
    fun h => sidePairs_ne_nil hne (List.map_eq_nil_iff.mp h)
  obtain ⟨sidePair, hsidePair, hprice⟩ := List.mem_map.mp (getD_max?_mem hne')
  obtain ⟨pair, hpair, rfl⟩ := List.mem_map.mp hsidePair
  obtain ⟨level, hlevel, htouch⟩ := exists_level_touchPrice pair.2 (tradeSide pair.1.side)
  exact ⟨pair, hpair, level, hlevel, hprice.symm.trans htouch⟩

theorem conservativeReference_pos (hne : ctx.legBooks ≠ []) : 0 < ctx.conservativeReference := by
  obtain ⟨pair, -, level, -, hprice⟩ := exists_conservativeReference hne
  rw [hprice]
  exact level.price.2

/-- The shared quantity is what some book holds. -/
theorem exists_maxSharedQuantity (hne : ctx.legBooks ≠ []) :
    ∃ pair ∈ ctx.sidePairs, ctx.maxSharedQuantity = maxExecutableQuantity pair.2 pair.1 := by
  have hne' : ctx.sidePairs.map (fun pair => maxExecutableQuantity pair.2 pair.1) ≠ [] :=
    fun h => sidePairs_ne_nil hne (List.map_eq_nil_iff.mp h)
  obtain ⟨pair, hpair, hquantity⟩ := List.mem_map.mp (getD_min?_mem hne')
  exact ⟨pair, hpair, hquantity.symm⟩

theorem visibleDepthCeiling_pos (hne : ctx.legBooks ≠ []) : 0 < ctx.visibleDepthCeiling := by
  obtain ⟨pair, -, hquantity⟩ := exists_maxSharedQuantity hne
  have hratio : 0 < ctx.reserveRatio := lt_of_lt_of_le one_pos one_le_reserveRatio
  have hshared : 0 < ctx.maxSharedQuantity := by
    rw [hquantity]
    exact maxExecutableQuantity_pos _ _
  exact div_pos (mul_pos (conservativeReference_pos hne) hshared) hratio

/-- Prices are below a billion dollars. -/
def Priced (books : List OrderBookSnapshot) : Prop :=
  ∀ book ∈ books, ∀ level ∈ book.bids ++ book.asks, (level.price : ℚ) < 10 ^ 9

/-- At such prices the dust of the walks is worth less than a tenth of a cent. -/
theorem conservativeReference_mul_dust_lt {books : List OrderBookSnapshot} (hpriced : Priced books)
    (hne : ctx.legBooks ≠ []) (hbooks : ∀ pair ∈ ctx.legBooks, pair.2 ∈ books) :
    ctx.conservativeReference * quantityDust < 1 / 1000 := by
  obtain ⟨pair, hpair, level, hlevel, hprice⟩ := exists_conservativeReference hne
  have hmem : level ∈ pair.2.bids ++ pair.2.asks := by
    cases hside : tradeSide pair.1.side with
    | buy =>
      rw [hside] at hlevel
      exact List.mem_append_right _ hlevel
    | sell =>
      rw [hside] at hlevel
      exact List.mem_append_left _ hlevel
  have hlt := hpriced pair.2 (hbooks pair hpair) level hmem
  rw [hprice]
  calc (level.price : ℚ) * quantityDust < 10 ^ 9 * quantityDust :=
        mul_lt_mul_of_pos_right hlt (by norm_num [quantityDust])
    _ = 1 / 1000 := by norm_num [quantityDust]

section Search

variable (hresolver : ctx.latencyModelResolver = none) (hne : ctx.legBooks ≠ [])

include hresolver hne

/-- What passes is below the ceiling, but for the dust of the depth check. -/
theorem le_of_passes (h : ctx.Passes n) :
    n ≤ ctx.visibleDepthCeiling + ctx.conservativeReference * quantityDust := by
  have hreference := conservativeReference_pos hne
  obtain ⟨-, hshort, -⟩ := (passes_iff hresolver hreference hne).mp h
  obtain ⟨pair, hpair, hquantity⟩ := exists_maxSharedQuantity hne
  have hratio : 0 < ctx.reserveRatio := lt_of_lt_of_le one_pos one_le_reserveRatio
  have hheld : ctx.targetQuantity n * ctx.reserveRatio ≤ ctx.maxSharedQuantity + quantityDust := by
    by_contra hlt
    refine hshort ⟨pair, hpair, ?_⟩
    rw [← hquantity]
    exact not_le.mp hlt
  have hscaled := mul_le_mul_of_nonneg_left hheld hreference.le
  have htarget : ctx.conservativeReference * ctx.targetQuantity n = n :=
    mul_div_cancel₀ n hreference.ne'
  rw [← mul_assoc, htarget, mul_add, ← le_div_iff₀ hratio, add_div] at hscaled
  have hless : ctx.conservativeReference * quantityDust / ctx.reserveRatio
      ≤ ctx.conservativeReference * quantityDust :=
    div_le_self (mul_nonneg hreference.le quantityDust_nonneg) one_le_reserveRatio
  exact hscaled.trans (add_le_add (le_refl _) hless)

/-- What a search for the capacity finds. -/
structure Searched (ctx : PairContext) (capacity : ℚ) (capacityReturn : Option (WithBot ℚ)) :
    Prop where
  found : (capacity = 0 ∧ capacityReturn = none)
    ∨ ∃ tier, ctx.evaluate capacity = .ok tier ∧ tier.qualifies
      ∧ capacityReturn = some tier.netAnnualizedReturn
  le_ceiling : capacity ≤ ctx.visibleDepthCeiling
  frontier : ∀ {n}, ctx.Passes n → n ≤ capacity + ctx.tolerance

/-- **Search.** The search ends at a notional that passes, or at none, within the tolerance of
    every notional that does. Between a probe that passes and a ceiling that does not the
    bisection keeps a bracket; downward closure turns its width into the distance to every
    notional that passes. -/
theorem searched_of_capacitySearch (hhours : 0 < ctx.opportunity.holdingHours)
    (hmultiplier : -1 ≤ ctx.settings.exitSlippageMultiplier)
    (hdust : ctx.conservativeReference * quantityDust < 1 / 1000)
    (hrange : ctx.visibleDepthCeiling - min ctx.tolerance ctx.visibleDepthCeiling
      ≤ 2 ^ 64 * ctx.tolerance) {capacity : ℚ} {capacityReturn : Option (WithBot ℚ)}
    (h : ctx.capacitySearch = .ok (capacity, capacityReturn)) :
    Searched ctx capacity capacityReturn := by
  have hreference := conservativeReference_pos hne
  have hceiling := visibleDepthCeiling_pos hne
  have htolerance : 1 / 100 ≤ ctx.tolerance := le_max_left _ _
  have hclosed : ∀ {x y}, quantityDust < ctx.targetQuantity x → x ≤ y → ctx.Passes y →
      ctx.Passes x :=
    fun hx hle hy => passes_of_le hresolver hreference hne hhours hmultiplier hx hle hy
  unfold capacitySearch at h
  rw [if_pos hceiling] at h
  obtain ⟨upperEval, hupper, h⟩ := bind_eq_ok h
  by_cases hpasses : upperEval.qualifies
  · -- the ceiling passes
    rw [if_pos hpasses] at h
    cases h
    refine ⟨Or.inr ⟨upperEval, hupper, hpasses, rfl⟩, le_refl _, fun hn => ?_⟩
    have hle := le_of_passes hresolver hne hn
    linarith
  · rw [if_neg hpasses] at h
    have hrejected : ¬ ctx.Passes ctx.visibleDepthCeiling := by
      rintro ⟨tier, htier, hqualifies⟩
      rw [hupper] at htier
      cases htier
      exact hpasses hqualifies
    obtain ⟨probeEval, hprobe, h⟩ := bind_eq_ok h
    have hprobeLe : min ctx.tolerance ctx.visibleDepthCeiling ≤ ctx.visibleDepthCeiling :=
      min_le_right _ _
    by_cases hpassesProbe : probeEval.qualifies
    · -- the frontier is between the probe and the ceiling
      rw [if_pos hpassesProbe] at h
      obtain ⟨bracket, hbracket, h⟩ := bind_eq_ok h
      cases h
      have hstart : Brackets ctx.evaluate CapitalTierQualification.qualifies
          ⟨min ctx.tolerance ctx.visibleDepthCeiling, ctx.visibleDepthCeiling, probeEval⟩ :=
        ⟨hprobeLe, hprobe, hpassesProbe, hrejected⟩
      obtain ⟨hend, hlow, hhigh, -⟩ := hstart.bisect hbracket
      have hwidth := hstart.width_bisect hbracket hrange
      have habove := ((passes_iff hresolver hreference hne).mp hstart.accepts_low).1
      refine ⟨Or.inr ⟨bracket.best, hend.examined, hend.accepted, rfl⟩, hend.le.trans hhigh,
        fun hn => ?_⟩
      have hle := hend.le_of_accepts (fun hx hxy hy => hclosed (lt_of_lt_of_le habove
        (div_le_div_of_nonneg_right (hlow.trans hx) hreference.le)) hxy hy) hn
      linarith
    · -- nothing above the probe passes
      rw [if_neg hpassesProbe] at h
      cases h
      refine ⟨Or.inl ⟨rfl, rfl⟩, hceiling.le, fun {n} hn => ?_⟩
      rw [zero_add]
      by_contra hgt
      have hprobeLt : min ctx.tolerance ctx.visibleDepthCeiling ≤ n :=
        (min_le_left _ _).trans (not_le.mp hgt).le
      rcases lt_or_ge quantityDust
        (ctx.targetQuantity (min ctx.tolerance ctx.visibleDepthCeiling)) with habove | hbelow
      · obtain ⟨tier, htier, hqualifies⟩ := hclosed habove hprobeLt hn
        rw [hprobe] at htier
        cases htier
        exact hpassesProbe hqualifies
      · -- the ceiling is itself dust, which is worth less than the tolerance
        have hsmall : min ctx.tolerance ctx.visibleDepthCeiling
            ≤ ctx.conservativeReference * quantityDust := by
          rw [mul_comm]
          exact (div_le_iff₀ hreference).mp hbelow
        have hle := le_of_passes hresolver hne hn
        rcases min_choice ctx.tolerance ctx.visibleDepthCeiling with hmin | hmin
        · linarith
        · linarith

end Search

end PairContext

/-! ### What a qualification reports -/

section Qualified

variable {opportunity : Opportunity} {books : List OrderBookSnapshot} {settings : Settings}
  {now : Instant} {latencyModel : Option EmpiricalLatencyModel}
  {latencyModelResolver : Option (Opportunity → ℚ → EmpiricalLatencyModel)} {ctx : PairContext}

/-- What the checks leave of a context. -/
structure Prepared (opportunity : Opportunity) (books : List OrderBookSnapshot)
    (settings : Settings)
    (latencyModelResolver : Option (Opportunity → ℚ → EmpiricalLatencyModel))
    (ctx : PairContext) : Prop where
  opportunity_eq : ctx.opportunity = opportunity
  settings_eq : ctx.settings = settings
  resolver_eq : ctx.latencyModelResolver = latencyModelResolver
  legBooks_ne : ctx.legBooks ≠ []
  books_mem : ∀ pair ∈ ctx.legBooks, pair.2 ∈ books

theorem prepared_of_prepare (h : prepare opportunity books settings now latencyModel
      latencyModelResolver = .ready ctx) :
    Prepared opportunity books settings latencyModelResolver ctx := by
  unfold prepare at h
  by_cases htwo : opportunity.legs.length ≠ 2
  · rw [if_pos htwo] at h
    cases h
  · rw [if_neg htwo] at h
    dsimp only at h
    split_ifs at h with hmissing
    cases h
    refine ⟨rfl, rfl, rfl, ?_, ?_⟩
    · -- a leg that is not missing has its book
      obtain ⟨leg, hleg⟩ : ∃ leg, leg ∈ opportunity.legs :=
        List.exists_mem_of_length_pos (by omega)
      intro hnil
      have hnone := List.filterMap_eq_nil_iff.mp hnil leg hleg
      have hfound := List.filter_eq_nil_iff.mp (not_not.mp hmissing) leg hleg
      rw [Option.map_eq_none_iff.mp hnone] at hfound
      exact hfound rfl
    · intro pair hpair
      obtain ⟨leg, -, hbook⟩ := List.mem_filterMap.mp hpair
      obtain ⟨book, hget, rfl⟩ := Option.map_eq_some_iff.mp hbook
      exact (Dict.mem_of_get?_collect hget).1

/-- The tolerance of the search. -/
def searchTolerance (settings : Settings) : ℚ := max (1 / 100) settings.capacitySearchToleranceUsd

/-- A notional passes for an opportunity. -/
def PassesFor (opportunity : Opportunity) (books : List OrderBookSnapshot) (settings : Settings)
    (now : Instant) (latencyModel : Option EmpiricalLatencyModel) (n : ℚ) : Prop :=
  ∃ ctx, prepare opportunity books settings now latencyModel none = .ready ctx ∧ ctx.Passes n

/-- What a qualification without a resolver says of the notionals that pass. -/
structure CapacityFrontier (opportunity : Opportunity) (books : List OrderBookSnapshot)
    (settings : Settings) (now : Instant) (latencyModel : Option EmpiricalLatencyModel)
    (result : OpportunityExecutability) : Prop where
  /-- Above the dust, a notional passes where a larger one does. -/
  downwardClosed : ∀ ctx m n,
    prepare opportunity books settings now latencyModel none = .ready ctx →
    quantityDust < m / ctx.conservativeReference → m ≤ n → ctx.Passes n → ctx.Passes m
  /-- The capacity is zero, or passes with the return reported. -/
  found : (result.estimatedCapacityNotionalUsd = 0
      ∧ result.capacityFrontierNetAnnualizedReturn = none)
    ∨ ∃ ctx tier, prepare opportunity books settings now latencyModel none = .ready ctx
      ∧ ctx.evaluate result.estimatedCapacityNotionalUsd = .ok tier ∧ tier.qualifies
      ∧ result.capacityFrontierNetAnnualizedReturn = some tier.netAnnualizedReturn
  le_ceiling : result.estimatedCapacityNotionalUsd ≤ result.visibleDepthCeilingUsd
  /-- No notional passes that exceeds it by more than the tolerance. -/
  frontier : ∀ n, PassesFor opportunity books settings now latencyModel n →
    n ≤ result.estimatedCapacityNotionalUsd + searchTolerance settings
  qualified : result.maxQualifiedNotionalUsd
    ≤ result.estimatedCapacityNotionalUsd + searchTolerance settings

/-- **Capacity.** The capacity that a qualification reports brackets the notionals that pass.
    The search is over the prepared pair alone: a pair that is rejected has no notional that
    passes, and for one that is ready the bracket of the search is the frontier. -/
theorem capacity_frontier {notionalsUsd : Option (List ℚ)} {result : OpportunityExecutability}
    (hhours : 0 < opportunity.holdingHours) (hmultiplier : -1 ≤ settings.exitSlippageMultiplier)
    (hpriced : PairContext.Priced books)
    (hok : qualifyOpportunity opportunity books settings notionalsUsd now latencyModel none
      = .ok result)
    (hrange : result.visibleDepthCeilingUsd
        - min (searchTolerance settings) result.visibleDepthCeilingUsd
      ≤ 2 ^ 64 * searchTolerance settings) :
    CapacityFrontier opportunity books settings now latencyModel result := by
  have htolerance : 0 ≤ searchTolerance settings :=
    le_trans (by norm_num) (le_max_left (1 / 100 : ℚ) _)
  unfold qualifyOpportunity at hok
  dsimp only at hok
  cases hprepare : prepare opportunity books settings now latencyModel none with
  | rejected reason =>
    rw [hprepare] at hok
    obtain ⟨tiers, -, hok⟩ := bind_eq_ok hok
    cases hok
    refine ⟨fun ctx m n hready => ?_, Or.inl ⟨rfl, rfl⟩, le_refl _, ?_, ?_⟩
    · cases hprepare.symm.trans hready
    · rintro n ⟨ctx, hready, -⟩
      cases hprepare.symm.trans hready
    · show (0 : ℚ) ≤ 0 + searchTolerance settings
      linarith
  | ready ctx =>
    rw [hprepare] at hok
    obtain ⟨tiers, htiers, hok⟩ := bind_eq_ok hok
    obtain ⟨⟨capacity, capacityReturn⟩, hsearch, hok⟩ := bind_eq_ok hok
    cases hok
    obtain ⟨rfl, rfl, hresolver, hne, hbooks⟩ := prepared_of_prepare hprepare
    have hsearched := PairContext.searched_of_capacitySearch hresolver hne hhours hmultiplier
      (PairContext.conservativeReference_mul_dust_lt hpriced hne hbooks) hrange hsearch
    -- the preparation is a function, so every ready pair is this one
    have hready : ∀ {ctx'}, prepare ctx.opportunity books ctx.settings now latencyModel none
        = .ready ctx' → ctx' = ctx := by
      intro ctx' h
      exact (Preparation.ready.inj (hprepare.symm.trans h)).symm
    refine ⟨?_, ?_, hsearched.le_ceiling, ?_, ?_⟩
    · intro ctx' m n h hdust hle hn
      obtain rfl := hready h
      exact PairContext.passes_of_le hresolver (PairContext.conservativeReference_pos hne) hne
        hhours hmultiplier hdust hle hn
    · rcases hsearched.found with hzero | ⟨tier, htier, hqualifies, hreturn⟩
      · exact Or.inl hzero
      · exact Or.inr ⟨ctx, tier, hprepare, htier, hqualifies, hreturn⟩
    · rintro n ⟨ctx', h, hn⟩
      obtain rfl := hready h
      exact hsearched.frontier hn
    -- the largest rung that qualifies is itself a notional that passes
    · show ((tiers.filter CapitalTierQualification.qualifies).map
          (fun tier => (tier.notionalUsdPerLeg : ℚ))).max?.getD 0 ≤ _
      by_cases hnone : (tiers.filter CapitalTierQualification.qualifies).map
          (fun tier => (tier.notionalUsdPerLeg : ℚ)) = []
      · have hzero : 0 ≤ capacity := by
          rcases hsearched.found with ⟨rfl, -⟩ | ⟨tier, htier, -, -⟩
          · exact le_refl 0
          · rw [← PairContext.notional_of_evaluate htier]
            exact tier.notionalUsdPerLeg.2.le
        rw [hnone]
        show (0 : ℚ) ≤ capacity + searchTolerance ctx.settings
        linarith
      · obtain ⟨tier, htier, hnotional⟩ := List.mem_map.mp (getD_max?_mem hnone)
        obtain ⟨hmem, hqualifies⟩ := List.mem_filter.mp htier
        obtain ⟨n, -, hevaluate⟩ := exists_of_mem_mapM htiers hmem
        rw [← hnotional, PairContext.notional_of_evaluate hevaluate]
        exact hsearched.frontier ⟨tier, hevaluate, hqualifies⟩

end Qualified

/-! ### A pair -/

/-- Settings without costs, that assume an exit to slip a multiple of the entry. -/
def freeSettings (exitSlippageMultiplier : ℚ) : Settings where
  minNetAnnualizedReturn := 0
  maxOrderBookAgeSeconds := 15
  maxOrderBookSkewSeconds := 5
  exitSlippageMultiplier := exitSlippageMultiplier
  capacitySearchToleranceUsd := 1
  coinbaseSpotTakerFeeBps := 0
  hyperliquidPerpTakerFeeBps := 0
  bybitSpotTakerFeeBps := 0
  bybitDerivativesTakerFeeBps := 0
  krakenSpotTakerFeeBps := 0
  okxSpotTakerFeeBps := 0
  okxDerivativesTakerFeeBps := 0
  spotCollateralFraction := 1
  perpCollateralFraction := 1
  collateralOpportunityCostAnnual := 0
  spotShortBorrowAnnual := none
  expectedOrderAckLatencyMs := 0
  expectedHedgeLatencyMs := 0
  latencyRiskBpsPerSecond := 0
  hedgeLiquidityReserveRatio := 1
  hedgeRecoveryBufferBps := 0
  capitalTiersUsd := [100]

/-- Long spot and short perpetual, for an hour. -/
def spotPerpPair (grossEdgeBpsPerHour : ℚ) : Opportunity where
  id := "pair"
  strategy := .spotPerpBasis
  asset := "BTC"
  legs := [⟨"Coinbase", "BTC", .spot, .long⟩, ⟨"HlPerp", "BTC", .perpetual, .short⟩]
  grossEdgeBpsPerHour := grossEdgeBpsPerHour
  modeledCostBps := 0
  holdingHours := 1
  safetyBufferBpsPerHour := 0

/-- The perpetual has an ask. -/
theorem perpetualAsks_ne :
    ([⟨101, 1⟩] : List OrderBookLevel) ≠ [] := by
  simp

/-- The books of the pair: one unit at the touch, and one more ten dollars away. -/
def pairBooks : List OrderBookSnapshot :=
  [{ venue := "Coinbase", asset := "BTC", marketKind := .spot, symbol := "BTC-USD"
     bids := [⟨99, 1⟩]
     asks := [⟨100, 1⟩, ⟨110, 1⟩]
     observedAt := 0
     bids_ne := by simp
     asks_ne := by simp
     spread := by
       simp only [List.mem_cons, List.not_mem_nil, or_false, forall_eq_or_imp, forall_eq]
       show (99 : ℚ) < 100 ∧ (99 : ℚ) < 110
       norm_num },
   { venue := "HlPerp", asset := "BTC", marketKind := .perpetual, symbol := "BTC"
     bids := [⟨100, 1⟩, ⟨90, 1⟩]
     asks := [⟨101, 1⟩]
     observedAt := 0
     bids_ne := by simp
     asks_ne := perpetualAsks_ne
     spread := by
       simp only [List.mem_cons, List.not_mem_nil, or_false, forall_eq_or_imp, forall_eq]
       show (100 : ℚ) < 101 ∧ (90 : ℚ) < 101
       norm_num }]

theorem pairBooks_priced : PairContext.Priced pairBooks := by
  simp only [PairContext.Priced, pairBooks, List.mem_cons, List.not_mem_nil, or_false,
    forall_eq_or_imp, forall_eq, List.cons_append, List.nil_append]
  norm_num

/-- An edge of 300 basis points an hour on the pair of the two books, whose visible depth ends at
    200 dollars. -/
theorem capacity_frontier_spotPerpPair :
    ∃ result, qualifyOpportunity (spotPerpPair 300) pairBooks (freeSettings 1) none 0 none none
        = .ok result
      ∧ CapacityFrontier (spotPerpPair 300) pairBooks (freeSettings 1) 0 none result := by
  have hrun : (qualifyOpportunity (spotPerpPair 300) pairBooks (freeSettings 1) none 0 none
      none).toOption.map OpportunityExecutability.visibleDepthCeilingUsd = some 200 := by
    decide +kernel
  cases hok : qualifyOpportunity (spotPerpPair 300) pairBooks (freeSettings 1) none 0 none none with
  | error e =>
    rw [hok] at hrun
    cases hrun
  | ok result =>
    rw [hok] at hrun
    have hceiling : result.visibleDepthCeilingUsd = 200 := Option.some.inj hrun
    refine ⟨result, rfl, capacity_frontier (by norm_num [spotPerpPair])
      (by norm_num [freeSettings]) pairBooks_priced hok ?_⟩
    rw [hceiling]
    norm_num [searchTolerance, freeSettings]

/-- A pair passes with 150 dollars and not with 50, which its dust allows. -/
def Preparation.passesLargeOnly : Preparation → Bool
  | .rejected _ => false
  | .ready ctx => decide (quantityDust < 50 / ctx.conservativeReference)
    && (ctx.evaluate 150).toOption.any CapitalTierQualification.qualifies
    && !(ctx.evaluate 50).toOption.any CapitalTierQualification.qualifies

/-- Where the exit is assumed to slip minus three times the entry, a pair without an edge passes at
    a notional that slips and at none that does not. -/
theorem not_downwardClosed_slippageGain :
    ¬ ∀ (opportunity : Opportunity) (books : List OrderBookSnapshot) (settings : Settings)
      (notionalsUsd : Option (List ℚ)) (now : Instant)
      (latencyModel : Option EmpiricalLatencyModel) (result : OpportunityExecutability),
      0 < opportunity.holdingHours → PairContext.Priced books →
      qualifyOpportunity opportunity books settings notionalsUsd now latencyModel none
        = .ok result →
      result.visibleDepthCeilingUsd
        - min (searchTolerance settings) result.visibleDepthCeilingUsd
        ≤ 2 ^ 64 * searchTolerance settings →
      CapacityFrontier opportunity books settings now latencyModel result := by
  intro h
  have hrun : (qualifyOpportunity (spotPerpPair 0) pairBooks (freeSettings (-3)) none 0 none
      none).toOption.map OpportunityExecutability.visibleDepthCeilingUsd = some 200 := by
    decide +kernel
  cases hok : qualifyOpportunity (spotPerpPair 0) pairBooks (freeSettings (-3)) none 0 none
      none with
  | error e =>
    rw [hok] at hrun
    cases hrun
  | ok result =>
    rw [hok] at hrun
    have hceiling : result.visibleDepthCeilingUsd = 200 := Option.some.inj hrun
    have hfrontier := h (spotPerpPair 0) pairBooks (freeSettings (-3)) none 0 none result
      (by norm_num [spotPerpPair]) pairBooks_priced hok (by
        rw [hceiling]
        norm_num [searchTolerance, freeSettings])
    -- 150 dollars slip and pass, 50 do not
    have hevaluate : (prepare (spotPerpPair 0) pairBooks (freeSettings (-3)) 0 none
        none).passesLargeOnly = true := by
      decide +kernel
    cases hprepare : prepare (spotPerpPair 0) pairBooks (freeSettings (-3)) 0 none none with
    | rejected reason =>
      rw [hprepare] at hevaluate
      cases hevaluate
    | ready ctx =>
      rw [hprepare] at hevaluate
      simp only [Preparation.passesLargeOnly, Bool.and_eq_true, decide_eq_true_eq,
        Bool.not_eq_true'] at hevaluate
      obtain ⟨⟨hdust, hlarge⟩, hsmall⟩ := hevaluate
      have hpasses : ctx.Passes 150 := by
        cases htier : ctx.evaluate 150 with
        | error e =>
          rw [htier] at hlarge
          cases hlarge
        | ok tier =>
          rw [htier] at hlarge
          exact ⟨tier, htier, hlarge⟩
      obtain ⟨tier, htier, hqualifies⟩ :=
        hfrontier.downwardClosed ctx 50 150 hprepare hdust (by norm_num) hpasses
      rw [htier] at hsmall
      exact absurd hqualifies (Bool.eq_false_iff.mp hsmall)

end InefficiencyEngine.Execution
