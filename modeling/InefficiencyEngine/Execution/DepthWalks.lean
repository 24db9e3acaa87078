import InefficiencyEngine.Lib.Rungs
import InefficiencyEngine.Portfolio.Execution

namespace InefficiencyEngine.Execution

open Portfolio

/-!
# The two walks over a book

`execution.py` walks the levels of a book by base quantity (`estimate_market_order_quantity`) and
by notional (`estimate_market_order`), each with its own dust.  Both are walks over one ladder of
rungs, the second over the ladder turned around, so their fills, their optimality and their
monotonicity come from the rules of ladders (`depth_walks`).

That the second gives back what the first was asked holds in dollars only: its dust is a billionth
of a dollar, and that buys any quantity where the price is low enough (`not_givesBack_junkBids`).
-/

/-! ### The walk by notional -/

/-- `ExecutionEstimate`. What a walk by notional reports. -/
structure ExecutionEstimate where
  side : TradeSide
  requestedNotionalUsd : ℚ
  filledNotionalUsd : ℚ
  baseQuantity : ℚ
  averagePrice : ℚ
  bestPrice : ℚ
  slippageBps : ℚ
  levelsConsumed : ℕ

/-- The accumulators of the walk. -/
structure NotionalFillState where
  remaining : ℚ
  filledNotional : ℚ
  baseQuantity : ℚ
  levelsConsumed : ℕ

/-- What is left to fill below this is dust. -/
def notionalDust : ℚ := 1 / 10 ^ 9

/-- One level of the walk. -/
def NotionalFillState.take (s : NotionalFillState) (level : OrderBookLevel) :
    NotionalFillState :=
  let levelNotional : ℚ := level.price * level.size
  let takeNotional := min s.remaining levelNotional
  let takeQuantity := takeNotional / level.price
  { remaining := s.remaining - takeNotional
    filledNotional := s.filledNotional + takeNotional
    baseQuantity := s.baseQuantity + takeQuantity
    levelsConsumed := s.levelsConsumed + 1 }

/-- The loop over the ordered levels, which stops once only dust remains. -/
def fillNotional : List OrderBookLevel → NotionalFillState → NotionalFillState
  | [], s => s
  | level :: rest, s =>
    if s.remaining ≤ notionalDust then s else fillNotional rest (s.take level)

/-- `estimate_market_order`. It is the walk by notional: each level gives up to what it is
    worth. -/
def estimateMarketOrder (snapshot : OrderBookSnapshot) (side : TradeSide) (notionalUsd : ℚ)
    (requireFullFill : Bool) : Except FillError ExecutionEstimate :=
  if notionalUsd ≤ 0 then .error .valueError
  else
    match orderedLevels snapshot side with
    | [] => .error .insufficientDepth
    | best :: rest =>
      let fill := fillNotional (best :: rest) ⟨notionalUsd, 0, 0, 0⟩
      -- the rest that is forgiven: a millionth of a dollar, or a billionth of the order
      if requireFullFill ∧ max (1 / 10 ^ 6) (notionalUsd / 10 ^ 9) < fill.remaining then
        .error .insufficientDepth
      else if fill.baseQuantity ≤ 0 then .error .insufficientDepth
      else
        .ok
          { side := side
            requestedNotionalUsd := notionalUsd
            filledNotionalUsd := fill.filledNotional
            baseQuantity := fill.baseQuantity
            averagePrice := fill.filledNotional / fill.baseQuantity
            bestPrice := best.price
            slippageBps := slippageBps side (fill.filledNotional / fill.baseQuantity) best.price
            levelsConsumed := fill.levelsConsumed }

/-! ### The ladder of a book -/

/-- A level as a rung: its size at its price. -/
def rungOf (level : OrderBookLevel) : Rung ℚ := ⟨level.size, level.price⟩

/-- The levels of the side an order consumes, as listed. -/
def levelsFor (snapshot : OrderBookSnapshot) (side : TradeSide) : List OrderBookLevel :=
  match side with
  | .buy => snapshot.asks
  | .sell => snapshot.bids

/-- `max_executable_quantity`. -/
def maxExecutableQuantity (snapshot : OrderBookSnapshot) (side : TradeSide) : ℚ :=
  ((levelsFor snapshot side).map (fun level => (level.size : ℚ))).sum

/-- The ladder an order climbs: best price first. -/
def ladder (snapshot : OrderBookSnapshot) (side : TradeSide) : List (Rung ℚ) :=
  (orderedLevels snapshot side).map rungOf

section Ladder

variable (snapshot : OrderBookSnapshot) (side : TradeSide)

theorem orderedLevels_perm : (orderedLevels snapshot side).Perm (levelsFor snapshot side) := by
  cases side <;> exact List.perm_insertionSort _ _

theorem orderedLevels_ne_nil : orderedLevels snapshot side ≠ [] := by
  intro hnil
  have hperm := orderedLevels_perm snapshot side
  rw [hnil] at hperm
  cases side with
  | buy => exact snapshot.asks_ne hperm.nil_eq.symm
  | sell => exact snapshot.bids_ne hperm.nil_eq.symm

theorem ladder_ne_nil : ladder snapshot side ≠ [] :=
  fun h => orderedLevels_ne_nil snapshot side (List.map_eq_nil_iff.mp h)

theorem ladder_sized : Rung.Sized (ladder snapshot side) := by
  intro r hr
  obtain ⟨level, -, rfl⟩ := List.mem_map.mp hr
  exact level.size.2

theorem ladder_rated : Rung.Rated (ladder snapshot side) := by
  intro r hr
  obtain ⟨level, -, rfl⟩ := List.mem_map.mp hr
  exact level.price.2

/-- A buyer climbs rising prices. -/
theorem ladder_buy_rising : Rung.Rising (ladder snapshot .buy) := by
  have hsorted : (orderedLevels snapshot .buy).Pairwise (fun a b => (a.price : ℚ) ≤ b.price) := by
    have : Std.Total (fun a b : OrderBookLevel => (a.price : ℚ) ≤ b.price) :=
      ⟨fun a b => le_total _ _⟩
    have : IsTrans OrderBookLevel (fun a b => (a.price : ℚ) ≤ b.price) :=
      ⟨fun a b c => le_trans⟩
    exact List.pairwise_insertionSort _ _
  exact List.pairwise_map.mpr hsorted

/-- A seller climbs falling ones. -/
theorem ladder_sell_falling : Rung.Falling (ladder snapshot .sell) := by
  have hsorted : (orderedLevels snapshot .sell).Pairwise (fun a b => (b.price : ℚ) ≤ a.price) := by
    have : Std.Total (fun a b : OrderBookLevel => (b.price : ℚ) ≤ a.price) :=
      ⟨fun a b => le_total _ _⟩
    have : IsTrans OrderBookLevel (fun a b => (b.price : ℚ) ≤ a.price) :=
      ⟨fun a b c hab hbc => le_trans hbc hab⟩
    exact List.pairwise_insertionSort _ _
  exact List.pairwise_map.mpr hsorted

/-- The ladder is as deep as the book. -/
theorem depth_ladder : Rung.depth (ladder snapshot side) = maxExecutableQuantity snapshot side := by
  have hperm := (orderedLevels_perm snapshot side).map (fun level => (level.size : ℚ))
  rw [Rung.depth, ladder, List.map_map, maxExecutableQuantity, ← hperm.sum_eq]
  rfl

end Ladder

/-! ### Both walks are walks over the ladder -/

/-- The accumulators of the walk by quantity: it takes base units, worth notional. -/
def quantityWalk (s : FillState) : Rung.Walk ℚ :=
  ⟨s.remaining, s.filledQuantity, s.filledNotional, s.levelsConsumed⟩

/-- The accumulators of the walk by notional: it takes notional, worth base units. -/
def notionalWalk (s : NotionalFillState) : Rung.Walk ℚ :=
  ⟨s.remaining, s.filledNotional, s.baseQuantity, s.levelsConsumed⟩

theorem quantityWalk_fillLevels (levels : List OrderBookLevel) (s : FillState) :
    quantityWalk (fillLevels levels s)
      = Rung.walk quantityDust (levels.map rungOf) (quantityWalk s) := by
  induction levels generalizing s with
  | nil => rfl
  | cons level rest ih =>
    rw [List.map_cons, fillLevels, Rung.walk]
    by_cases hdust : s.remaining ≤ quantityDust
    · rw [if_pos hdust, if_pos (show (quantityWalk s).remaining ≤ quantityDust from hdust)]
    · rw [if_neg hdust, if_neg (show ¬ (quantityWalk s).remaining ≤ quantityDust from hdust), ih]
      rfl

/-- A level by notional is its rung turned around: `take / price` is `take` at the reciprocal
    rate. -/
theorem notionalWalk_take (s : NotionalFillState) (level : OrderBookLevel) :
    notionalWalk (s.take level)
      = (notionalWalk s).take ⟨level.size * level.price, (level.price : ℚ)⁻¹⟩ := by
  simp only [notionalWalk, NotionalFillState.take, Rung.Walk.take, div_eq_mul_inv, mul_comm]

theorem notionalWalk_fillNotional (levels : List OrderBookLevel) (s : NotionalFillState) :
    notionalWalk (fillNotional levels s)
      = Rung.walk notionalDust (Rung.flip (levels.map rungOf)) (notionalWalk s) := by
  induction levels generalizing s with
  | nil => rfl
  | cons level rest ih =>
    show _ = Rung.walk notionalDust
      (⟨level.size * level.price, (level.price : ℚ)⁻¹⟩ :: Rung.flip (rest.map rungOf)) _
    rw [fillNotional, Rung.walk]
    by_cases hdust : s.remaining ≤ notionalDust
    · rw [if_pos hdust, if_pos (show (notionalWalk s).remaining ≤ notionalDust from hdust)]
    · rw [if_neg hdust, if_neg (show ¬ (notionalWalk s).remaining ≤ notionalDust from hdust), ih,
        notionalWalk_take]

/-! ### What an order gets -/

section Orders

variable (snapshot : OrderBookSnapshot) (side : TradeSide)

/-- The price of the first level walked. -/
def bestPrice : ℚ :=
  match orderedLevels snapshot side with
  | [] => 0
  | best :: _ => best.price

/-- What an order for a quantity gets. -/
def quantityFill (baseQuantity : ℚ) : QuantityExecutionEstimate :=
  let filled := Rung.reach quantityDust (ladder snapshot side) baseQuantity
  let notional := Rung.worth (ladder snapshot side) filled
  { side := side
    requestedBaseQuantity := baseQuantity
    filledBaseQuantity := filled
    filledNotionalUsd := notional
    averagePrice := notional / filled
    bestPrice := bestPrice snapshot side
    slippageBps := slippageBps side (notional / filled) (bestPrice snapshot side)
    levelsConsumed := Rung.steps quantityDust (ladder snapshot side) baseQuantity }

/-- What an order for a notional gets. -/
def notionalFill (notionalUsd : ℚ) : ExecutionEstimate :=
  let filled := Rung.reach notionalDust (Rung.flip (ladder snapshot side)) notionalUsd
  let base := Rung.worth (Rung.flip (ladder snapshot side)) filled
  { side := side
    requestedNotionalUsd := notionalUsd
    filledNotionalUsd := filled
    baseQuantity := base
    averagePrice := filled / base
    bestPrice := bestPrice snapshot side
    slippageBps := slippageBps side (filled / base) (bestPrice snapshot side)
    levelsConsumed := Rung.steps notionalDust (Rung.flip (ladder snapshot side)) notionalUsd }

theorem quantityDust_nonneg : 0 ≤ quantityDust := by
  norm_num [quantityDust]

theorem notionalDust_nonneg : 0 ≤ notionalDust := by
  norm_num [notionalDust]

variable {snapshot side} {q q' n : ℚ} {requireFullFill : Bool}

theorem ladder_flip_ne_nil : Rung.flip (ladder snapshot side) ≠ [] :=
  fun h => ladder_ne_nil snapshot side (List.map_eq_nil_iff.mp h)

theorem ladder_flip_sized : Rung.Sized (Rung.flip (ladder snapshot side)) :=
  (ladder_sized snapshot side).flip (ladder_rated snapshot side)

/-- What is filled of a quantity above the dust. -/
theorem quantityFill_bounds (hq : quantityDust < q) :
    0 < (quantityFill snapshot side q).filledBaseQuantity
      ∧ (quantityFill snapshot side q).filledBaseQuantity ≤ q
      ∧ (quantityFill snapshot side q).filledBaseQuantity ≤ Rung.depth (ladder snapshot side) := by
  have hsized := ladder_sized snapshot side
  obtain ⟨-, hasked, hthere⟩ :=
    Rung.reach_bounds quantityDust_nonneg hsized (quantityDust_nonneg.trans hq.le)
  exact ⟨Rung.reach_pos quantityDust_nonneg hsized (ladder_ne_nil snapshot side) hq, hasked, hthere⟩

/-- What is filled of a notional above the dust buys something. -/
theorem notionalFill_bounds (hn : notionalDust < n) :
    0 < (notionalFill snapshot side n).filledNotionalUsd
      ∧ (notionalFill snapshot side n).filledNotionalUsd ≤ n
      ∧ 0 < (notionalFill snapshot side n).baseQuantity := by
  have hsized := @ladder_flip_sized snapshot side
  have hrated := (ladder_rated snapshot side).flip
  have hpos := Rung.reach_pos notionalDust_nonneg hsized ladder_flip_ne_nil hn
  obtain ⟨-, hasked, hthere⟩ :=
    Rung.reach_bounds notionalDust_nonneg hsized (notionalDust_nonneg.trans hn.le)
  exact ⟨hpos, hasked, Rung.worth_pos hsized hrated hpos hthere⟩

/-- The walk by quantity, in closed form. -/
theorem fillLevels_orderedLevels (hq : 0 ≤ q) :
    fillLevels (orderedLevels snapshot side) ⟨q, 0, 0, 0⟩ =
      { remaining := q - (quantityFill snapshot side q).filledBaseQuantity
        filledQuantity := (quantityFill snapshot side q).filledBaseQuantity
        filledNotional := (quantityFill snapshot side q).filledNotionalUsd
        levelsConsumed := (quantityFill snapshot side q).levelsConsumed } := by
  have h := quantityWalk_fillLevels (orderedLevels snapshot side) ⟨q, 0, 0, 0⟩
  have hwalk := Rung.walk_eq quantityDust_nonneg (ladder_sized snapshot side)
    (quantityWalk ⟨q, 0, 0, 0⟩) hq
  rw [show (orderedLevels snapshot side).map rungOf = ladder snapshot side from rfl, hwalk] at h
  simp only [quantityWalk, Rung.Walk.mk.injEq, zero_add] at h
  obtain ⟨hremaining, htaken, hworth, hsteps⟩ := h
  cases hfill : fillLevels (orderedLevels snapshot side) ⟨q, 0, 0, 0⟩
  rw [hfill] at hremaining htaken hworth hsteps
  subst hremaining htaken hworth hsteps
  rfl

/-- The walk by notional, in closed form. -/
theorem fillNotional_orderedLevels (hn : 0 ≤ n) :
    fillNotional (orderedLevels snapshot side) ⟨n, 0, 0, 0⟩ =
      { remaining := n - (notionalFill snapshot side n).filledNotionalUsd
        filledNotional := (notionalFill snapshot side n).filledNotionalUsd
        baseQuantity := (notionalFill snapshot side n).baseQuantity
        levelsConsumed := (notionalFill snapshot side n).levelsConsumed } := by
  have h := notionalWalk_fillNotional (orderedLevels snapshot side) ⟨n, 0, 0, 0⟩
  have hwalk := Rung.walk_eq notionalDust_nonneg (@ladder_flip_sized snapshot side)
    (notionalWalk ⟨n, 0, 0, 0⟩) hn
  rw [show (orderedLevels snapshot side).map rungOf = ladder snapshot side from rfl, hwalk] at h
  simp only [notionalWalk, Rung.Walk.mk.injEq, zero_add] at h
  obtain ⟨hremaining, htaken, hworth, hsteps⟩ := h
  cases hfill : fillNotional (orderedLevels snapshot side) ⟨n, 0, 0, 0⟩
  rw [hfill] at hremaining htaken hworth hsteps
  subst hremaining htaken hworth hsteps
  rfl

/-- **The order by quantity.** It gets its fill, or fails where the walk leaves more than the
    tolerance. -/
theorem estimateMarketOrderQuantity_eq (hq : quantityDust < q) :
    estimateMarketOrderQuantity snapshot side q requireFullFill =
      if requireFullFill ∧ max quantityDust (q / 10 ^ 9)
          < q - (quantityFill snapshot side q).filledBaseQuantity then
        .error .insufficientDepth
      else .ok (quantityFill snapshot side q) := by
  have hpos : 0 < q := lt_of_le_of_lt quantityDust_nonneg hq
  have hwalk := @fillLevels_orderedLevels snapshot side q hpos.le
  have hfilled := (@quantityFill_bounds snapshot side q hq).1
  rw [estimateMarketOrderQuantity, if_neg (not_le.mpr hpos)]
  cases hlevels : orderedLevels snapshot side with
  | nil => exact absurd hlevels (orderedLevels_ne_nil snapshot side)
  | cons best rest =>
    have hbest : bestPrice snapshot side = best.price := by
      rw [bestPrice, hlevels]
    rw [hlevels] at hwalk
    simp only [hwalk, if_neg (not_le.mpr hfilled)]
    split_ifs
    · rfl
    · simp only [quantityFill, hbest]

/-- **The order by notional.** Above the dust an order by notional returns the fill of its walk,
    unless a full fill was asked for and the shortfall is more than the tolerance. -/
theorem estimateMarketOrder_eq (hn : notionalDust < n) :
    estimateMarketOrder snapshot side n requireFullFill =
      if requireFullFill ∧ max (1 / 10 ^ 6) (n / 10 ^ 9)
          < n - (notionalFill snapshot side n).filledNotionalUsd then
        .error .insufficientDepth
      else .ok (notionalFill snapshot side n) := by
  have hpos : 0 < n := lt_of_le_of_lt notionalDust_nonneg hn
  have hwalk := @fillNotional_orderedLevels snapshot side n hpos.le
  have hbase := (@notionalFill_bounds snapshot side n hn).2.2
  rw [estimateMarketOrder, if_neg (not_le.mpr hpos)]
  cases hlevels : orderedLevels snapshot side with
  | nil => exact absurd hlevels (orderedLevels_ne_nil snapshot side)
  | cons best rest =>
    have hbest : bestPrice snapshot side = best.price := by
      rw [bestPrice, hlevels]
    rw [hlevels] at hwalk
    simp only [hwalk, if_neg (not_le.mpr hbase)]
    split_ifs
    · rfl
    · simp only [notionalFill, hbest]

theorem eq_quantityFill {fill : QuantityExecutionEstimate} (hq : quantityDust < q)
    (h : estimateMarketOrderQuantity snapshot side q requireFullFill = .ok fill) :
    fill = quantityFill snapshot side q := by
  rw [estimateMarketOrderQuantity_eq hq] at h
  split_ifs at h
  exact (Except.ok.inj h).symm

theorem eq_notionalFill {fill : ExecutionEstimate} (hn : notionalDust < n)
    (h : estimateMarketOrder snapshot side n requireFullFill = .ok fill) :
    fill = notionalFill snapshot side n := by
  rw [estimateMarketOrder_eq hn] at h
  split_ifs at h
  exact (Except.ok.inj h).symm

/-- A walk that is asked for no more than dust takes nothing. -/
theorem quantityDust_lt_of_ok {fill : QuantityExecutionEstimate}
    (h : estimateMarketOrderQuantity snapshot side q requireFullFill = .ok fill) :
    quantityDust < q := by
  by_contra hdust
  have hle : q ≤ quantityDust := not_lt.mp hdust
  rw [estimateMarketOrderQuantity] at h
  split_ifs at h with hpos
  cases hlevels : orderedLevels snapshot side with
  | nil => exact absurd hlevels (orderedLevels_ne_nil snapshot side)
  | cons best rest =>
    rw [hlevels] at h
    simp [fillLevels, hle] at h

theorem notionalDust_lt_of_ok {fill : ExecutionEstimate}
    (h : estimateMarketOrder snapshot side n requireFullFill = .ok fill) : notionalDust < n := by
  by_contra hdust
  have hle : n ≤ notionalDust := not_lt.mp hdust
  rw [estimateMarketOrder] at h
  split_ifs at h with hpos
  cases hlevels : orderedLevels snapshot side with
  | nil => exact absurd hlevels (orderedLevels_ne_nil snapshot side)
  | cons best rest =>
    rw [hlevels] at h
    simp [fillNotional, hle] at h

/-! ### Prices and slippage -/

/-- The second price is no better than the first, for an order on this side. -/
def NoBetter (side : TradeSide) (price price' : ℚ) : Prop :=
  match side with
  | .buy => price ≤ price'
  | .sell => price' ≤ price

/-- The best of a set of notionals: the least a buyer pays, the most a seller gets. -/
def IsBest (side : TradeSide) (notionals : Set ℚ) (notional : ℚ) : Prop :=
  match side with
  | .buy => IsLeast notionals notional
  | .sell => IsGreatest notionals notional

/-- The slippage of an average price against the best one, before it is clamped. -/
def unclampedSlippageBps (side : TradeSide) (averagePrice bestPrice : ℚ) : ℚ :=
  match side with
  | .buy => (averagePrice / bestPrice - 1) * 10000
  | .sell => (1 - averagePrice / bestPrice) * 10000

theorem slippageBps_eq (averagePrice best : ℚ) :
    slippageBps side averagePrice best = max 0 (unclampedSlippageBps side averagePrice best) := by
  cases side <;> rfl

/-- A price no better slips no less. -/
theorem unclampedSlippageBps_le {best price price' : ℚ} (hbest : 0 < best)
    (h : NoBetter side price price') :
    unclampedSlippageBps side price best ≤ unclampedSlippageBps side price' best := by
  cases side with
  | buy =>
    have hle : price / best ≤ price' / best := div_le_div_of_nonneg_right h hbest.le
    show (price / best - 1) * 10000 ≤ (price' / best - 1) * 10000
    linarith
  | sell =>
    have hle : price' / best ≤ price / best := div_le_div_of_nonneg_right h hbest.le
    show (1 - price / best) * 10000 ≤ (1 - price' / best) * 10000
    linarith

/-- The best price does not slip. -/
theorem unclampedSlippageBps_self {best : ℚ} (hbest : 0 < best) :
    unclampedSlippageBps side best best = 0 := by
  cases side <;> simp [unclampedSlippageBps, div_self hbest.ne']

theorem bestPrice_pos : 0 < bestPrice snapshot side := by
  rw [bestPrice]
  cases hlevels : orderedLevels snapshot side with
  | nil => exact absurd hlevels (orderedLevels_ne_nil snapshot side)
  | cons best rest => exact best.price.2

/-- No rung is better than the best price. -/
theorem noBetter_of_mem_ladder {r : Rung ℚ} (hr : r ∈ ladder snapshot side) :
    NoBetter side (bestPrice snapshot side) r.rate := by
  cases hlevels : orderedLevels snapshot side with
  | nil => exact absurd hlevels (orderedLevels_ne_nil snapshot side)
  | cons best rest =>
    have hladder : ladder snapshot side = rungOf best :: rest.map rungOf := by
      rw [ladder, hlevels, List.map_cons]
    have hbest : bestPrice snapshot side = best.price := by
      rw [bestPrice, hlevels]
    rw [hladder] at hr
    rw [hbest]
    rcases List.mem_cons.mp hr with rfl | hrest
    · cases side <;> exact le_refl _
    · cases side with
      | buy =>
        have hrising := ladder_buy_rising snapshot
        rw [hladder] at hrising
        exact (List.pairwise_cons.mp hrising).1 r hrest
      | sell =>
        have hfalling := ladder_sell_falling snapshot
        rw [hladder] at hfalling
        exact (List.pairwise_cons.mp hfalling).1 r hrest

/-- A quantity is worth no better than at the best price. -/
theorem noBetter_worth (hq : 0 ≤ q) (hdepth : q ≤ Rung.depth (ladder snapshot side)) :
    NoBetter side (bestPrice snapshot side * q) (Rung.worth (ladder snapshot side) q) := by
  have hsized := ladder_sized snapshot side
  have hzero : Rung.worth (ladder snapshot side) 0 = 0 := Rung.worth_zero hsized
  cases side with
  | buy =>
    have h := Rung.le_worth_sub hsized (fun r hr => noBetter_of_mem_ladder hr) (le_refl 0) hq hdepth
    rwa [hzero, sub_zero, sub_zero] at h
  | sell =>
    have h := Rung.worth_sub_le hsized (fun r hr => noBetter_of_mem_ladder hr) (le_refl 0) hq hdepth
    rwa [hzero, sub_zero, sub_zero] at h

/-- Nor is the average price better than the best one. -/
theorem noBetter_averagePrice (hq : quantityDust < q) :
    NoBetter side (bestPrice snapshot side) (quantityFill snapshot side q).averagePrice := by
  obtain ⟨hpos, -, hdepth⟩ := @quantityFill_bounds snapshot side q hq
  have h := noBetter_worth hpos.le hdepth
  cases side with
  | buy => exact (le_div_iff₀ hpos).mpr h
  | sell => exact (div_le_iff₀ hpos).mpr h

/-- The average price is no better for more. -/
theorem averagePrice_noBetter (hq : quantityDust < q) (hle : q ≤ q') :
    NoBetter side (quantityFill snapshot side q).averagePrice
      (quantityFill snapshot side q').averagePrice := by
  have hsized := ladder_sized snapshot side
  obtain ⟨hpos, -, -⟩ := @quantityFill_bounds snapshot side q hq
  obtain ⟨hpos', -, hdepth⟩ := @quantityFill_bounds snapshot side q' (lt_of_lt_of_le hq hle)
  have hreach : Rung.reach quantityDust (ladder snapshot side) q
      ≤ Rung.reach quantityDust (ladder snapshot side) q' :=
    Rung.reach_le_reach quantityDust_nonneg hsized (quantityDust_nonneg.trans hq.le) hle
  cases side with
  | buy =>
    exact (div_le_div_iff₀ hpos hpos').mpr
      (Rung.worth_mul_le hsized (ladder_buy_rising snapshot) hpos.le hreach hdepth)
  | sell =>
    exact (div_le_div_iff₀ hpos' hpos).mpr
      (Rung.Falling.worth_mul_le hsized (ladder_sell_falling snapshot) hpos.le hreach hdepth)

/-- What is filled is worth the best it can be, over all ways of taking it from the levels as
    they are listed. -/
theorem isBest_filledNotional (hq : quantityDust < q) :
    IsBest side (Rung.worths ((levelsFor snapshot side).map rungOf)
        (quantityFill snapshot side q).filledBaseQuantity)
      (quantityFill snapshot side q).filledNotionalUsd := by
  have hsized := ladder_sized snapshot side
  obtain ⟨hpos, -, hdepth⟩ := @quantityFill_bounds snapshot side q hq
  rw [← Rung.worths_perm ((orderedLevels_perm snapshot side).map rungOf)]
  cases side with
  | buy => exact Rung.worth_isLeast hsized (ladder_buy_rising snapshot) hpos.le hdepth
  | sell => exact Rung.Falling.worth_isGreatest hsized (ladder_sell_falling snapshot) hpos.le hdepth

/-! ### There and back -/

/-- An order for the notional of a fill gives the fill back but for a dust of notional, `price`
    being one that no level of the fill is below. -/
structure GivesBackAt (price : ℚ) (fill : QuantityExecutionEstimate) (back : ExecutionEstimate) :
    Prop where
  base_le : back.baseQuantity ≤ fill.filledBaseQuantity
  base : price * (fill.filledBaseQuantity - back.baseQuantity) ≤ notionalDust
  notional_le : back.filledNotionalUsd ≤ fill.filledNotionalUsd
  notional : fill.filledNotionalUsd - back.filledNotionalUsd ≤ notionalDust
  average : price * |back.averagePrice - fill.averagePrice| * back.baseQuantity
    ≤ notionalDust * fill.averagePrice

/-- Averages differ by what the quantities and what they are worth do. -/
theorem average_sub_le {price base base' notional notional' dust : ℚ} (hbase : 0 < base)
    (hbase' : 0 < base') (hprice : 0 ≤ price) (hworth : price * base ≤ notional)
    (hle : base' ≤ base) (hle' : notional' ≤ notional) (hgap : price * (base - base') ≤ dust)
    (hgap' : notional - notional' ≤ dust) (hdust : 0 ≤ dust) :
    price * |notional' / base' - notional / base| * base' ≤ dust * (notional / base) := by
  have haverage : price ≤ notional / base := (le_div_iff₀ hbase).mpr hworth
  have hnonneg : 0 ≤ notional / base := hprice.trans haverage
  have hcancel : notional' / base' * base' = notional' := div_mul_cancel₀ _ hbase'.ne'
  have hcancel' : notional / base * base = notional := div_mul_cancel₀ _ hbase.ne'
  rw [mul_assoc, ← abs_of_pos hbase', ← abs_mul, abs_of_pos hbase', sub_mul, hcancel]
  rcases abs_cases (notional' - notional / base * base') with ⟨h, -⟩ | ⟨h, -⟩
  · -- the notional that is left was taken at no more than the average
    have hmore : notional' - notional / base * base' ≤ notional / base * (base - base') := by
      rw [mul_sub, hcancel']
      linarith
    rw [h]
    calc price * (notional' - notional / base * base')
        ≤ price * (notional / base * (base - base')) := mul_le_mul_of_nonneg_left hmore hprice
      _ = price * (base - base') * (notional / base) := by ring
      _ ≤ dust * (notional / base) := mul_le_mul_of_nonneg_right hgap hnonneg
  · have hless := mul_le_mul_of_nonneg_left hle hnonneg
    rw [hcancel'] at hless
    rw [h]
    calc price * -(notional' - notional / base * base')
        ≤ price * dust := mul_le_mul_of_nonneg_left (by linarith) hprice
      _ ≤ notional / base * dust := mul_le_mul_of_nonneg_right haverage hdust
      _ = dust * (notional / base) := mul_comm _ _

/-- What the order back gets. -/
theorem givesBackAt_notionalFill {price : ℚ} (hq : quantityDust < q)
    (hnotional : notionalDust < (quantityFill snapshot side q).filledNotionalUsd)
    (hprice : 0 ≤ price)
    (hlevels : ∀ level ∈
      (orderedLevels snapshot side).take (quantityFill snapshot side q).levelsConsumed,
      price ≤ level.price) :
    GivesBackAt price (quantityFill snapshot side q)
      (notionalFill snapshot side (quantityFill snapshot side q).filledNotionalUsd) := by
  have hsized := ladder_sized snapshot side
  have hrated := ladder_rated snapshot side
  obtain ⟨hpos, -, -⟩ := @quantityFill_bounds snapshot side q hq
  obtain ⟨-, hless, hback⟩ := @notionalFill_bounds snapshot side _ hnotional
  -- the rungs visited are those of the levels consumed
  have hdepth : (quantityFill snapshot side q).filledBaseQuantity ≤ Rung.depth
      ((ladder snapshot side).take (quantityFill snapshot side q).levelsConsumed) :=
    Rung.reach_le_depth_take
  have hrate : ∀ r ∈ (ladder snapshot side).take (quantityFill snapshot side q).levelsConsumed,
      price ≤ r.rate := by
    intro r hr
    rw [ladder, ← List.map_take] at hr
    obtain ⟨level, hlevel, rfl⟩ := List.mem_map.mp hr
    exact hlevels level hlevel
  have hworth := Rung.le_worth_sub (hsized.take _) hrate (le_refl 0) hpos.le hdepth
  rw [← Rung.worth_take hsized hpos.le hdepth, Rung.worth_zero (hsized.take _), sub_zero,
    sub_zero] at hworth
  obtain ⟨hle, hleft, hgap, -⟩ :=
    Rung.walk_back notionalDust_nonneg hsized hrated hpos.le hdepth hrate
  exact ⟨hle, hgap, hless, hleft,
    average_sub_le hpos hback hprice hworth hle hless hgap hleft notionalDust_nonneg⟩

/-- The order back does not fail. -/
theorem estimateMarketOrder_filledNotional (hq : quantityDust < q)
    (hnotional : notionalDust < (quantityFill snapshot side q).filledNotionalUsd) :
    estimateMarketOrder snapshot side (quantityFill snapshot side q).filledNotionalUsd
        requireFullFill
      = .ok (notionalFill snapshot side (quantityFill snapshot side q).filledNotionalUsd) := by
  have hback := givesBackAt_notionalFill hq hnotional (le_refl 0)
    (fun level _ => level.price.2.le)
  have hdust : notionalDust ≤ 1 / 10 ^ 6 := by norm_num [notionalDust]
  rw [estimateMarketOrder_eq hnotional, if_neg]
  rintro ⟨-, hfails⟩
  exact absurd (hback.notional.trans hdust) (not_le.mpr ((le_max_left _ _).trans_lt hfails))

/-- **Shortfall.** The walk leaves more than the tolerance where the book does. -/
theorem tolerance_lt_shortfall_iff (hq : quantityDust < q) :
    max quantityDust (q / 10 ^ 9) < q - (quantityFill snapshot side q).filledBaseQuantity
      ↔ max quantityDust (q / 10 ^ 9) < q - min q (maxExecutableQuantity snapshot side) := by
  have hsized := ladder_sized snapshot side
  obtain ⟨-, hasked, hdepth⟩ := @quantityFill_bounds snapshot side q hq
  rw [← depth_ladder]
  rcases Rung.reach_spec quantityDust_nonneg hsized (quantityDust_nonneg.trans hq.le) with h | h
  · -- dust is left, and no more in the book
    have hleft : q - (quantityFill snapshot side q).filledBaseQuantity ≤ quantityDust := h
    have hbook : q - min q (Rung.depth (ladder snapshot side)) ≤ quantityDust :=
      (sub_le_sub_left (le_min hasked hdepth) q).trans hleft
    have hmax := le_max_left quantityDust (q / 10 ^ 9)
    exact iff_of_false (not_lt.mpr (hleft.trans hmax)) (not_lt.mpr (hbook.trans hmax))
  · have hall : (quantityFill snapshot side q).filledBaseQuantity
        = Rung.depth (ladder snapshot side) := h
    rw [hall, min_eq_right (hall ▸ hasked)]

/-- The book has no more than dust to give beyond what is filled. -/
theorem min_sub_filled_le (hq : quantityDust < q) :
    min q (maxExecutableQuantity snapshot side)
      - (quantityFill snapshot side q).filledBaseQuantity ≤ quantityDust := by
  have hsized := ladder_sized snapshot side
  rw [← depth_ladder]
  rcases Rung.reach_spec quantityDust_nonneg hsized (quantityDust_nonneg.trans hq.le) with h | h
  · exact (sub_le_sub_right (min_le_left _ _) _).trans h
  · have hall : (quantityFill snapshot side q).filledBaseQuantity
        = Rung.depth (ladder snapshot side) := h
    rw [hall]
    exact (sub_nonpos.mpr (min_le_right _ _)).trans quantityDust_nonneg

end Orders

/-! ### The two walks -/

/-- What the two walks over a book do, for a side of it. -/
structure DepthWalks (snapshot : OrderBookSnapshot) (side : TradeSide) : Prop where
  /-- An order fails for want of depth where the book is short of it by more than the tolerance. -/
  fails : ∀ q, quantityDust < q →
    (estimateMarketOrderQuantity snapshot side q true = .error .insufficientDepth
      ↔ max quantityDust (q / 10 ^ 9) < q - min q (maxExecutableQuantity snapshot side))
  /-- Any other fills what it asks and the book has, but for dust. -/
  fills : ∀ q requireFullFill fill, quantityDust < q →
    estimateMarketOrderQuantity snapshot side q requireFullFill = .ok fill →
    fill.filledBaseQuantity ≤ min q (maxExecutableQuantity snapshot side)
      ∧ min q (maxExecutableQuantity snapshot side) - fill.filledBaseQuantity ≤ quantityDust
  /-- No way of taking what it fills from the levels is worth better. -/
  best : ∀ q requireFullFill fill, quantityDust < q →
    estimateMarketOrderQuantity snapshot side q requireFullFill = .ok fill →
    IsBest side (Rung.worths ((levelsFor snapshot side).map rungOf) fill.filledBaseQuantity)
      fill.filledNotionalUsd
  /-- The clamp never takes effect. -/
  slips : ∀ q requireFullFill fill, quantityDust < q →
    estimateMarketOrderQuantity snapshot side q requireFullFill = .ok fill →
    0 ≤ unclampedSlippageBps side fill.averagePrice fill.bestPrice
      ∧ fill.slippageBps = unclampedSlippageBps side fill.averagePrice fill.bestPrice
  /-- More is filled no better. -/
  worsens : ∀ q q' requireFullFill fill fill', quantityDust < q → q ≤ q' →
    estimateMarketOrderQuantity snapshot side q requireFullFill = .ok fill →
    estimateMarketOrderQuantity snapshot side q' requireFullFill = .ok fill' →
    NoBetter side fill.averagePrice fill'.averagePrice ∧ fill.slippageBps ≤ fill'.slippageBps
  /-- An order for the notional of a fill gives it back but for a dust of notional. -/
  givesBack : ∀ q requireFullFill fill (price : ℚ), quantityDust < q →
    estimateMarketOrderQuantity snapshot side q requireFullFill = .ok fill →
    notionalDust < fill.filledNotionalUsd → 0 < price →
    (∀ level ∈ (orderedLevels snapshot side).take fill.levelsConsumed, price ≤ level.price) →
    ∃ back, estimateMarketOrder snapshot side fill.filledNotionalUsd true = .ok back
      ∧ GivesBackAt price fill back

/-- **The two walks.** Over any book, in any order of its levels, the walk by quantity fills
    what there is at the best it can be worth, no better for more, and the walk by notional
    gives the fill back but for a dust of notional. Each field is read off the ladder of the
    book, whose partial sums bound what a quantity is worth. -/
theorem depth_walks (snapshot : OrderBookSnapshot) (side : TradeSide) :
    DepthWalks snapshot side where
  fails q hq := by
    -- a fill is refused exactly when the shortfall is above the tolerance
    rw [estimateMarketOrderQuantity_eq hq, ← tolerance_lt_shortfall_iff hq]
    split_ifs with h
    · exact iff_of_true rfl h.2
    · exact iff_of_false (fun hok => nomatch hok) (fun hlt => h ⟨rfl, hlt⟩)
  fills q requireFullFill fill hq hfill := by
    obtain rfl := eq_quantityFill hq hfill
    -- never more than asked for and never more than the book holds
    obtain ⟨-, hasked, hdepth⟩ := @quantityFill_bounds snapshot side q hq
    rw [depth_ladder] at hdepth
    exact ⟨le_min hasked hdepth, min_sub_filled_le hq⟩
  best q requireFullFill fill hq hfill := by
    obtain rfl := eq_quantityFill hq hfill
    exact isBest_filledNotional hq
  slips q requireFullFill fill hq hfill := by
    obtain rfl := eq_quantityFill hq hfill
    have hpos := @bestPrice_pos snapshot side
    have hslips := unclampedSlippageBps_le hpos (@noBetter_averagePrice snapshot side q hq)
    -- against the best price itself nothing slips, so the clamp at zero changes nothing
    rw [unclampedSlippageBps_self hpos] at hslips
    exact ⟨hslips, (slippageBps_eq _ _).trans (max_eq_right hslips)⟩
  worsens q q' requireFullFill fill fill' hq hle hfill hfill' := by
    obtain rfl := eq_quantityFill hq hfill
    obtain rfl := eq_quantityFill (lt_of_lt_of_le hq hle) hfill'
    have hworse := @averagePrice_noBetter snapshot side q q' hq hle
    refine ⟨hworse, ?_⟩
    -- the slippage is a function of the average price alone, and grows with it
    show slippageBps side _ (bestPrice snapshot side) ≤ slippageBps side _ (bestPrice snapshot side)
    rw [slippageBps_eq, slippageBps_eq]
    exact max_le_max_left 0 (unclampedSlippageBps_le bestPrice_pos hworse)
  givesBack q requireFullFill fill price hq hfill hnotional hprice hlevels := by
    obtain rfl := eq_quantityFill hq hfill
    exact ⟨_, estimateMarketOrder_filledNotional hq hnotional,
      givesBackAt_notionalFill hq hnotional hprice.le hlevels⟩

/-- The order for the notional of a fill gives back the quantity and the average price up to the
    tolerances of the order by quantity. -/
def GivesBack (snapshot : OrderBookSnapshot) (side : TradeSide) (q : ℚ) : Prop :=
  ∀ fill, estimateMarketOrderQuantity snapshot side q true = .ok fill →
    notionalDust < fill.filledNotionalUsd →
    ∃ back, estimateMarketOrder snapshot side fill.filledNotionalUsd true = .ok back
      ∧ |back.baseQuantity - fill.filledBaseQuantity|
        ≤ max quantityDust (fill.filledBaseQuantity / 10 ^ 9)
      ∧ |back.averagePrice - fill.averagePrice| ≤ fill.averagePrice / 10 ^ 9

/-- A book whose lowest bid is for many units at next to nothing. -/
def junkBids : OrderBookSnapshot where
  venue := "Coinbase"
  asset := "BTC"
  marketKind := .spot
  symbol := "BTC-USD"
  bids := [⟨100, 1⟩, ⟨⟨1 / 10 ^ 15, by norm_num⟩, 100000⟩]
  asks := [⟨101, 1⟩]
  observedAt := 0
  bids_ne := by simp
  asks_ne := by simp
  spread := by
    simp only [List.mem_cons, List.not_mem_nil, or_false, forall_eq_or_imp, forall_eq]
    show (100 : ℚ) < 101 ∧ (1 / 10 ^ 15 : ℚ) < 101
    norm_num

/-- Its lowest bid takes a hundred thousand units for less than the dust of the order by notional,
    which therefore gives back one unit of them. -/
theorem not_givesBack_junkBids :
    ¬ ∀ (snapshot : OrderBookSnapshot) (side : TradeSide) (q : ℚ), quantityDust < q →
      GivesBack snapshot side q := by
  intro h
  have hdust : quantityDust < 100001 := by norm_num [quantityDust]
  have hfill : (estimateMarketOrderQuantity junkBids .sell 100001 true).toOption.map
      (fun fill => (fill.filledBaseQuantity, fill.filledNotionalUsd))
      = some (100001, 100 + 1 / 10 ^ 10) := by
    decide +kernel
  have hback : (estimateMarketOrder junkBids .sell (100 + 1 / 10 ^ 10) true).toOption.map
      ExecutionEstimate.baseQuantity = some 1 := by
    decide +kernel
  cases hok : estimateMarketOrderQuantity junkBids .sell 100001 true with
  | error e =>
    rw [hok] at hfill
    cases hfill
  | ok fill =>
    rw [hok] at hfill
    obtain ⟨hquantity, hnotional⟩ := Prod.mk.inj (Option.some.inj hfill)
    obtain ⟨back, hbackOk, hbase, -⟩ := h junkBids .sell 100001 hdust fill hok
      (by rw [hnotional]; norm_num [notionalDust])
    rw [hnotional] at hbackOk
    rw [hbackOk] at hback
    rw [Option.some.inj hback, hquantity] at hbase
    norm_num [quantityDust] at hbase

end InefficiencyEngine.Execution
