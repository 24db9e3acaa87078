import InefficiencyEngine.Portfolio.Market
import Mathlib.Data.List.Sort
import Mathlib.Tactic.Positivity

namespace InefficiencyEngine.Portfolio

/-!
# Filling an exact quantity against visible depth

`estimate_market_order_quantity` of `execution.py`: the levels of the side an order
consumes are walked from the best price on, each giving up to its size, until the
requested quantity is filled.  The walk either fills the quantity (up to the tolerance
of the source) or fails for want of depth; the average price of a fill is positive, so
the settlement that records it passes its own validation.
-/

/-! ### The walk -/

/-- Why a fill is refused. -/
inductive FillError
  | valueError
  | insufficientDepth
  deriving DecidableEq

/-- `QuantityExecutionEstimate`. What a walk by quantity reports. -/
structure QuantityExecutionEstimate where
  side : TradeSide
  requestedBaseQuantity : ℚ
  filledBaseQuantity : ℚ
  filledNotionalUsd : ℚ
  averagePrice : ℚ
  bestPrice : ℚ
  slippageBps : ℚ
  levelsConsumed : ℕ

/-- The accumulators of the walk. -/
structure FillState where
  remaining : ℚ
  filledQuantity : ℚ
  filledNotional : ℚ
  levelsConsumed : ℕ

/-- What is left to fill below this is dust. -/
def quantityDust : ℚ := 1 / 10 ^ 12

/-- `_ordered_levels`: best price first. -/
def orderedLevels (snapshot : OrderBookSnapshot) (side : TradeSide) : List OrderBookLevel :=
  match side with
  | .buy => snapshot.asks.insertionSort (fun a b => (a.price : ℚ) ≤ b.price)
  | .sell => snapshot.bids.insertionSort (fun a b => (b.price : ℚ) ≤ a.price)

/-- One level of the walk. -/
def FillState.take (s : FillState) (level : OrderBookLevel) : FillState :=
  let takeQuantity := min s.remaining level.size
  { remaining := s.remaining - takeQuantity
    filledQuantity := s.filledQuantity + takeQuantity
    filledNotional := s.filledNotional + takeQuantity * level.price
    levelsConsumed := s.levelsConsumed + 1 }

/-- The loop over the ordered levels, which stops once only dust remains. -/
def fillLevels : List OrderBookLevel → FillState → FillState
  | [], s => s
  | level :: rest, s => if s.remaining ≤ quantityDust then s else fillLevels rest (s.take level)

/-- The slippage of an average price against the best one, never below zero. -/
def slippageBps (side : TradeSide) (averagePrice bestPrice : ℚ) : ℚ :=
  match side with
  | .buy => max 0 ((averagePrice / bestPrice - 1) * 10000)
  | .sell => max 0 ((1 - averagePrice / bestPrice) * 10000)

/-- `estimate_market_order_quantity`. The walk takes the levels by price, and a rest above the
    dust is missing depth if the order must fill. -/
def estimateMarketOrderQuantity (snapshot : OrderBookSnapshot) (side : TradeSide)
    (baseQuantity : ℚ) (requireFullFill : Bool) :
    Except FillError QuantityExecutionEstimate :=
  if baseQuantity ≤ 0 then .error .valueError
  else
    match orderedLevels snapshot side with
    | [] => .error .insufficientDepth
    | best :: rest =>
      let fill := fillLevels (best :: rest) ⟨baseQuantity, 0, 0, 0⟩
      -- the rest that is forgiven: the dust, or a billionth of the order
      if requireFullFill ∧ max quantityDust (baseQuantity / 10 ^ 9) < fill.remaining then
        .error .insufficientDepth
      else if fill.filledQuantity ≤ 0 then .error .insufficientDepth
      else
        .ok
          { side := side
            requestedBaseQuantity := baseQuantity
            filledBaseQuantity := fill.filledQuantity
            filledNotionalUsd := fill.filledNotional
            averagePrice := fill.filledNotional / fill.filledQuantity
            bestPrice := best.price
            slippageBps := slippageBps side (fill.filledNotional / fill.filledQuantity) best.price
            levelsConsumed := fill.levelsConsumed }

/-! ### What the walk preserves -/

/-- Quantity moves from `remaining` to `filledQuantity` and nowhere else. -/
theorem fillLevels_quantity (levels : List OrderBookLevel) (s : FillState) :
    (fillLevels levels s).filledQuantity + (fillLevels levels s).remaining
      = s.filledQuantity + s.remaining := by
  induction levels generalizing s with
  | nil => rfl
  | cons level rest ih =>
    by_cases hdust : s.remaining ≤ quantityDust
    · rw [fillLevels, if_pos hdust]
    · rw [fillLevels, if_neg hdust, ih]
      simp only [FillState.take]
      ring

/-- The accumulators of a walk that has bought something only at positive prices. -/
def FillState.Sound (s : FillState) : Prop :=
  0 ≤ s.remaining ∧ 0 ≤ s.filledQuantity ∧ 0 ≤ s.filledNotional
    ∧ (0 < s.filledQuantity → 0 < s.filledNotional)

/-- One level keeps the accumulators sound. -/
theorem FillState.Sound.take {s : FillState} (hs : s.Sound) (level : OrderBookLevel) :
    (s.take level).Sound := by
  obtain ⟨hrem, hqty, hnot, hpos⟩ := hs
  have hprice : (0 : ℚ) < level.price := level.price.2
  have hsize : (0 : ℚ) < level.size := level.size.2
  have htake : 0 ≤ min s.remaining (level.size : ℚ) := le_min hrem hsize.le
  have hle : min s.remaining (level.size : ℚ) ≤ s.remaining := min_le_left _ _
  refine ⟨?_, ?_, ?_, ?_⟩
  · simp only [FillState.take]
    linarith
  · simp only [FillState.take]
    linarith
  · simp only [FillState.take]
    exact add_nonneg hnot (mul_nonneg htake hprice.le)
  · simp only [FillState.take]
    intro hgain
    rcases htake.eq_or_lt with hzero | htaken
    · rw [← hzero, add_zero] at hgain
      rw [← hzero, zero_mul, add_zero]
      exact hpos hgain
    · exact add_pos_of_nonneg_of_pos hnot (mul_pos htaken hprice)

/-- The whole walk keeps the accumulators sound. -/
theorem FillState.Sound.fillLevels {s : FillState} (hs : s.Sound)
    (levels : List OrderBookLevel) : (fillLevels levels s).Sound := by
  induction levels generalizing s with
  | nil => exact hs
  | cons level rest ih =>
    by_cases hdust : s.remaining ≤ quantityDust
    · rw [Portfolio.fillLevels, if_pos hdust]
      exact hs
    · rw [Portfolio.fillLevels, if_neg hdust]
      exact ih (hs.take level)

/-- Slippage is never negative. -/
theorem slippageBps_nonneg (side : TradeSide) (averagePrice bestPrice : ℚ) :
    0 ≤ slippageBps side averagePrice bestPrice := by
  cases side <;> exact le_max_left _ _

/-- Only a non-positive quantity is a value error. -/
theorem estimateMarketOrderQuantity_ne_valueError {snapshot : OrderBookSnapshot} {side : TradeSide}
    {baseQuantity : ℚ} {requireFullFill : Bool} (h : 0 < baseQuantity) :
    estimateMarketOrderQuantity snapshot side baseQuantity requireFullFill ≠ .error .valueError := by
  unfold estimateMarketOrderQuantity
  rw [if_neg (not_le.mpr h)]
  dsimp only
  split
  · simp
  · split_ifs <;> simp

/-- **Fill soundness.** A fill has a positive quantity, notional and average price, takes
    no more than was requested, and reports a non-negative slippage. -/
theorem estimateMarketOrderQuantity_sound {snapshot : OrderBookSnapshot} {side : TradeSide}
    {baseQuantity : ℚ} {requireFullFill : Bool} {fill : QuantityExecutionEstimate}
    (h : estimateMarketOrderQuantity snapshot side baseQuantity requireFullFill = .ok fill) :
    0 < fill.filledBaseQuantity ∧ 0 < fill.filledNotionalUsd ∧ 0 < fill.averagePrice
      ∧ fill.filledBaseQuantity ≤ baseQuantity ∧ 0 ≤ fill.slippageBps := by
  unfold estimateMarketOrderQuantity at h
  split at h
  · cases h
  · rename_i hbase
    split at h
    -- an empty book raises before anything is filled
    · cases h
    · rename_i best rest _
      have hsound : FillState.Sound ⟨baseQuantity, 0, 0, 0⟩ :=
        ⟨(not_le.mp hbase).le, le_refl _, le_refl _, fun hlt => absurd hlt (lt_irrefl _)⟩
      obtain ⟨hrem, -, -, hpos⟩ := hsound.fillLevels (best :: rest)
      have hqty := fillLevels_quantity (best :: rest) ⟨baseQuantity, 0, 0, 0⟩
      dsimp only at h hqty
      split at h
      · cases h
      · split at h
        · cases h
        -- something was filled, so the average price is the notional of it
        · rename_i hfilled
          injection h with h
          subst h
          have hfilled := not_le.mp hfilled
          refine ⟨hfilled, hpos hfilled, div_pos (hpos hfilled) hfilled, ?_,
            slippageBps_nonneg _ _ _⟩
          show (Portfolio.fillLevels (best :: rest) _).filledQuantity ≤ baseQuantity
          linarith

end InefficiencyEngine.Portfolio
