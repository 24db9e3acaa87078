import InefficiencyEngine.Execution.CapacityFrontier
import InefficiencyEngine.Lib.Dict

namespace InefficiencyEngine.Execution

open Portfolio

/-!
# What the shadow evaluator reads off a book

`shadow.py` looks at the books of an opportunity's legs again some time after it was found.
`_book_metrics` has its own walk over the levels of a book, for a target quantity, and
`build_leg_attribution` compares the metrics of each leg before and after.  On a book that holds the
target the walk is that of the execution engine (`walksAgree`): both take what a ladder gives.
-/

/-! ### The metrics of a book -/

/-- `_book_metrics`'s result. The dictionary of the figures of one book. -/
structure BookMetrics where
  bestPrice : ℚ
  spreadBps : Option ℚ
  availableDepthUsd : ℚ
  availableBaseQuantity : ℚ
  depthMultiple : Option ℚ
  slippageBps : Option ℚ

/-- The accumulators of the walk. -/
structure ShadowFill where
  remaining : ℚ
  filledQuantity : ℚ
  filledNotional : ℚ

/-- One level of the walk. -/
def ShadowFill.take (s : ShadowFill) (level : OrderBookLevel) : ShadowFill :=
  let take := min s.remaining level.size
  { remaining := s.remaining - take
    filledQuantity := s.filledQuantity + take
    filledNotional := s.filledNotional + take * level.price }

/-- The loop over the levels, which stops once no more than `1e-12` remains. -/
def walkLevels : List OrderBookLevel → ShadowFill → ShadowFill
  | [], s => s
  | level :: rest, s => if s.remaining ≤ 1 / 10 ^ 12 then s else walkLevels rest (s.take level)

/-- The levels a leg crosses, best price first. -/
def crossedLevels (book : OrderBookSnapshot) : Side → List OrderBookLevel
  | .long => book.asks.insertionSort (fun a b => (a.price : ℚ) ≤ b.price)
  | .short => book.bids.insertionSort (fun a b => (b.price : ℚ) ≤ a.price)

/-- The slippage of a fill. -/
def shadowSlippageBps (side : Side) (bestPrice : ℚ) (fill : ShadowFill) : Option ℚ :=
  if fill.filledQuantity ≤ 0 then none
  else
    let averagePrice := fill.filledNotional / fill.filledQuantity
    match side with
    | .long => some (max 0 ((averagePrice / bestPrice - 1) * 10000))
    | .short => some (max 0 ((1 - averagePrice / bestPrice) * 10000))

/-- `_book_metrics`. A side that is empty has the best price zero, and no depth. -/
def bookMetrics (book : OrderBookSnapshot) (side : Side) (targetQuantity : Option ℚ) :
    BookMetrics :=
  let bestBid := (book.bids.map (fun level => (level.price : ℚ))).max?.getD 0
  let bestAsk := (book.asks.map (fun level => (level.price : ℚ))).min?.getD 0
  let mid := (bestBid + bestAsk) / 2
  let levels := crossedLevels book side
  let bestPrice : ℚ :=
    match levels with
    | [] => 0
    | best :: _ => best.price
  let availableBaseQuantity := (levels.map (fun level => (level.size : ℚ))).sum
  { bestPrice := bestPrice
    spreadBps := if 0 < mid then some ((bestAsk - bestBid) / mid * 10000) else none
    availableDepthUsd := (levels.map (fun level => (level.price * level.size : ℚ))).sum
    availableBaseQuantity := availableBaseQuantity
    depthMultiple :=
      match targetQuantity with
      | none => none
      | some target => if 0 < target then some (availableBaseQuantity / target) else none
    slippageBps :=
      match targetQuantity with
      | none => none
      | some target =>
        if target ≤ 0 then none
        else shadowSlippageBps side bestPrice (walkLevels levels ⟨target, 0, 0⟩) }

/-! ### The legs of an opportunity -/

/-- `ShadowLegAttribution`. What became of a leg between the two looks at its book. -/
structure ShadowLegAttribution where
  venue : String
  asset : String
  marketKind : MarketKind
  side : Side
  initialBestPrice : Option ℚ
  verificationBestPrice : Option ℚ
  adverseSelectionBps : Option ℚ
  initialSpreadBps : Option ℚ
  verificationSpreadBps : Option ℚ
  initialAvailableDepthUsd : Option ℚ
  verificationAvailableDepthUsd : Option ℚ
  initialAvailableBaseQuantity : Option ℚ
  verificationAvailableBaseQuantity : Option ℚ
  initialDepthMultiple : Option ℚ
  verificationDepthMultiple : Option ℚ
  initialSlippageBps : Option ℚ
  verificationSlippageBps : Option ℚ

/-- `_book_map`: of several books of one instrument the last. -/
def bookMap (books : List OrderBookSnapshot) : Dict (String × String × String) OrderBookSnapshot :=
  Dict.collect bookKey books

/-- How far the best price of a leg moved against it. -/
def adverseSelectionBps (side : Side) (initialBest verificationBest : ℚ) : ℚ :=
  match side with
  | .long => (verificationBest / initialBest - 1) * 10000
  | .short => (initialBest / verificationBest - 1) * 10000

/-- The row of a leg. A book that is missing at either time leaves its half of the row empty. -/
def legAttribution (initialBooks verificationBooks : List OrderBookSnapshot)
    (targetQuantity : Option ℚ) (leg : OpportunityLeg) : ShadowLegAttribution :=
  let initial := ((bookMap initialBooks).get? (legKey leg)).map
    (fun book => bookMetrics book leg.side targetQuantity)
  let verification := ((bookMap verificationBooks).get? (legKey leg)).map
    (fun book => bookMetrics book leg.side targetQuantity)
  { venue := leg.venue
    asset := leg.asset
    marketKind := leg.marketKind
    side := leg.side
    initialBestPrice := initial.map BookMetrics.bestPrice
    verificationBestPrice := verification.map BookMetrics.bestPrice
    adverseSelectionBps :=
      match initial, verification with
      | some i, some v => some (adverseSelectionBps leg.side i.bestPrice v.bestPrice)
      | _, _ => none
    initialSpreadBps := initial.bind BookMetrics.spreadBps
    verificationSpreadBps := verification.bind BookMetrics.spreadBps
    initialAvailableDepthUsd := initial.map BookMetrics.availableDepthUsd
    verificationAvailableDepthUsd := verification.map BookMetrics.availableDepthUsd
    initialAvailableBaseQuantity := initial.map BookMetrics.availableBaseQuantity
    verificationAvailableBaseQuantity := verification.map BookMetrics.availableBaseQuantity
    initialDepthMultiple := initial.bind BookMetrics.depthMultiple
    verificationDepthMultiple := verification.bind BookMetrics.depthMultiple
    initialSlippageBps := initial.bind BookMetrics.slippageBps
    verificationSlippageBps := verification.bind BookMetrics.slippageBps }

/-- `build_leg_attribution`: the rows of the legs, and how far apart their prices moved. -/
def buildLegAttribution (opportunity : Opportunity)
    (initialBooks verificationBooks : List OrderBookSnapshot) (targetQuantity : Option ℚ) :
    List ShadowLegAttribution × Option ℚ :=
  let rows := opportunity.legs.map (legAttribution initialBooks verificationBooks targetQuantity)
  let adverseMoves := rows.filterMap ShadowLegAttribution.adverseSelectionBps
  (rows,
    if 2 ≤ adverseMoves.length then
      some (adverseMoves.max?.getD 0 - adverseMoves.min?.getD 0)
    else none)

/-! ### The two walks -/

section Walks

variable {book : OrderBookSnapshot} {side : Side} {q : ℚ}

theorem crossedLevels_eq (book : OrderBookSnapshot) (side : Side) :
    crossedLevels book side = orderedLevels book (tradeSide side) := by
  cases side <;> rfl

/-- The walk of the execution engine without its count of levels. -/
def shadowFill (s : FillState) : ShadowFill := ⟨s.remaining, s.filledQuantity, s.filledNotional⟩

/-- **One walk.** The two loops take the same from every level. -/
theorem walkLevels_eq (levels : List OrderBookLevel) (s : FillState) :
    walkLevels levels (shadowFill s) = shadowFill (fillLevels levels s) := by
  induction levels generalizing s with
  | nil => rfl
  | cons level rest ih =>
    by_cases hdust : s.remaining ≤ quantityDust
    · rw [fillLevels, if_pos hdust, walkLevels]
      exact if_pos hdust
    · rw [fillLevels, if_neg hdust, ← ih, walkLevels]
      exact if_neg hdust

/-- The metrics and the execution engine start from one price. -/
theorem bestPrice_bookMetrics (targetQuantity : Option ℚ) :
    (bookMetrics book side targetQuantity).bestPrice = bestPrice book (tradeSide side) := by
  have hlevels := crossedLevels_eq book side
  unfold bookMetrics bestPrice
  cases hordered : orderedLevels book (tradeSide side) with
  | nil =>
    rw [hordered] at hlevels
    simp only [hlevels]
  | cons best rest =>
    rw [hordered] at hlevels
    simp only [hlevels]

/-- The quantity there is does not depend on the order of the levels. -/
theorem availableBaseQuantity_bookMetrics (targetQuantity : Option ℚ) :
    (bookMetrics book side targetQuantity).availableBaseQuantity
      = maxExecutableQuantity book (tradeSide side) := by
  rw [maxExecutableQuantity, ← ((orderedLevels_perm book (tradeSide side)).map _).sum_eq,
    ← crossedLevels_eq]
  rfl

/-- How many times the target the book holds. -/
theorem depthMultiple_bookMetrics (hq : 0 < q) :
    (bookMetrics book side (some q)).depthMultiple
      = some (maxExecutableQuantity book (tradeSide side) / q) := by
  rw [← @availableBaseQuantity_bookMetrics book side (some q)]
  exact if_pos hq

/-- The slippage of the metrics is that of the fill of the execution engine. -/
theorem slippageBps_bookMetrics (hq : quantityDust < q) :
    (bookMetrics book side (some q)).slippageBps
      = some (quantityFill book (tradeSide side) q).slippageBps := by
  have hpos : 0 < q := lt_of_le_of_lt quantityDust_nonneg hq
  have hfilled := (@quantityFill_bounds book (tradeSide side) q hq).1
  have hwalk : walkLevels (crossedLevels book side) ⟨q, 0, 0⟩
      = ⟨q - (quantityFill book (tradeSide side) q).filledBaseQuantity,
        (quantityFill book (tradeSide side) q).filledBaseQuantity,
        (quantityFill book (tradeSide side) q).filledNotionalUsd⟩ := by
    rw [crossedLevels_eq]
    refine (walkLevels_eq _ ⟨q, 0, 0, 0⟩).trans ?_
    rw [fillLevels_orderedLevels hpos.le]
    rfl
  have hslippage : (bookMetrics book side (some q)).slippageBps
      = shadowSlippageBps side (bookMetrics book side (some q)).bestPrice
        (walkLevels (crossedLevels book side) ⟨q, 0, 0⟩) := if_neg (not_le.mpr hpos)
  rw [hslippage, hwalk, bestPrice_bookMetrics, shadowSlippageBps, if_neg (not_le.mpr hfilled)]
  cases side <;> rfl

/-- The evaluator and the execution engine judge one book alike. -/
structure WalksAgree (book : OrderBookSnapshot) (side : Side) (q : ℚ) : Prop where
  bestPrice : (bookMetrics book side (some q)).bestPrice = bestPrice book (tradeSide side)
    ∧ ∀ estimate, estimateMarketOrderQuantity book (tradeSide side) q true = .ok estimate →
      (bookMetrics book side (some q)).bestPrice = estimate.bestPrice
  full : ∀ multiple ∈ (bookMetrics book side (some q)).depthMultiple, 1 ≤ multiple →
    ∃ estimate, estimateMarketOrderQuantity book (tradeSide side) q true = .ok estimate
      ∧ (bookMetrics book side (some q)).slippageBps = some estimate.slippageBps
  short : max (1 / 10 ^ 12) (q / 10 ^ 9)
      < q - (bookMetrics book side (some q)).availableBaseQuantity →
    estimateMarketOrderQuantity book (tradeSide side) q true = .error .insufficientDepth
      ∧ ∃ multiple ∈ (bookMetrics book side (some q)).depthMultiple, multiple < 1

/-- **One book, one judgement**, for every book in any order of its levels. -/
theorem walksAgree (book : OrderBookSnapshot) (side : Side) (hq : quantityDust < q) :
    WalksAgree book side q := by
  have hpos : 0 < q := lt_of_le_of_lt quantityDust_nonneg hq
  have hmultiple := @depthMultiple_bookMetrics book side q hpos
  refine ⟨⟨bestPrice_bookMetrics _, fun estimate hestimate => ?_⟩, ?_, ?_⟩
  · rw [eq_quantityFill hq hestimate]
    exact bestPrice_bookMetrics _
  · intro multiple hmem hone
    rw [hmultiple, Option.mem_some_iff] at hmem
    rw [← hmem, le_div_iff₀ hpos, one_mul] at hone
    refine ⟨_, estimateMarketOrderQuantity_of_depth hq ?_, slippageBps_bookMetrics hq⟩
    exact hone.trans (le_add_of_nonneg_right quantityDust_nonneg)
  · intro hshort
    rw [availableBaseQuantity_bookMetrics] at hshort
    have hthere := (@quantityFill_bounds book (tradeSide side) q hq).2.2
    rw [depth_ladder] at hthere
    refine ⟨?_, _, hmultiple, ?_⟩
    · rw [estimateMarketOrderQuantity_eq hq, if_pos]
      exact ⟨rfl, lt_of_lt_of_le hshort (sub_le_sub_left hthere q)⟩
    · rw [div_lt_one hpos]
      have hpositive : (0 : ℚ) < 1 / 10 ^ 12 := by norm_num
      linarith [(le_max_left (1 / 10 ^ 12 : ℚ) (q / 10 ^ 9)).trans_lt hshort]

end Walks

end InefficiencyEngine.Execution
