import InefficiencyEngine.Lib.Hops
import InefficiencyEngine.Lib.Loop
import InefficiencyEngine.Execution.DepthWalks

namespace InefficiencyEngine.Execution

open Portfolio

/-!
# Stablecoin conversion against visible depth

`conversion_depth.py`: an amount of one of USD, USDC and USDT is quoted in another over the
Coinbase books of the stablecoins against the dollar.  A stablecoin is sold by quantity, and bought
by notional, so a conversion is one hop or two, each a walk over a ladder of falling rates.  The
laws of chains of hops then say that conversion creates no money (`convertsNoMoney`).

The effective rate falls with the amount only but for the dust that a walk leaves: a walk that stops
with dust at the end of a level is worse off than one for a little more
(`not_rateFalls_cliffBook`).
-/

/-! ### Books and quotes -/

/-- The order book fields that a conversion reads besides those of every book. -/
structure QuotedBook extends OrderBookSnapshot where
  quoteCurrency : Option String
  requestLatencyMs : Option ℚ≥0

/-- `StablecoinConversionDepthLeg`. One hop of a conversion with what the walk over its book
    found. -/
structure StablecoinConversionDepthLeg where
  sourceCurrency : String
  targetCurrency : String
  inputAmount : Positive
  outputAmount : Positive
  effectiveRate : Positive
  bestRate : Positive
  slippageBps : ℚ≥0
  levelsConsumed : { levels : ℕ // 0 < levels }
  bookSymbol : String
  bookObservedAt : Instant
  requestLatencyMs : Option ℚ≥0

/-- `StablecoinConversionDepthQuote`: one leg or two. -/
structure StablecoinConversionDepthQuote where
  sourceCurrency : String
  targetCurrency : String
  inputAmount : Positive
  outputAmount : Positive
  effectiveRate : Positive
  totalSlippageBps : ℚ≥0
  legs : List StablecoinConversionDepthLeg
  observedAt : Instant
  maxBookAgeSeconds : ℚ≥0
  bookSkewSeconds : ℚ≥0
  legs_length : 1 ≤ legs.length ∧ legs.length ≤ 2

/-- `SUPPORTED_STABLECOINS`. -/
def supportedStablecoins : List String := ["USDC", "USDT"]

/-- `SUPPORTED_CURRENCIES`. -/
def supportedCurrencies : List String := "USD" :: supportedStablecoins

/-- The keyword arguments of a quote, with their defaults. -/
structure QuoteOptions where
  now : Instant
  maxBookAgeSeconds : ℚ := 15
  maxBookSkewSeconds : ℚ := 5

/-! ### The quote -/

/-- `_validate_currency`. -/
def validateCurrency (upper : String → String) (currency : String) : Except Raised String :=
  if upper currency ∈ supportedCurrencies then .ok (upper currency)
  else .error (.valueError ("unsupported stablecoin conversion currency: " ++ currency))

/-- `_stablecoin_book`: exactly one book of the stablecoin in dollars. -/
def stablecoinBook (upper : String → String) (books : List QuotedBook) (stablecoin : String) :
    Except Raised QuotedBook :=
  let expectedSymbol := stablecoin ++ "-USD"
  match books.filter (fun book => book.venue = "Coinbase" ∧ upper book.asset = stablecoin
      ∧ book.marketKind = .spot ∧ book.symbol = expectedSymbol
      ∧ upper (book.quoteCurrency.getD "") = "USD") with
  | [book] => .ok book
  | _ => .error (.valueError
      ("exactly one Coinbase " ++ expectedSymbol ++ " level-2 book is required"))

/-- `_book_age_seconds`. -/
def bookAgeSeconds (now : Instant) (book : QuotedBook) : ℚ :=
  max 0 (totalSeconds (now - book.observedAt))

/-- An order that cannot be filled raises, for want of depth or over its argument. -/
def filled {α : Type} (argument : String) : Except FillError α → Except Raised α
  | .ok estimate => .ok estimate
  | .error .valueError => .error (.valueError (argument ++ " must be positive"))
  | .error .insufficientDepth => .error (.runtimeError "insufficient depth")

/-- The validation of a leg. -/
def conversionLeg (sourceCurrency targetCurrency : String)
    (inputAmount outputAmount effectiveRate bestRate slippageBps : ℚ) (levelsConsumed : ℕ)
    (book : QuotedBook) : Except Raised StablecoinConversionDepthLeg := do
  let model := "StablecoinConversionDepthLeg"
  let input ← positive model "input_amount" inputAmount
  let output ← positive model "output_amount" outputAmount
  let effective ← positive model "effective_rate" effectiveRate
  let best ← positive model "best_rate" bestRate
  let slippage ← nonNegative model "slippage_bps" slippageBps
  if h : 0 < levelsConsumed then
    .ok
      { sourceCurrency := sourceCurrency
        targetCurrency := targetCurrency
        inputAmount := input
        outputAmount := output
        effectiveRate := effective
        bestRate := best
        slippageBps := slippage
        levelsConsumed := ⟨levelsConsumed, h⟩
        bookSymbol := book.symbol
        bookObservedAt := book.observedAt
        requestLatencyMs := book.requestLatencyMs }
  else .error (.validationError model "levels_consumed")

/-- `_stablecoin_to_usd`: the stablecoin is sold by quantity. -/
def stablecoinToUsd (stablecoin : String) (amount : ℚ) (book : QuotedBook) :
    Except Raised StablecoinConversionDepthLeg := do
  let estimate ← filled "base_quantity"
    (estimateMarketOrderQuantity book.toOrderBookSnapshot .sell amount true)
  let output := estimate.filledNotionalUsd
  conversionLeg stablecoin "USD" amount output (output / amount) estimate.bestPrice
    estimate.slippageBps estimate.levelsConsumed book

/-- `_usd_to_stablecoin`: the stablecoin is bought by notional. -/
def usdToStablecoin (stablecoin : String) (amountUsd : ℚ) (book : QuotedBook) :
    Except Raised StablecoinConversionDepthLeg := do
  let estimate ← filled "notional_usd"
    (estimateMarketOrder book.toOrderBookSnapshot .buy amountUsd true)
  let output := estimate.baseQuantity
  let bestRate := 1 / estimate.bestPrice
  let effectiveRate := output / amountUsd
  conversionLeg "USD" stablecoin amountUsd output effectiveRate bestRate
    (max 0 ((bestRate - effectiveRate) / bestRate * 10000)) estimate.levelsConsumed book

/-- The books a conversion needs. -/
def neededBooks (upper : String → String) (books : List QuotedBook) (source target : String) :
    Except Raised (List QuotedBook) := do
  let sold ← if source ∈ supportedStablecoins then
      (stablecoinBook upper books source).map (fun book => [book])
    else .ok []
  let bought ← if target ∈ supportedStablecoins ∧ target ≠ source then
      (stablecoinBook upper books target).map (fun book => [book])
    else .ok []
  .ok (sold ++ bought)

/-- What the checks on the books find: how old the oldest is, how far apart they were observed, and
    when the first of them was. -/
structure BookTimes where
  worstAge : ℚ
  skew : ℚ
  observedAt : Instant

/-- The checks on the books. The age is that of the oldest book and the skew that between the
    earliest and the latest. -/
def checkBooks (needed : List QuotedBook) (options : QuoteOptions) : Except Raised BookTimes :=
  match needed with
  | [] => .error (.valueError "at least one stablecoin/USD book is required")
  | book :: rest =>
    let worstAge := (rest.map (bookAgeSeconds options.now)).foldl max
      (bookAgeSeconds options.now book)
    let earliest := (rest.map (fun other => other.observedAt)).foldl min book.observedAt
    let latest := (rest.map (fun other => other.observedAt)).foldl max book.observedAt
    -- one book has no skew
    let skew := if rest = [] then 0 else totalSeconds (latest - earliest)
    if options.maxBookAgeSeconds < worstAge then
      .error (.valueError "stablecoin conversion book stale")
    else if rest ≠ [] ∧ options.maxBookSkewSeconds < skew then
      .error (.valueError "stablecoin conversion book skew too high")
    else .ok ⟨worstAge, skew, earliest⟩

/-- The legs of a conversion, and what the last one yields. -/
def conversionLegs (upper : String → String) (books : List QuotedBook) (source target : String)
    (inputAmount : ℚ) : Except Raised (List StablecoinConversionDepthLeg × ℚ) := do
  if source = "USD" then
    let leg ← usdToStablecoin target inputAmount (← stablecoinBook upper books target)
    return ([leg], (leg.outputAmount : ℚ))
  else if target = "USD" then
    let leg ← stablecoinToUsd source inputAmount (← stablecoinBook upper books source)
    return ([leg], (leg.outputAmount : ℚ))
  else
    let first ← stablecoinToUsd source inputAmount (← stablecoinBook upper books source)
    let second ← usdToStablecoin target first.outputAmount (← stablecoinBook upper books target)
    return ([first, second], (second.outputAmount : ℚ))

/-- The best rate over the legs. -/
def legsBestRate (legs : List StablecoinConversionDepthLeg) : ℚ :=
  (legs.map (fun leg => (leg.bestRate : ℚ))).prod

/-- The slippage of an effective rate against the best one, before it is clamped. -/
def rateSlippageBps (bestRate effectiveRate : ℚ) : ℚ :=
  (bestRate - effectiveRate) / bestRate * 10000

/-- The validation of a quote. The slippage is that against the product of the best rates of the
    legs. -/
def conversionQuote (source target : String) (inputAmount outputAmount : ℚ)
    (legs : List StablecoinConversionDepthLeg) (times : BookTimes) :
    Except Raised StablecoinConversionDepthQuote := do
  let model := "StablecoinConversionDepthQuote"
  let effectiveRate := outputAmount / inputAmount
  let input ← positive model "input_amount" inputAmount
  let output ← positive model "output_amount" outputAmount
  let effective ← positive model "effective_rate" effectiveRate
  let slippage ← nonNegative model "total_slippage_bps"
    (max 0 (rateSlippageBps (legsBestRate legs) effectiveRate))
  if h : 1 ≤ legs.length ∧ legs.length ≤ 2 then
    let age ← nonNegative model "max_book_age_seconds" times.worstAge
    let skew ← nonNegative model "book_skew_seconds" times.skew
    .ok
      { sourceCurrency := source
        targetCurrency := target
        inputAmount := input
        outputAmount := output
        effectiveRate := effective
        totalSlippageBps := slippage
        legs := legs
        observedAt := times.observedAt
        maxBookAgeSeconds := age
        bookSkewSeconds := skew
        legs_length := h }
  else .error (.validationError model "legs")

/-- `quote_stablecoin_conversion_depth`. The currencies are checked before the amount, and the
    books before the walk through them. -/
def quoteStablecoinConversionDepth (upper : String → String)
    (sourceCurrency targetCurrency : String) (inputAmount : ℚ) (books : List QuotedBook)
    (options : QuoteOptions) : Except Raised StablecoinConversionDepthQuote := do
  let source ← validateCurrency upper sourceCurrency
  let target ← validateCurrency upper targetCurrency
  if source = target then
    .error (.valueError "source and target currencies must differ")
  else if inputAmount ≤ 0 then
    .error (.valueError "input_amount must be positive")
  else
    let needed ← neededBooks upper books source target
    let times ← checkBooks needed options
    let (legs, outputAmount) ← conversionLegs upper books source target inputAmount
    conversionQuote source target inputAmount outputAmount legs times

/-! ### Walks as hops -/

section Hops

variable (book : OrderBookSnapshot)

/-- Selling a stablecoin by quantity. -/
def sellHop : Hop ℚ :=
  Hop.ofLadder (ladder book .sell) quantityDust (bestPrice book .sell) quantityDust_nonneg
    bestPrice_pos (ladder_ne_nil book .sell) (ladder_sized book .sell) (ladder_rated book .sell)
    (ladder_sell_falling book) (fun _ hr => noBetter_of_mem_ladder hr)

/-- A buyer's ladder by notional has the reciprocal of the best price as its best rate. -/
theorem rate_le_of_mem_flip {r : Rung ℚ} (hr : r ∈ Rung.flip (ladder book .buy)) :
    r.rate ≤ 1 / bestPrice book .buy := by
  obtain ⟨r', hr', rfl⟩ := List.mem_map.mp hr
  have hbest : bestPrice book .buy ≤ r'.rate := noBetter_of_mem_ladder hr'
  rw [one_div]
  exact inv_anti₀ bestPrice_pos hbest

/-- Buying a stablecoin by notional. -/
def buyHop : Hop ℚ :=
  Hop.ofLadder (Rung.flip (ladder book .buy)) notionalDust (1 / bestPrice book .buy)
    notionalDust_nonneg (one_div_pos.mpr bestPrice_pos) ladder_flip_ne_nil ladder_flip_sized
    (ladder_rated book .buy).flip ((ladder_buy_rising book).flip (ladder_rated book .buy))
    (fun _ hr => rate_le_of_mem_flip book hr)

/-- The first price walked is that of a level. -/
theorem exists_level_bestPrice (side : TradeSide) :
    ∃ level ∈ levelsFor book side, bestPrice book side = level.price := by
  have hperm := orderedLevels_perm book side
  rw [bestPrice]
  cases hlevels : orderedLevels book side with
  | nil => exact absurd hlevels (orderedLevels_ne_nil book side)
  | cons best rest =>
    rw [hlevels] at hperm
    exact ⟨best, hperm.subset List.mem_cons_self, rfl⟩

/-- The spread: what is bought at the best price and sold at the best price is worth less. -/
theorem bestPrice_sell_lt_buy : bestPrice book .sell < bestPrice book .buy := by
  obtain ⟨bid, hbid, hsell⟩ := exists_level_bestPrice book .sell
  obtain ⟨ask, hask, hbuy⟩ := exists_level_bestPrice book .buy
  rw [hsell, hbuy]
  exact book.spread bid hbid ask hask

theorem sell_mul_buy_le : (sellHop book).best * (buyHop book).best ≤ 1 := by
  show bestPrice book .sell * (1 / bestPrice book .buy) ≤ 1
  rw [mul_one_div]
  exact (div_le_one bestPrice_pos).mpr (bestPrice_sell_lt_buy book).le

end Hops

/-! ### A quote is a run of hops -/

section Quotes

variable {upper : String → String} {books : List QuotedBook} {stablecoin : String}
  {book : QuotedBook} {amount : ℚ} {leg : StablecoinConversionDepthLeg}

/-- The amount that a walk may leave of what a leg is given. -/
def StablecoinConversionDepthLeg.dust (leg : StablecoinConversionDepthLeg) : ℚ :=
  if leg.sourceCurrency = "USD" then notionalDust else quantityDust

/-- The share of what a leg is given that is surely exchanged. -/
def StablecoinConversionDepthLeg.kept (leg : StablecoinConversionDepthLeg) : ℚ :=
  1 - leg.dust / leg.inputAmount

/-- A leg that records a hop. -/
structure Records (leg : StablecoinConversionDepthLeg) (hop : Hop ℚ) (amount : ℚ) : Prop where
  above : hop.dust < amount
  input : (leg.inputAmount : ℚ) = amount
  output : (leg.outputAmount : ℚ) = hop.convert amount
  best : (leg.bestRate : ℚ) = hop.best
  dust : leg.dust = hop.dust

theorem eq_ok_of_filled {α : Type} {argument : String} {result : Except FillError α} {estimate : α}
    (h : filled argument result = .ok estimate) : result = .ok estimate := by
  rcases result with _ | _
  · rename_i e
    cases e <;> cases h
  · cases h
    rfl

/-- A validated leg has the values it was given. -/
theorem of_conversionLeg {source target : String} {input output effective best slippage : ℚ}
    {levels : ℕ}
    (h : conversionLeg source target input output effective best slippage levels book = .ok leg) :
    leg.sourceCurrency = source ∧ (leg.inputAmount : ℚ) = input
      ∧ (leg.outputAmount : ℚ) = output ∧ (leg.bestRate : ℚ) = best := by
  obtain ⟨input', hinput, h⟩ := bind_eq_ok h
  obtain ⟨output', houtput, h⟩ := bind_eq_ok h
  obtain ⟨effective', -, h⟩ := bind_eq_ok h
  obtain ⟨best', hbest, h⟩ := bind_eq_ok h
  obtain ⟨slippage', -, h⟩ := bind_eq_ok h
  split_ifs at h
  cases h
  exact ⟨rfl, positive_eq_ok hinput, positive_eq_ok houtput, positive_eq_ok hbest⟩

theorem records_sell (hstable : stablecoin ≠ "USD")
    (h : stablecoinToUsd stablecoin amount book = .ok leg) :
    Records leg (sellHop book.toOrderBookSnapshot) amount := by
  obtain ⟨estimate, hestimate, h⟩ := bind_eq_ok h
  have hok := eq_ok_of_filled hestimate
  have habove := quantityDust_lt_of_ok hok
  obtain rfl := eq_quantityFill habove hok
  obtain ⟨hsource, hinput, houtput, hbest⟩ := of_conversionLeg h
  refine ⟨habove, hinput, houtput, hbest, ?_⟩
  rw [StablecoinConversionDepthLeg.dust, hsource, if_neg hstable]
  rfl

theorem records_buy (h : usdToStablecoin stablecoin amount book = .ok leg) :
    Records leg (buyHop book.toOrderBookSnapshot) amount := by
  obtain ⟨estimate, hestimate, h⟩ := bind_eq_ok h
  have hok := eq_ok_of_filled hestimate
  have habove := notionalDust_lt_of_ok hok
  obtain rfl := eq_notionalFill habove hok
  obtain ⟨hsource, hinput, houtput, hbest⟩ := of_conversionLeg h
  refine ⟨habove, hinput, houtput, hbest, ?_⟩
  rw [StablecoinConversionDepthLeg.dust, hsource, if_pos rfl]
  rfl

/-- The hops of a conversion. -/
def hopsOf (upper : String → String) (books : List QuotedBook) (source target : String) :
    Except Raised (List (Hop ℚ)) := do
  if source = "USD" then
    let book ← stablecoinBook upper books target
    return [buyHop book.toOrderBookSnapshot]
  else if target = "USD" then
    let book ← stablecoinBook upper books source
    return [sellHop book.toOrderBookSnapshot]
  else
    let sold ← stablecoinBook upper books source
    let bought ← stablecoinBook upper books target
    return [sellHop sold.toOrderBookSnapshot, buyHop bought.toOrderBookSnapshot]

/-- Legs that record a run of hops. -/
structure Follow (legs : List StablecoinConversionDepthLeg) (hops : List (Hop ℚ))
    (amount output : ℚ) : Prop where
  run : Hop.Run hops amount (legs.map (fun leg => (leg.inputAmount : ℚ))) output
  best : legsBestRate legs = Hop.bestRate hops
  kept : (legs.map StablecoinConversionDepthLeg.kept).prod
    = Hop.kept hops (legs.map (fun leg => (leg.inputAmount : ℚ)))

theorem follow_nil : Follow [] [] amount amount :=
  ⟨Hop.Run.nil amount, rfl, rfl⟩

/-- One more leg in front. -/
theorem Follow.cons {hop : Hop ℚ} {hops : List (Hop ℚ)} {legs : List StablecoinConversionDepthLeg}
    {output : ℚ} (hleg : Records leg hop amount)
    (hrest : Follow legs hops leg.outputAmount output) :
    Follow (leg :: legs) (hop :: hops) amount output := by
  obtain ⟨hrun, hbest, hkept⟩ := hrest
  rw [hleg.output] at hrun
  refine ⟨?_, ?_, ?_⟩
  · rw [List.map_cons, hleg.input]
    exact Hop.Run.cons hleg.above hrun
  · rw [Hop.bestRate_cons, ← hbest, ← hleg.best]
    rfl
  · rw [List.map_cons, List.prod_cons, List.map_cons, Hop.kept_cons, hkept,
      StablecoinConversionDepthLeg.kept, hleg.dust]

/-- **Legs.** The legs of a conversion record a run of its hops. -/
theorem follow_conversionLegs {source target : String} {legs : List StablecoinConversionDepthLeg}
    {output : ℚ} (h : conversionLegs upper books source target amount = .ok (legs, output)) :
    ∃ hops, hopsOf upper books source target = .ok hops ∧ Follow legs hops amount output := by
  unfold conversionLegs at h
  unfold hopsOf
  -- from the dollar: one purchase of the target
  by_cases hsource : source = "USD"
  · rw [if_pos hsource] at h
    rw [if_pos hsource]
    obtain ⟨book, hbook, h⟩ := bind_eq_ok h
    obtain ⟨leg, hleg, h⟩ := bind_eq_ok h
    cases h
    exact ⟨_, by rw [hbook]; rfl, follow_nil.cons (records_buy hleg)⟩
  · rw [if_neg hsource] at h
    rw [if_neg hsource]
    -- to the dollar: one sale of the source
    by_cases htarget : target = "USD"
    · rw [if_pos htarget] at h
      rw [if_pos htarget]
      obtain ⟨book, hbook, h⟩ := bind_eq_ok h
      obtain ⟨leg, hleg, h⟩ := bind_eq_ok h
      cases h
      exact ⟨_, by rw [hbook]; rfl, follow_nil.cons (records_sell hsource hleg)⟩
    -- otherwise through the dollar: a sale, and a purchase with what it gave
    · rw [if_neg htarget] at h
      rw [if_neg htarget]
      obtain ⟨sold, hsold, h⟩ := bind_eq_ok h
      obtain ⟨first, hfirst, h⟩ := bind_eq_ok h
      obtain ⟨bought, hbought, h⟩ := bind_eq_ok h
      obtain ⟨second, hsecond, h⟩ := bind_eq_ok h
      cases h
      exact ⟨_, by rw [hsold, hbought]; rfl,
        (follow_nil.cons (records_buy hsecond)).cons (records_sell hsource hfirst)⟩

/-- There and back, the best rates are worth no more than one: each book is crossed both ways. A
    conversion through the dollar uses two books in each direction, and each book contributes a
    product of at most one. -/
theorem bestRate_mul_le {source target : String} {hops back : List (Hop ℚ)}
    (hne : source ≠ target) (hhops : hopsOf upper books source target = .ok hops)
    (hback : hopsOf upper books target source = .ok back) :
    Hop.bestRate hops * Hop.bestRate back ≤ 1 := by
  unfold hopsOf at hhops hback
  -- from the dollar: one book, bought there and sold back
  by_cases hsource : source = "USD"
  · have htarget : target ≠ "USD" := fun h => hne (hsource.trans h.symm)
    rw [if_pos hsource] at hhops
    rw [if_neg htarget, if_pos hsource] at hback
    obtain ⟨book, hbook, hhops⟩ := bind_eq_ok hhops
    rw [hbook] at hback
    cases hhops
    cases hback
    rw [Hop.bestRate_cons, Hop.bestRate_cons, Hop.bestRate_nil, mul_one, mul_one, mul_comm]
    exact sell_mul_buy_le book.toOrderBookSnapshot
  · rw [if_neg hsource] at hhops
    -- to the dollar: the same book, the other way round
    by_cases htarget : target = "USD"
    · rw [if_pos htarget] at hhops hback
      obtain ⟨book, hbook, hhops⟩ := bind_eq_ok hhops
      rw [hbook] at hback
      cases hhops
      cases hback
      rw [Hop.bestRate_cons, Hop.bestRate_cons, Hop.bestRate_nil, mul_one, mul_one]
      exact sell_mul_buy_le book.toOrderBookSnapshot
    -- between two coins: both books are crossed both ways
    · rw [if_neg htarget] at hhops
      rw [if_neg htarget, if_neg hsource] at hback
      obtain ⟨sold, hsold, hhops⟩ := bind_eq_ok hhops
      obtain ⟨bought, hbought, hhops⟩ := bind_eq_ok hhops
      rw [hbought, hsold] at hback
      cases hhops
      cases hback
      have hfirst := sell_mul_buy_le sold.toOrderBookSnapshot
      have hsecond := sell_mul_buy_le bought.toOrderBookSnapshot
      have hpos := mul_pos (sellHop bought.toOrderBookSnapshot).best_pos
        (buyHop bought.toOrderBookSnapshot).best_pos
      simp only [Hop.bestRate_cons, Hop.bestRate_nil, mul_one]
      calc (sellHop sold.toOrderBookSnapshot).best * (buyHop bought.toOrderBookSnapshot).best
            * ((sellHop bought.toOrderBookSnapshot).best * (buyHop sold.toOrderBookSnapshot).best)
          = (sellHop sold.toOrderBookSnapshot).best * (buyHop sold.toOrderBookSnapshot).best
            * ((sellHop bought.toOrderBookSnapshot).best
              * (buyHop bought.toOrderBookSnapshot).best) := by ring
        _ ≤ 1 * ((sellHop bought.toOrderBookSnapshot).best
              * (buyHop bought.toOrderBookSnapshot).best) :=
            mul_le_mul_of_nonneg_right hfirst hpos.le
        _ ≤ 1 := by rwa [one_mul]

variable {sourceCurrency targetCurrency : String} {options options' : QuoteOptions}
  {quote quote' : StablecoinConversionDepthQuote} {amount' : ℚ}

/-- What a successful quote went through. -/
structure Quoted (upper : String → String) (books : List QuotedBook)
    (sourceCurrency targetCurrency : String) (amount : ℚ)
    (quote : StablecoinConversionDepthQuote) : Prop where
  differ : upper sourceCurrency ≠ upper targetCurrency
  amount_pos : 0 < amount
  legs : conversionLegs upper books (upper sourceCurrency) (upper targetCurrency) amount
    = .ok (quote.legs, (quote.outputAmount : ℚ))
  effective : (quote.effectiveRate : ℚ) = quote.outputAmount / amount
  slippage : (quote.totalSlippageBps : ℚ)
    = max 0 (rateSlippageBps (legsBestRate quote.legs) quote.effectiveRate)

theorem eq_upper_of_validateCurrency {currency value : String}
    (h : validateCurrency upper currency = .ok value) : value = upper currency := by
  unfold validateCurrency at h
  split_ifs at h
  exact (Except.ok.inj h).symm

theorem quoted_of_ok (h : quoteStablecoinConversionDepth upper sourceCurrency targetCurrency amount
      books options = .ok quote) :
    Quoted upper books sourceCurrency targetCurrency amount quote := by
  obtain ⟨source, hsource, h⟩ := bind_eq_ok h
  obtain ⟨target, htarget, h⟩ := bind_eq_ok h
  obtain rfl := eq_upper_of_validateCurrency hsource
  obtain rfl := eq_upper_of_validateCurrency htarget
  split_ifs at h with hsame hamount
  obtain ⟨needed, -, h⟩ := bind_eq_ok h
  obtain ⟨times, -, h⟩ := bind_eq_ok h
  obtain ⟨⟨legs, output⟩, hlegs, h⟩ := bind_eq_ok h
  obtain ⟨input', -, h⟩ := bind_eq_ok h
  obtain ⟨output', houtput, h⟩ := bind_eq_ok h
  obtain ⟨effective', heffective, h⟩ := bind_eq_ok h
  obtain ⟨slippage', hslippage, h⟩ := bind_eq_ok h
  split_ifs at h with hlength
  obtain ⟨age, -, h⟩ := bind_eq_ok h
  obtain ⟨skew, -, h⟩ := bind_eq_ok h
  cases h
  obtain rfl := positive_eq_ok houtput
  have heffective := positive_eq_ok heffective
  refine ⟨hsame, not_le.mp hamount, hlegs, heffective, ?_⟩
  rw [heffective]
  exact nonNegative_eq_ok hslippage

/-- A quote is a run of its hops. -/
theorem Quoted.follow (h : Quoted upper books sourceCurrency targetCurrency amount quote) :
    ∃ hops, hopsOf upper books (upper sourceCurrency) (upper targetCurrency) = .ok hops
      ∧ Follow quote.legs hops amount quote.outputAmount :=
  follow_conversionLegs h.legs

/-- The effective rate is no more than the best one. -/
theorem Quoted.effectiveRate_le (h : Quoted upper books sourceCurrency targetCurrency amount quote) :
    (quote.effectiveRate : ℚ) ≤ legsBestRate quote.legs := by
  obtain ⟨hops, -, hfollow⟩ := h.follow
  rw [h.effective, hfollow.best]
  exact (div_le_iff₀ h.amount_pos).mpr hfollow.run.le

theorem Quoted.slippage_nonneg (h : Quoted upper books sourceCurrency targetCurrency amount quote) :
    0 ≤ rateSlippageBps (legsBestRate quote.legs) quote.effectiveRate := by
  obtain ⟨hops, -, hfollow⟩ := h.follow
  have hbest : 0 < legsBestRate quote.legs := by
    rw [hfollow.best]
    exact Hop.bestRate_pos
  have hgap := sub_nonneg.mpr h.effectiveRate_le
  exact mul_nonneg (div_nonneg hgap hbest.le) (by norm_num)

/-- Two quotes of one conversion run the same hops. -/
theorem Quoted.follow_both (h : Quoted upper books sourceCurrency targetCurrency amount quote)
    (h' : Quoted upper books sourceCurrency targetCurrency amount' quote') :
    ∃ hops, Follow quote.legs hops amount quote.outputAmount
      ∧ Follow quote'.legs hops amount' quote'.outputAmount := by
  obtain ⟨hops, hhops, hfollow⟩ := h.follow
  obtain ⟨hops', hhops', hfollow'⟩ := h'.follow
  rw [hhops] at hhops'
  cases hhops'
  exact ⟨hops, hfollow, hfollow'⟩

/-- **Falling rates.** A quote for more has no better rate, but for the dust of the legs. -/
theorem Quoted.rate_falls (h : Quoted upper books sourceCurrency targetCurrency amount quote)
    (h' : Quoted upper books sourceCurrency targetCurrency amount' quote') (hle : amount ≤ amount') :
    quote'.effectiveRate * (quote.legs.map StablecoinConversionDepthLeg.kept).prod
      ≤ quote.effectiveRate := by
  obtain ⟨hops, hfollow, hfollow'⟩ := h.follow_both h'
  have hmul := hfollow.run.mul_le hfollow'.run h.amount_pos hle
  rw [h.effective, h'.effective, hfollow.kept, div_mul_eq_mul_div,
    div_le_div_iff₀ h'.amount_pos h.amount_pos]
  calc (quote'.outputAmount : ℚ) * Hop.kept hops _ * amount
      = quote'.outputAmount * amount * Hop.kept hops _ := by ring
    _ ≤ quote.outputAmount * amount' := hmul

end Quotes

/-! ### No money is created -/

/-- What holds of the conversions quoted over some books. -/
structure ConvertsNoMoney (upper : String → String) (books : List QuotedBook) : Prop where
  /-- There and back returns no more than was given. -/
  roundTrip : ∀ a b amount options options' there back,
    quoteStablecoinConversionDepth upper a b amount books options = .ok there →
    quoteStablecoinConversionDepth upper b a there.outputAmount books options' = .ok back →
    (back.outputAmount : ℚ) ≤ amount
  /-- More given is no less got. -/
  outputRises : ∀ a b amount amount' options options' quote quote',
    quoteStablecoinConversionDepth upper a b amount books options = .ok quote →
    quoteStablecoinConversionDepth upper a b amount' books options' = .ok quote' →
    amount ≤ amount' → (quote.outputAmount : ℚ) ≤ quote'.outputAmount
  /-- More given is got at no better a rate, but for the dust of the legs. -/
  rateFalls : ∀ a b amount amount' options options' quote quote',
    quoteStablecoinConversionDepth upper a b amount books options = .ok quote →
    quoteStablecoinConversionDepth upper a b amount' books options' = .ok quote' →
    amount ≤ amount' →
    quote'.effectiveRate * (quote.legs.map StablecoinConversionDepthLeg.kept).prod
      ≤ quote.effectiveRate
  /-- No quote beats the best rates of its legs, so the clamp on its slippage never takes
      effect. -/
  noBetter : ∀ a b amount options quote,
    quoteStablecoinConversionDepth upper a b amount books options = .ok quote →
    (quote.effectiveRate : ℚ) ≤ legsBestRate quote.legs
      ∧ 0 ≤ rateSlippageBps (legsBestRate quote.legs) quote.effectiveRate
      ∧ (quote.totalSlippageBps : ℚ)
        = rateSlippageBps (legsBestRate quote.legs) quote.effectiveRate
  /-- A second leg converts what the first one yields. -/
  chained : ∀ a b amount options quote first second,
    quoteStablecoinConversionDepth upper a b amount books options = .ok quote →
    quote.legs = [first, second] →
    quote.outputAmount = second.outputAmount ∧ second.inputAmount = first.outputAmount
      ∧ ∃ book, stablecoinBook upper books (upper b) = .ok book
        ∧ usdToStablecoin (upper b) first.outputAmount book = .ok second

/-- The second leg of a conversion. -/
theorem of_conversionLegs_pair {upper : String → String} {books : List QuotedBook}
    {source target : String} {amount output : ℚ} {first second : StablecoinConversionDepthLeg}
    (h : conversionLegs upper books source target amount = .ok ([first, second], output)) :
    output = second.outputAmount ∧ ∃ book, stablecoinBook upper books target = .ok book
      ∧ usdToStablecoin target first.outputAmount book = .ok second := by
  unfold conversionLegs at h
  split_ifs at h
  · obtain ⟨book, -, h⟩ := bind_eq_ok h
    obtain ⟨leg, -, h⟩ := bind_eq_ok h
    cases h
  · obtain ⟨book, -, h⟩ := bind_eq_ok h
    obtain ⟨leg, -, h⟩ := bind_eq_ok h
    cases h
  · obtain ⟨sold, -, h⟩ := bind_eq_ok h
    obtain ⟨first', -, h⟩ := bind_eq_ok h
    obtain ⟨bought, hbought, h⟩ := bind_eq_ok h
    obtain ⟨second', hsecond, h⟩ := bind_eq_ok h
    cases h
    exact ⟨rfl, bought, hbought, hsecond⟩

/-- **No money is created.** Over any books, a conversion and its return lose, more is worth more
    at a falling rate, and no rate beats the best prices. -/
theorem convertsNoMoney (upper : String → String) (books : List QuotedBook) :
    ConvertsNoMoney upper books where
  roundTrip a b amount options options' there back hthere hback := by
    have hthere := quoted_of_ok hthere
    have hback := quoted_of_ok hback
    obtain ⟨hops, hhops, hfollow⟩ := hthere.follow
    obtain ⟨hops', hhops', hfollow'⟩ := hback.follow
    exact hfollow.run.no_gain hfollow'.run hthere.amount_pos
      (bestRate_mul_le hthere.differ hhops hhops')
  outputRises a b amount amount' options options' quote quote' h h' hle := by
    obtain ⟨hops, hfollow, hfollow'⟩ := (quoted_of_ok h).follow_both (quoted_of_ok h')
    exact hfollow.run.mono hfollow'.run hle
  rateFalls a b amount amount' options options' quote quote' h h' hle :=
    (quoted_of_ok h).rate_falls (quoted_of_ok h') hle
  noBetter a b amount options quote h := by
    have hquoted := quoted_of_ok h
    have hslips := hquoted.slippage_nonneg
    exact ⟨hquoted.effectiveRate_le, hslips, hquoted.slippage.trans (max_eq_right hslips)⟩
  chained a b amount options quote first second h hlegs := by
    have hquoted := (quoted_of_ok h).legs
    rw [hlegs] at hquoted
    obtain ⟨houtput, book, hbook, hsecond⟩ := of_conversionLegs_pair hquoted
    exact ⟨Subtype.ext houtput, Subtype.ext (records_buy hsecond).input, book, hbook, hsecond⟩

/-- A book with one unit bid at par and another at half of it. -/
def cliffBook : QuotedBook where
  venue := "Coinbase"
  asset := "USDC"
  marketKind := .spot
  symbol := "USDC-USD"
  bids := [⟨1, 1⟩, ⟨⟨1 / 2, by norm_num⟩, 1⟩]
  asks := [⟨2, 1⟩]
  observedAt := 0
  bids_ne := by simp
  asks_ne := by simp
  spread := by
    simp only [List.mem_cons, List.not_mem_nil, or_false, forall_eq_or_imp, forall_eq]
    show (1 : ℚ) < 2 ∧ (1 / 2 : ℚ) < 2
    norm_num
  quoteCurrency := some "USD"
  requestLatencyMs := none

/-- What is less than the dust above the first level is sold as the level alone, and a little more
    than the dust at half the price: the second sale has the better rate.  Both amounts are dyadic,
    so the source's floats hold them exactly. -/
theorem not_rateFalls_cliffBook :
    ¬ ∀ (upper : String → String) (books : List QuotedBook) (a b : String) (amount amount' : ℚ)
      (options : QuoteOptions) (quote quote' : StablecoinConversionDepthQuote),
      quoteStablecoinConversionDepth upper a b amount books options = .ok quote →
      quoteStablecoinConversionDepth upper a b amount' books options = .ok quote' →
      amount ≤ amount' → (quote'.effectiveRate : ℚ) ≤ quote.effectiveRate := by
  intro h
  -- just below the dust above the first level: the level alone is sold
  have hrate : (quoteStablecoinConversionDepth id "USDC" "USD" (1 + 1 / 2 ^ 40) [cliffBook]
      { now := 0 }).toOption.map (fun quote => (quote.effectiveRate : ℚ))
      = some (1 / (1 + 1 / 2 ^ 40)) := by
    decide +kernel
  -- just above the dust: the rest is sold at half the price
  have hrate' : (quoteStablecoinConversionDepth id "USDC" "USD" (1 + 5 / 2 ^ 42) [cliffBook]
      { now := 0 }).toOption.map (fun quote => (quote.effectiveRate : ℚ))
      = some ((1 + 5 / 2 ^ 43) / (1 + 5 / 2 ^ 42)) := by
    decide +kernel
  cases hok : quoteStablecoinConversionDepth id "USDC" "USD" (1 + 1 / 2 ^ 40) [cliffBook]
      { now := 0 } with
  | error e =>
    rw [hok] at hrate
    cases hrate
  | ok quote =>
    cases hok' : quoteStablecoinConversionDepth id "USDC" "USD" (1 + 5 / 2 ^ 42) [cliffBook]
        { now := 0 } with
    | error e =>
      rw [hok'] at hrate'
      cases hrate'
    | ok quote' =>
      have hle := h id [cliffBook] "USDC" "USD" _ _ { now := 0 } quote quote' hok hok' (by norm_num)
      rw [hok] at hrate
      rw [hok'] at hrate'
      have heffective : (quote.effectiveRate : ℚ) = 1 / (1 + 1 / 2 ^ 40) := Option.some.inj hrate
      have heffective' : (quote'.effectiveRate : ℚ) = (1 + 5 / 2 ^ 43) / (1 + 5 / 2 ^ 42) :=
        Option.some.inj hrate'
      rw [heffective, heffective'] at hle
      norm_num at hle

end InefficiencyEngine.Execution
