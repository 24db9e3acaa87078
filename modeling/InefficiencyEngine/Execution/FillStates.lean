import InefficiencyEngine.Execution.ShadowBooks

namespace InefficiencyEngine.Execution

open Portfolio

/-!
# How much of a pair can be filled

`fill_model.py` and `shadow.py` each judge from the depth of the legs' books whether the legs of an
opportunity can still be filled, with and without the hedge reserve, and whether one leg would have
to be recovered.  Where no depth is within `1e-12` below the target they agree, and the reserve is
the one `qualify_opportunity` asks for, up to its own `1e-12` (`shadowAgrees`).
-/

/-! ### The two reconstructions -/

/-- The result of `reconstruct_pair_fill_state`. -/
structure PairFillState where
  pairFillable : Bool
  pairFillableWithReserve : Bool
  hedgeRecoveryRequired : Bool

/-- `reconstruct_pair_fill_state`. A pair with a leg of unknown depth is neither fillable nor in
    need of a recovery. -/
def reconstructPairFillState (legAttribution : List ShadowLegAttribution) (reserveRatio : ℚ) :
    PairFillState :=
  let depthMultiples := legAttribution.map ShadowLegAttribution.verificationDepthMultiple
  if depthMultiples = [] ∨ depthMultiples.any Option.isNone then ⟨false, false, false⟩
  else
    let values := depthMultiples.filterMap id
    let full := values.map (fun value => decide (1 ≤ value))
    let reserve := values.map (fun value => decide (max 1 reserveRatio ≤ value))
    { pairFillable := !full.isEmpty && full.all id
      pairFillableWithReserve := !reserve.isEmpty && reserve.all id
      hedgeRecoveryRequired := full.any id && !full.all id }

/-- `PartialFillState`. The state of a pair with the fractions that its legs fill. -/
structure PartialFillState where
  pairFillable : Bool
  pairFillableWithReserve : Bool
  hedgeRecoveryRequired : Bool
  pairFillFraction : ℚ
  maxLegFillFraction : ℚ
  unhedgedFraction : ℚ
  partialFillState : Bool
  recoveryLossProxyBps : ℚ

/-- `_fill_fraction`. -/
def fillFraction (leg : ShadowLegAttribution) : ℚ :=
  match leg.verificationDepthMultiple with
  | none => 0
  | some multiple => min 1 (max 0 multiple)

/-- A leg holds the reserve. -/
def holdsReserve (reserveRatio : ℚ) (leg : ShadowLegAttribution) : Bool :=
  leg.verificationDepthMultiple.any (fun multiple => max 1 reserveRatio ≤ multiple)

/-- `reconstruct_partial_fill_state`. The pair is filled as far as its least filled leg, and
    what another leg has beyond that is unhedged. -/
def reconstructPartialFillState (legAttribution : List ShadowLegAttribution) (reserveRatio : ℚ) :
    PartialFillState :=
  -- without legs everything is unknown, and the state is partial
  if legAttribution = [] then ⟨false, false, false, 0, 0, 0, true, 0⟩
  else
    let fillFractions := legAttribution.map fillFraction
    let minimumFill := fillFractions.min?.getD 0
    let maximumFill := fillFractions.max?.getD 0
    let unhedged := max 0 (maximumFill - minimumFill)
    let pairFillable := decide (1 - 1 / 10 ^ 12 ≤ minimumFill)
    let hedgeRecoveryRequired := decide (1 / 10 ^ 12 < unhedged)
    let adverseBps := (legAttribution.map (fun leg => max 0 (leg.adverseSelectionBps.getD 0))).sum
    let slippageExpansionBps := (legAttribution.map (fun leg =>
      max 0 (leg.verificationSlippageBps.getD 0 - leg.initialSlippageBps.getD 0))).sum
    { pairFillable := pairFillable
      pairFillableWithReserve := legAttribution.all (holdsReserve reserveRatio)
      hedgeRecoveryRequired := hedgeRecoveryRequired
      pairFillFraction := minimumFill
      maxLegFillFraction := maximumFill
      unhedgedFraction := unhedged
      partialFillState := !pairFillable || hedgeRecoveryRequired
      recoveryLossProxyBps := max 0 (unhedged * (adverseBps + slippageExpansionBps)) }

/-! ### Rows of legs -/

section Rows

variable {rows : List ShadowLegAttribution} {row : ShadowLegAttribution} {reserveRatio x : ℚ}

theorem fillFraction_mem (row : ShadowLegAttribution) :
    0 ≤ fillFraction row ∧ fillFraction row ≤ 1 := by
  unfold fillFraction
  split
  · exact ⟨le_refl 0, zero_le_one⟩
  · exact ⟨le_min zero_le_one (le_max_left _ _), min_le_left _ _⟩

/-- A fraction up to one is reached by the fill if it is by the depth. -/
theorem le_fillFraction_iff (hx : 0 < x) (hone : x ≤ 1) :
    x ≤ fillFraction row ↔ ∃ multiple ∈ row.verificationDepthMultiple, x ≤ multiple := by
  unfold fillFraction
  cases row.verificationDepthMultiple with
  | none => simp [hx]
  | some multiple => simp [hx.not_ge, hone]

/-- The fractions are fractions. The pair fills at most what its better leg fills, and no leg
    more than the whole. -/
theorem fractions_reconstructPartialFillState (rows : List ShadowLegAttribution)
    (reserveRatio : ℚ) :
    0 ≤ (reconstructPartialFillState rows reserveRatio).pairFillFraction
      ∧ (reconstructPartialFillState rows reserveRatio).pairFillFraction
        ≤ (reconstructPartialFillState rows reserveRatio).maxLegFillFraction
      ∧ (reconstructPartialFillState rows reserveRatio).maxLegFillFraction ≤ 1 := by
  unfold reconstructPartialFillState
  by_cases hrows : rows = []
  · rw [if_pos hrows]
    norm_num
  · have hne : rows.map fillFraction ≠ [] := fun h => hrows (List.map_eq_nil_iff.mp h)
    have hleast := getD_min?_mem hne
    have hmost := getD_max?_mem hne
    obtain ⟨least, -, hleastEq⟩ := List.mem_map.mp hleast
    obtain ⟨most, -, hmostEq⟩ := List.mem_map.mp hmost
    rw [if_neg hrows]
    dsimp only
    refine ⟨?_, getD_min?_le hmost, ?_⟩
    · rw [← hleastEq]
      exact (fillFraction_mem least).1
    · rw [← hmostEq]
      exact (fillFraction_mem most).2

/-- The pair is fillable if every leg is, up to `1e-12`. -/
theorem pairFillable_reconstructPartialFillState (hrows : rows ≠ []) :
    (reconstructPartialFillState rows reserveRatio).pairFillable = true
      ↔ ∀ row ∈ rows, ∃ multiple ∈ row.verificationDepthMultiple, 1 - 1 / 10 ^ 12 ≤ multiple := by
  have hne : rows.map fillFraction ≠ [] := fun h => hrows (List.map_eq_nil_iff.mp h)
  unfold reconstructPartialFillState
  rw [if_neg hrows]
  dsimp only
  rw [decide_eq_true_iff]
  constructor
  · intro h row hrow
    refine (le_fillFraction_iff (by norm_num) (by norm_num)).mp (h.trans ?_)
    exact getD_min?_le (List.mem_map_of_mem hrow)
  · intro h
    obtain ⟨row, hrow, heq⟩ := List.mem_map.mp (getD_min?_mem hne)
    rw [← heq]
    exact (le_fillFraction_iff (by norm_num) (by norm_num)).mpr (h row hrow)

/-- The reserve is there if every leg holds it. -/
theorem reserve_reconstructPartialFillState (hrows : rows ≠ []) :
    (reconstructPartialFillState rows reserveRatio).pairFillableWithReserve = true
      ↔ ∀ row ∈ rows, ∃ multiple ∈ row.verificationDepthMultiple, max 1 reserveRatio ≤ multiple := by
  unfold reconstructPartialFillState
  rw [if_neg hrows]
  simp only [List.all_eq_true, holdsReserve, Option.any_eq_true, decide_eq_true_eq]
  rfl

/-- A leg that is filled whole and one that is not leave something to recover. -/
theorem hedge_reconstructPartialFillState {full short : ShadowLegAttribution} (hfull : full ∈ rows)
    (hshort : short ∈ rows) (hone : fillFraction full = 1)
    (hless : fillFraction short < 1 - 1 / 10 ^ 12) :
    (reconstructPartialFillState rows reserveRatio).hedgeRecoveryRequired = true := by
  have hrows : rows ≠ [] := List.ne_nil_of_mem hfull
  unfold reconstructPartialFillState
  rw [if_neg hrows]
  dsimp only
  rw [decide_eq_true_iff]
  have hleast : (rows.map fillFraction).min?.getD 0 ≤ fillFraction short :=
    getD_min?_le (List.mem_map_of_mem hshort)
  have hmost : 1 ≤ (rows.map fillFraction).max?.getD 0 := by
    have hmem : fillFraction full ∈ rows.map fillFraction := List.mem_map_of_mem hfull
    obtain ⟨most, hmax⟩ := Option.isSome_iff_exists.mp (List.isSome_max?_of_mem hmem)
    rw [hmax, ← hone]
    exact (List.max?_eq_some_iff.mp hmax).2 _ hmem
  refine lt_max_of_lt_right ?_
  linarith

/-- What the other reconstruction says of legs that all have a depth. With a depth on every leg
    the two quantified booleans of the source are statements about the multiples themselves. -/
theorem reconstructPairFillState_eq (hrows : rows ≠ [])
    (hdepth : ∀ row ∈ rows, row.verificationDepthMultiple.isSome = true) :
    ((reconstructPairFillState rows reserveRatio).pairFillable = true
        ↔ ∀ row ∈ rows, ∃ multiple ∈ row.verificationDepthMultiple, 1 ≤ multiple)
      ∧ ((reconstructPairFillState rows reserveRatio).pairFillableWithReserve = true
        ↔ ∀ row ∈ rows, ∃ multiple ∈ row.verificationDepthMultiple, max 1 reserveRatio ≤ multiple)
      ∧ ((reconstructPairFillState rows reserveRatio).hedgeRecoveryRequired = true →
        (∃ row ∈ rows, ∃ multiple ∈ row.verificationDepthMultiple, 1 ≤ multiple)
          ∧ ∃ row ∈ rows, ∃ multiple ∈ row.verificationDepthMultiple, multiple < 1) := by
  obtain ⟨multiple, hmultiple⟩ : ∃ multiple : ShadowLegAttribution → ℚ, ∀ row ∈ rows,
      row.verificationDepthMultiple = some (multiple row) := by
    refine ⟨fun row => row.verificationDepthMultiple.getD 0, fun row hrow => ?_⟩
    obtain ⟨value, hvalue⟩ := Option.isSome_iff_exists.mp (hdepth row hrow)
    simp [hvalue]
  -- no multiple is missing, so nothing is filtered away
  have hmultiples : rows.map ShadowLegAttribution.verificationDepthMultiple
      = rows.map (fun row => some (multiple row)) :=
    List.map_congr_left hmultiple
  have hvalues : (rows.map (fun row => some (multiple row))).filterMap id = rows.map multiple := by
    rw [List.filterMap_map]
    exact congrFun (@List.filterMap_eq_map' _ _ multiple) rows
  have hnone : ¬ (rows.map (fun row => some (multiple row)) = []
      ∨ (rows.map (fun row => some (multiple row))).any Option.isNone = true) := by
    simp [hrows]
  -- the source's `all` and `any` over the multiples, as statements about the legs
  have hall : ∀ (p : ℚ → Prop) [DecidablePred p],
      ((rows.map multiple).map (fun value => decide (p value))).all id = true
        ↔ ∀ row ∈ rows, ∃ m ∈ row.verificationDepthMultiple, p m := by
    intro p _
    rw [List.all_map, List.all_map, List.all_eq_true]
    refine forall₂_congr (fun row hrow => ?_)
    simp [hmultiple row hrow]
  have hany : ∀ (p : ℚ → Prop) [DecidablePred p],
      ((rows.map multiple).map (fun value => decide (p value))).any id = true
        ↔ ∃ row ∈ rows, ∃ m ∈ row.verificationDepthMultiple, p m := by
    intro p _
    rw [List.any_map, List.any_map, List.any_eq_true]
    refine exists_congr (fun row => and_congr_right (fun hrow => ?_))
    simp [hmultiple row hrow]
  have hfull : ∀ (p : ℚ → Prop) [DecidablePred p],
      (!((rows.map multiple).map (fun value => decide (p value))).isEmpty) = true := by
    intro p _
    simp [hrows]
  unfold reconstructPairFillState
  dsimp only
  rw [hmultiples, if_neg hnone, hvalues]
  dsimp only
  refine ⟨?_, ?_, ?_⟩
  · rw [Bool.and_eq_true, hall, and_iff_right (hfull _)]
  · rw [Bool.and_eq_true, hall, and_iff_right (hfull _)]
  · rw [Bool.and_eq_true, hany, Bool.not_eq_true', ← Bool.not_eq_true, hall]
    rintro ⟨hsome, hnot⟩
    refine ⟨hsome, ?_⟩
    push Not at hnot
    obtain ⟨row, hrow, hshort⟩ := hnot
    exact ⟨row, hrow, multiple row, hmultiple row hrow, hshort _ (hmultiple row hrow)⟩

end Rows

/-! ### Legs and their books -/

section Legs

variable (opportunity : Opportunity) (initialBooks verificationBooks : List OrderBookSnapshot)
  (q reserveRatio : ℚ)

/-- The book a leg is verified against. -/
def verificationBook (leg : OpportunityLeg) : Option OrderBookSnapshot :=
  (bookMap verificationBooks).get? (legKey leg)

/-- The rows of the legs for a target quantity. -/
def legRows : List ShadowLegAttribution :=
  (buildLegAttribution opportunity initialBooks verificationBooks (some q)).1

/-- What the reconstruction of partial fills says of the legs of an opportunity. -/
def partialState : PartialFillState :=
  reconstructPartialFillState (legRows opportunity initialBooks verificationBooks q) reserveRatio

/-- What the reconstruction of pairs says of them. -/
def pairState : PairFillState :=
  reconstructPairFillState (legRows opportunity initialBooks verificationBooks q) reserveRatio

/-- The fill states of an opportunity's legs.  The fractions are fractions.  The reserve is there
    only if every leg has a book and the execution engine's test of the reserve passes, and it is
    there if that test passes although `1e-12` more is asked for, the slack of the test.  Where every
    leg has a book and none is within `1e-12` below the target, both reconstructions judge alike, and
    a recovery that the one for pairs reports the other reports as well. -/
structure FillsAgree : Prop where
  fractions :
    0 ≤ (partialState opportunity initialBooks verificationBooks q reserveRatio).pairFillFraction
      ∧ (partialState opportunity initialBooks verificationBooks q reserveRatio).pairFillFraction
        ≤ (partialState opportunity initialBooks verificationBooks q reserveRatio).maxLegFillFraction
      ∧ (partialState opportunity initialBooks verificationBooks q reserveRatio).maxLegFillFraction ≤ 1
  missing : (∃ leg ∈ opportunity.legs, verificationBook verificationBooks leg = none) →
    (partialState opportunity initialBooks verificationBooks q reserveRatio).pairFillableWithReserve
      = false
  reserve : ∀ ctx : PairContext, ctx.settings.hedgeLiquidityReserveRatio = reserveRatio →
    ctx.legBooks.map (fun pair => (pair.1, some pair.2))
        = opportunity.legs.map (fun leg => (leg, verificationBook verificationBooks leg)) →
    ((partialState opportunity initialBooks verificationBooks q reserveRatio).pairFillableWithReserve
        = true → ¬ ctx.ShortOf (q * ctx.reserveRatio))
      ∧ (¬ ctx.ShortOf (q * ctx.reserveRatio + 1 / 10 ^ 12) →
        (partialState opportunity initialBooks verificationBooks q reserveRatio).pairFillableWithReserve
          = true)
  verdicts : (∀ leg ∈ opportunity.legs, (verificationBook verificationBooks leg).isSome = true) →
    (∀ row ∈ legRows opportunity initialBooks verificationBooks q,
      ∀ multiple ∈ row.verificationDepthMultiple, ¬ (1 - 1 / 10 ^ 12 ≤ multiple ∧ multiple < 1)) →
    (partialState opportunity initialBooks verificationBooks q reserveRatio).pairFillable
        = (pairState opportunity initialBooks verificationBooks q reserveRatio).pairFillable
      ∧ (partialState opportunity initialBooks verificationBooks q
          reserveRatio).pairFillableWithReserve
        = (pairState opportunity initialBooks verificationBooks q reserveRatio).pairFillableWithReserve
      ∧ ((pairState opportunity initialBooks verificationBooks q reserveRatio).hedgeRecoveryRequired
          = true →
        (partialState opportunity initialBooks verificationBooks q reserveRatio).hedgeRecoveryRequired
          = true)

variable {opportunity initialBooks verificationBooks q reserveRatio}

/-- The depth of a leg is that of its book. -/
theorem verificationDepthMultiple_legAttribution (hq : 0 < q) (leg : OpportunityLeg) :
    (legAttribution initialBooks verificationBooks (some q) leg).verificationDepthMultiple
      = (verificationBook verificationBooks leg).map
        (fun book => maxExecutableQuantity book (tradeSide leg.side) / q) := by
  show ((verificationBook verificationBooks leg).map _).bind BookMetrics.depthMultiple = _
  cases verificationBook verificationBooks leg with
  | none => rfl
  | some book => exact depthMultiple_bookMetrics hq

/-- The reserve is there if every leg has a book that holds it. -/
theorem reserve_partialState_iff (hq : 0 < q) (hlegs : opportunity.legs ≠ []) :
    (partialState opportunity initialBooks verificationBooks q reserveRatio).pairFillableWithReserve
        = true
      ↔ ∀ leg ∈ opportunity.legs, ∃ book ∈ verificationBook verificationBooks leg,
        q * max 1 reserveRatio ≤ maxExecutableQuantity book (tradeSide leg.side) := by
  have hrows : legRows opportunity initialBooks verificationBooks q ≠ [] :=
    fun h => hlegs (List.map_eq_nil_iff.mp h)
  rw [partialState, reserve_reconstructPartialFillState hrows]
  show (∀ row ∈ opportunity.legs.map _, _) ↔ _
  rw [List.forall_mem_map]
  refine forall₂_congr (fun leg _ => ?_)
  have hbook : ∀ book, max 1 reserveRatio ≤ maxExecutableQuantity book (tradeSide leg.side) / q
      ↔ q * max 1 reserveRatio ≤ maxExecutableQuantity book (tradeSide leg.side) := by
    intro book
    rw [le_div_iff₀ hq, mul_comm]
  rw [verificationDepthMultiple_legAttribution hq]
  simp only [Option.mem_def, Option.map_eq_some_iff, exists_exists_and_eq_and, hbook]

/-- The test of the reserve, leg by leg. -/
theorem not_shortOf_iff {ctx : PairContext} {x : ℚ} :
    ¬ ctx.ShortOf x ↔ ∀ pair ∈ ctx.legBooks,
      x ≤ maxExecutableQuantity pair.2 (tradeSide pair.1.side) + 1 / 10 ^ 12 := by
  unfold PairContext.ShortOf PairContext.sidePairs
  push Not
  rw [List.forall_mem_map]

/-- **The reserve.** The verdict is the engine's test without its slack. -/
theorem reserve_partialState_iff_not_shortOf (hq : 0 < q) (hlegs : opportunity.legs ≠ [])
    {ctx : PairContext} (hratio : ctx.settings.hedgeLiquidityReserveRatio = reserveRatio)
    (hbooks : ctx.legBooks.map (fun pair => (pair.1, some pair.2))
      = opportunity.legs.map (fun leg => (leg, verificationBook verificationBooks leg))) :
    (partialState opportunity initialBooks verificationBooks q reserveRatio).pairFillableWithReserve
        = true
      ↔ ¬ ctx.ShortOf (q * ctx.reserveRatio + 1 / 10 ^ 12) := by
  have hlegBooks : (∀ leg ∈ opportunity.legs, ∃ book ∈ verificationBook verificationBooks leg,
        q * max 1 reserveRatio ≤ maxExecutableQuantity book (tradeSide leg.side))
      ↔ ∀ pair ∈ ctx.legBooks,
        q * max 1 reserveRatio ≤ maxExecutableQuantity pair.2 (tradeSide pair.1.side) := by
    -- both sides speak of one list of legs with their books
    have hpairs := @List.forall_mem_map _ _ (fun leg => (leg, verificationBook verificationBooks leg))
      opportunity.legs (fun pair => ∃ book ∈ pair.2,
        q * max 1 reserveRatio ≤ maxExecutableQuantity book (tradeSide pair.1.side))
    rw [← hpairs, ← hbooks, List.forall_mem_map]
    simp
  rw [reserve_partialState_iff hq hlegs, hlegBooks, not_shortOf_iff, PairContext.reserveRatio, hratio]
  simp

/-- The fill states of an opportunity with legs. -/
theorem fillsAgree (hq : 0 < q) (hlegs : opportunity.legs ≠ []) :
    FillsAgree opportunity initialBooks verificationBooks q reserveRatio := by
  have hrows : legRows opportunity initialBooks verificationBooks q ≠ [] :=
    fun h => hlegs (List.map_eq_nil_iff.mp h)
  refine
    { fractions := fractions_reconstructPartialFillState _ _, missing := ?_, reserve := ?_,
      verdicts := ?_ }
  · rintro ⟨leg, hleg, hnone⟩
    rw [← Bool.not_eq_true, reserve_partialState_iff hq hlegs]
    intro hall
    obtain ⟨book, hbook, -⟩ := hall leg hleg
    rw [hnone] at hbook
    cases hbook
  · intro ctx hratio hbooks
    have hiff := @reserve_partialState_iff_not_shortOf opportunity initialBooks verificationBooks q
      reserveRatio hq hlegs ctx hratio hbooks
    refine ⟨fun hreserve => ?_, hiff.mpr⟩
    rw [not_shortOf_iff]
    intro pair hpair
    have hpasses := not_shortOf_iff.mp (hiff.mp hreserve) pair hpair
    have hslack : (0 : ℚ) ≤ 1 / 10 ^ 12 := by norm_num
    linarith
  · intro hbooks hapart
    -- every row has a depth, and it is no closer to one from below than the slack
    have hdepth : ∀ row ∈ legRows opportunity initialBooks verificationBooks q,
        row.verificationDepthMultiple.isSome = true := by
      intro row hrow
      obtain ⟨leg, hleg, rfl⟩ := List.mem_map.mp hrow
      rw [verificationDepthMultiple_legAttribution hq, Option.isSome_map]
      exact hbooks leg hleg
    have hpair := @reconstructPairFillState_eq _ reserveRatio hrows hdepth
    refine ⟨?_, ?_, fun hhedge => ?_⟩
    · rw [Bool.eq_iff_iff, partialState, pairState, pairFillable_reconstructPartialFillState hrows,
        hpair.1]
      refine forall₂_congr (fun row hrow => exists_congr (fun multiple =>
        and_congr_right (fun hmem => ⟨fun hle => ?_, fun hle => ?_⟩)))
      · exact not_lt.mp (fun hlt => hapart row hrow multiple hmem ⟨hle, hlt⟩)
      · exact le_trans (by norm_num) hle
    · rw [Bool.eq_iff_iff, partialState, pairState, reserve_reconstructPartialFillState hrows,
        hpair.2.1]
    · obtain ⟨⟨full, hfull, m, hm, hone⟩, short, hshort, m', hm', hless⟩ := hpair.2.2 hhedge
      refine hedge_reconstructPartialFillState hfull hshort ?_ ?_
      · refine le_antisymm (fillFraction_mem full).2 ?_
        exact (le_fillFraction_iff one_pos (le_refl 1)).mpr ⟨m, hm, hone⟩
      · rw [← not_le, le_fillFraction_iff (by norm_num) (by norm_num)]
        rintro ⟨other, hother, hle⟩
        rw [Option.mem_unique hother hm'] at hle
        exact hapart short hshort m' hm' ⟨hle, hless⟩

end Legs

/-! ### Together -/

/-- A target above the dust of the walks. -/
abbrev TargetQuantity := { q : ℚ // 1 / 10 ^ 12 < q }

/-- What the evaluator and the execution engine have in common, for one target. -/
structure ShadowAgrees (opportunity : Opportunity)
    (initialBooks verificationBooks : List OrderBookSnapshot) (reserveRatio : ℚ)
    (q : TargetQuantity) : Prop where
  walks : ∀ book side, WalksAgree book side q
  fills : FillsAgree opportunity initialBooks verificationBooks q reserveRatio

/-- **The shadow evaluator and the execution engine judge alike**, for an opportunity of any legs,
    at least one. -/
theorem shadowAgrees (opportunity : Opportunity) (leg : OpportunityLeg) (rest : List OpportunityLeg)
    (initialBooks verificationBooks : List OrderBookSnapshot) (reserveRatio : ℚ)
    (q : TargetQuantity) :
    ShadowAgrees { opportunity with legs := leg :: rest } initialBooks verificationBooks reserveRatio
      q where
  walks := fun book side => walksAgree book side q.2
  fills := fillsAgree (lt_trans (by norm_num) q.2) (List.cons_ne_nil leg rest)

/-- Without legs there is no leg that the test of the reserve could fail for, and no reserve. -/
theorem not_shadowAgrees_noLegs :
    ¬ ShadowAgrees { spotPerpPair 0 with legs := [] } [] [] 1 ⟨1, by norm_num⟩ := by
  intro h
  let ctx : PairContext := ⟨spotPerpPair 0, freeSettings 1, none, none, [], []⟩
  have hpasses : ¬ ctx.ShortOf (1 * ctx.reserveRatio + 1 / 10 ^ 12) := by
    rw [not_shortOf_iff]
    intro pair hpair
    cases hpair
  exact absurd ((h.fills.reserve ctx rfl rfl).2 hpasses) Bool.false_ne_true

end InefficiencyEngine.Execution
