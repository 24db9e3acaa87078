import InefficiencyEngine.Lib.BoundedRead
import InefficiencyEngine.Lib.StableSort
import InefficiencyEngine.Mechanism.Positions
import InefficiencyEngine.Mechanism.Promotions

namespace InefficiencyEngine.Mechanism

open Portfolio

/-!
# Settling late changes nothing

A trial is settled by whichever cycle finds its evidence complete, and a position by whichever
portfolio cycle comes first after its horizon.  By then more evidence is stored than at the horizon.
In the production service the result is nevertheless the same: once a trial settles, further
evidence from after its horizon leaves its settlement as it is (`settleExecutable_later`).

The reasons are those of the reads.  The windows of trades and opportunities end at the horizon;
the quote from an instant on is the first row of the table; a yield and an option are read at the
earliest observation from the horizon on; and a markout quote that only turns up after the horizon
counts as none.
-/

/-! ### The earliest row -/

section Earliest

variable {α κ : Type} [LinearOrder κ] {key : α → κ}

/-- The first of the smallest rows is the first row of the smallest key. -/
theorem minBy_eq_some_iff {rows : List α} {best : α} :
    minBy key rows = some best
      ↔ (∀ row ∈ rows, key best ≤ key row)
        ∧ rows.find? (fun row => key row = key best) = some best := by
  induction rows generalizing best with
  | nil => simp [minBy]
  | cons row rest ih =>
    rw [minBy]
    rcases hrest : minBy key rest with _ | other
    · -- only the empty list has no smallest row
      have hnil : rest = [] := by
        rcases rest with _ | ⟨first, others⟩
        · rfl
        · rw [minBy] at hrest
          split at hrest
          · cases hrest
          · split at hrest
            · cases hrest
            · cases hrest
      subst hnil
      constructor
      · intro h
        obtain rfl := Option.some.inj h
        simp
      · rintro ⟨-, hfind⟩
        rw [List.mem_singleton.mp (List.mem_of_find?_eq_some hfind)]
    · obtain ⟨hmin, hfirst⟩ := ih.mp hrest
      by_cases hle : key row ≤ key other
      · simp only [if_pos hle, Option.some.injEq]
        constructor
        · rintro rfl
          exact ⟨List.forall_mem_cons.mpr ⟨le_rfl, fun r hr => hle.trans (hmin r hr)⟩,
            List.find?_cons_of_pos (decide_eq_true rfl)⟩
        · rintro ⟨hbest, hfind⟩
          obtain ⟨hrow, hothers⟩ := List.forall_mem_cons.mp hbest
          have heq : key row = key best := by
            refine le_antisymm ?_ hrow
            have hmem := List.mem_of_find?_eq_some hfind
            rcases List.mem_cons.mp hmem with rfl | hmem
            · exact le_rfl
            · exact hle.trans (hmin best hmem)
          rw [List.find?_cons_of_pos (p := fun r => decide (key r = key best))
            (decide_eq_true heq)] at hfind
          exact Option.some.inj hfind
      · have hlt : key other < key row := not_le.mp hle
        simp only [if_neg hle, Option.some.injEq]
        constructor
        · rintro rfl
          refine ⟨List.forall_mem_cons.mpr ⟨hlt.le, hmin⟩, ?_⟩
          rw [List.find?_cons_of_neg (by simpa using hlt.ne')]
          exact hfirst
        · rintro ⟨hbest, hfind⟩
          obtain ⟨-, hothers⟩ := List.forall_mem_cons.mp hbest
          have hne : ¬ key row = key best := fun heq =>
            absurd (hbest other (List.mem_cons_of_mem _ (List.mem_of_find?_eq_some hfirst)))
              (not_le.mpr (heq ▸ hlt))
          rw [List.find?_cons_of_neg (by simpa using hne)] at hfind
          exact Option.some.inj (hrest.symm.trans (ih.mpr ⟨hothers, hfind⟩))

/-- A stable sort by the key leaves the first row of each key. -/
theorem find?_filter_sortOn (k : κ) (p : α → Bool) (rows : List α) :
    ((sortOn key rows).filter p).find? (fun row => key row = k)
      = (rows.filter p).find? (fun row => key row = k) := by
  have hswap : ∀ l : List α, (l.filter p).find? (fun row => key row = k)
      = ((l.filter (fun row => key row = k)).filter p).head? := by
    intro l
    rw [← List.head?_filter, List.filter_filter, List.filter_filter]
    simp only [Bool.and_comm]
  rw [hswap, hswap, filter_sortOn]

/-- The earliest row that passes a test is the same in a table and in the sorted table. -/
theorem minBy_filter_sortOn (p : α → Bool) (rows : List α) :
    minBy key ((sortOn key rows).filter p) = minBy key (rows.filter p) := by
  refine Option.ext (fun best => ?_)
  rw [minBy_eq_some_iff, minBy_eq_some_iff, find?_filter_sortOn]
  simp only [List.mem_filter, mem_sortOn]

/-- Rows that are no earlier than those of the table leave its earliest row. -/
theorem minBy_filter_append {p : α → Bool} {rows added : List α} {best : α}
    (hlater : ∀ row ∈ added, ∀ old ∈ rows, key old ≤ key row)
    (h : minBy key (rows.filter p) = some best) :
    minBy key ((rows ++ added).filter p) = some best := by
  obtain ⟨hmin, hfirst⟩ := minBy_eq_some_iff.mp h
  have hbest := (List.mem_filter.mp (List.mem_of_find?_eq_some hfirst)).1
  rw [List.filter_append]
  refine minBy_eq_some_iff.mpr ⟨fun row hrow => ?_, ?_⟩
  · rcases List.mem_append.mp hrow with hrow | hrow
    · exact hmin row hrow
    · exact hlater row (List.mem_filter.mp hrow).1 best hbest
  · rw [List.find?_append, hfirst, Option.some_or]

end Earliest

/-! ### Evidence that comes later -/

/-- Stored evidence, and what is stored after it: yields and options that are no older than those
    stored, and events, opportunities and quotes from after an instant. -/
structure LaterEvidence (instant : Instant) where
  stored : StoredEvidence
  further : StoredEvidence
  yields : ∀ row ∈ further.yieldObservations, ∀ old ∈ stored.yieldObservations,
    old.observedAt ≤ row.observedAt
  options : ∀ row ∈ further.optionObservations, ∀ old ∈ stored.optionObservations,
    old.observedAt ≤ row.observedAt
  events : ∀ row ∈ further.events, instant < row.eventAt
  opportunities : ∀ row ∈ further.opportunities, instant < row.observedAt
  quotes : ∀ row ∈ further.marketQuotes, instant < row.observedAt

/-- All that is stored in the end. -/
def LaterEvidence.all {instant : Instant} (growth : LaterEvidence instant) : StoredEvidence where
  yieldObservations := growth.stored.yieldObservations ++ growth.further.yieldObservations
  optionObservations := growth.stored.optionObservations ++ growth.further.optionObservations
  events := growth.stored.events ++ growth.further.events
  opportunities := growth.stored.opportunities ++ growth.further.opportunities
  marketQuotes := growth.stored.marketQuotes ++ growth.further.marketQuotes
  transfers := growth.stored.transfers ++ growth.further.transfers

section Reads

variable {R : MechanismRuntime} {trial : MechanismForwardTrial}
variable {growth : LaterEvidence trial.dueAt}

/-- A quote that is found stays the one that is found. -/
theorem quoteAfter_later {venue asset : String} {start : Instant}
    {marketKind symbol : Option String} {quote : MarketQuote}
    (h : growth.stored.quoteAfter R venue asset start marketKind symbol = some quote) :
    growth.all.quoteAfter R venue asset start marketKind symbol = some quote :=
  find?_bounded_append h _

/-- A spot quote that is found stays the one that is found. -/
theorem anySpotQuoteAfter_later {asset : String} {start : Instant} {quote : MarketQuote}
    (h : anySpotQuoteAfter R growth.stored asset start = some quote) :
    anySpotQuoteAfter R growth.all asset start = some quote :=
  find?_bounded_append h _

/-- A quote that is only found later is from after the horizon. -/
theorem lt_of_quoteAfter_later {venue asset : String} {start : Instant}
    {marketKind symbol : Option String} {quote : MarketQuote}
    (hnone : growth.stored.quoteAfter R venue asset start marketKind symbol = none)
    (h : growth.all.quoteAfter R venue asset start marketKind symbol = some quote) :
    trial.dueAt < quote.observedAt :=
  growth.quotes quote (mem_of_find?_bounded_append hnone h)

/-- The yield a trial exits at. -/
theorem nextYieldObservation_later {payload : YieldPayload} {exit : YieldObservation}
    (h : nextYieldObservation R growth.stored trial payload = some exit) :
    nextYieldObservation R growth.all trial payload = some exit := by
  unfold nextYieldObservation StoredEvidence.yields at h ⊢
  exact (minBy_filter_sortOn _ _).trans
    (minBy_filter_append growth.yields ((minBy_filter_sortOn _ _).symm.trans h))

/-- The option a contract exits at. -/
theorem nextOption_later {contract : OptionContract} {start : Instant}
    {exit : OptionQuoteObservation} (h : nextOption R growth.stored contract start = some exit) :
    nextOption R growth.all contract start = some exit := by
  unfold nextOption StoredEvidence.options at h ⊢
  exact (minBy_filter_sortOn _ _).trans
    (minBy_filter_append growth.options ((minBy_filter_sortOn _ _).symm.trans h))

/-- The trades of the window are those that were stored. -/
theorem makerTrades_later (payload : MakerPayload) :
    makerTrades R growth.all trial payload = makerTrades R growth.stored trial payload := by
  have hwindow : tradesBetween growth.all trial.sourceObservedAt trial.dueAt
      = tradesBetween growth.stored trial.sourceObservedAt trial.dueAt := by
    refine bounded_append_of_forall (fun row hrow => ?_)
    have hafter := growth.events row hrow
    simp [not_le.mpr hafter]
  rw [makerTrades, hwindow, makerTrades]

/-- The opportunities of the window are those that were stored. -/
theorem locationOpportunities_later (payload : LocationPayload) :
    locationOpportunities R growth.all trial payload
      = locationOpportunities R growth.stored trial payload := by
  refine congrArg (List.filter _) (bounded_append_of_forall (fun row hrow => ?_))
  have hafter := growth.opportunities row hrow
  simp [not_le.mpr hafter]

/-! ### The lanes -/

/-- The fills of a maker order. -/
theorem makerFills_later (payload : MakerPayload) :
    makerFills R growth.all trial payload = makerFills R growth.stored trial payload := by
  unfold makerFills
  rw [makerTrades_later]

/-- The markout of a fill: a quote that turns up after the horizon counts as none. -/
theorem makerMarkout_later (payload : MakerPayload) (fillAt : Instant) (fillPrice direction : ℚ) :
    makerMarkout R growth.all trial payload fillAt fillPrice direction
      = makerMarkout R growth.stored trial payload fillAt fillPrice direction := by
  unfold makerMarkout
  rcases hstored : growth.stored.quoteAfter R payload.venue (textOr payload.asset trial.asset)
      (fillAt + 5000000) (some payload.marketKind.value) (some payload.symbol) with _ | quote
  · rcases hall : growth.all.quoteAfter R payload.venue (textOr payload.asset trial.asset)
        (fillAt + 5000000) (some payload.marketKind.value) (some payload.symbol) with _ | quote
    · rfl
    · exact if_pos (Or.inl (lt_of_quoteAfter_later hstored hall))
  · rw [quoteAfter_later hstored]

/-- The penalty of a side. -/
theorem adversePenalty_later (payload : MakerPayload) (fill : Bool × Option Instant)
    (fillPrice direction : ℚ) :
    adversePenalty R growth.all trial payload fill fillPrice direction
      = adversePenalty R growth.stored trial payload fill fillPrice direction := by
  obtain ⟨filled, filledAt⟩ := fill
  cases filled with
  | false => rfl
  | true =>
    cases filledAt with
    | none => rfl
    | some fillAt =>
      simp only [adversePenalty, makerMarkout_later]

/-- The exits of a surface trade. -/
theorem surfaceExits_later {start : Instant} {legs : List SurfaceLeg}
    {exits : List (SurfaceLeg × OptionQuoteObservation)}
    (h : surfaceExits R growth.stored start legs = some exits) :
    surfaceExits R growth.all start legs = some exits := by
  induction legs generalizing exits with
  | nil => exact h
  | cons leg rest ih =>
    rw [surfaceExits] at h ⊢
    obtain ⟨exit, hexit, h⟩ := Option.bind_eq_some_iff.mp h
    refine Option.bind_eq_some_iff.mpr ⟨exit, nextOption_later hexit, ?_⟩
    by_cases hmid : leg.entryMid ≤ 0
    · rw [if_pos hmid] at h
      cases h
    · rw [if_neg hmid] at h ⊢
      obtain ⟨others, hothers, h⟩ := Option.bind_eq_some_iff.mp h
      exact Option.bind_eq_some_iff.mpr ⟨others, ih hothers, h⟩

/-- A maker trial. What was settled on the stored evidence is settled alike on all of it, as the
    trades and the quotes it reads are those of its window. -/
theorem settleMakerQueued_later {payload : MakerPayload} {result : MechanismSettlementResult}
    (h : settleMakerQueued R growth.stored trial payload = some result) :
    settleMakerQueued R growth.all trial payload = some result := by
  unfold settleMakerQueued at h ⊢
  split at h
  · cases h
  · rename_i hpayload
    obtain ⟨exitQuote, hexit, hresult⟩ := Option.map_eq_some_iff.mp h
    rw [if_neg hpayload]
    refine Option.map_eq_some_iff.mpr ⟨exitQuote, quoteAfter_later hexit, ?_⟩
    simp only [makerFills_later, adversePenalty_later]
    exact hresult

/-- A trial on one option. -/
theorem settleOption_later {payload : VolatilityPayload} {result : MechanismSettlementResult}
    (h : settleOption R growth.stored trial payload = some result) :
    settleOption R growth.all trial payload = some result := by
  unfold settleOption at h ⊢
  rcases hspot : anySpotQuoteAfter R growth.stored trial.asset trial.dueAt with _ | underlyingExit
  · rw [hspot] at h
    cases h
  · rw [hspot] at h
    rw [anySpotQuoteAfter_later hspot]
    rcases hoption : nextOption R growth.stored (volatilityContract trial payload) trial.dueAt
      with _ | option
    · rw [hoption] at h
      dsimp only at h
      split at h
      · cases h
      · cases h
    · rw [hoption] at h
      rw [nextOption_later hoption]
      exact h

/-- A surface trial. The surface it exits at was stored already. -/
theorem settleSurface_later {payload : SurfacePayload} {result : MechanismSettlementResult}
    (h : settleSurface R growth.stored trial payload = some result) :
    settleSurface R growth.all trial payload = some result := by
  unfold settleSurface at h ⊢
  rcases hspot : anySpotQuoteAfter R growth.stored trial.asset trial.dueAt with _ | underlyingExit
  · rw [hspot] at h
    cases h
  · rw [hspot] at h
    rw [anySpotQuoteAfter_later hspot]
    dsimp only at h ⊢
    split at h
    · cases h
    · rename_i hprice
      split at h
      · cases h
      · rename_i hlegs
        obtain ⟨exits, hexits, hresult⟩ := Option.map_eq_some_iff.mp h
        rw [if_neg hprice, if_neg hlegs]
        exact Option.map_eq_some_iff.mpr ⟨exits, surfaceExits_later hexits, hresult⟩

/-- A liquidation trial. The two quotes it takes were stored already. -/
theorem settleCapturedLiquidation_later {payload : LiquidationPayload}
    {result : MechanismSettlementResult}
    (h : settleCapturedLiquidation R growth.stored trial payload = some result) :
    settleCapturedLiquidation R growth.all trial payload = some result := by
  unfold settleCapturedLiquidation at h ⊢
  split at h
  · cases h
  · rename_i hprice
    rw [if_neg hprice]
    rcases hreachable : liquidationQuote R growth.stored trial payload
      (payload.observedAt.getD trial.sourceObservedAt) with _ | reachable
    · rw [hreachable] at h
      cases h
    · rcases hrecovery : liquidationQuote R growth.stored trial payload trial.dueAt
        with _ | recovery
      · rw [hreachable, hrecovery] at h
        cases h
      · rw [hreachable, hrecovery] at h
        have hreachable' : liquidationQuote R growth.all trial payload
            (payload.observedAt.getD trial.sourceObservedAt) = some reachable :=
          quoteAfter_later hreachable
        have hrecovery' : liquidationQuote R growth.all trial payload trial.dueAt
            = some recovery := quoteAfter_later hrecovery
        rw [hreachable', hrecovery']
        exact h

/-- A location trial: the newest row of the quotes stays one from the horizon on. -/
theorem settleLocation_later {payload : LocationPayload} {result : MechanismSettlementResult}
    (h : settleLocation R growth.stored trial payload = some result) :
    settleLocation R growth.all trial payload = some result := by
  unfold settleLocation at h ⊢
  rcases hlatest : growth.stored.marketQuotes.getLast? with _ | latest
  · rw [hlatest] at h
    cases h
  · rw [hlatest] at h
    dsimp only at h
    split at h
    · cases h
    · rename_i hdue
      have hnewest : ∃ newest, growth.all.marketQuotes.getLast? = some newest
          ∧ ¬ newest.observedAt < trial.dueAt := by
        have hall : growth.all.marketQuotes.getLast?
            = growth.further.marketQuotes.getLast?.or growth.stored.marketQuotes.getLast? :=
          List.getLast?_append
        rcases hfurther : growth.further.marketQuotes.getLast? with _ | newest
        · exact ⟨latest, by rw [hall, hfurther, hlatest]; rfl, hdue⟩
        · have hlater := growth.quotes newest (List.mem_of_getLast? hfurther)
          exact ⟨newest, by rw [hall, hfurther]; rfl, not_lt.mpr hlater.le⟩
      obtain ⟨newest, hnewest, hdue'⟩ := hnewest
      rw [hnewest]
      dsimp only
      rw [if_neg hdue', locationOpportunities_later]
      exact h

/-- **Late settlement.** A trial that settles on what is stored settles to the same result on what
    is stored in the end. -/
theorem settleExecutable_later {result : MechanismSettlementResult}
    (h : settleExecutable R growth.stored trial = some result) :
    settleExecutable R growth.all trial = some result := by
  unfold settleExecutable at h ⊢
  cases hpayload : trial.settlementPayload with
  | yield payload =>
    rw [hpayload] at h
    obtain ⟨exit, hexit, hresult⟩ := Option.map_eq_some_iff.mp h
    exact Option.map_eq_some_iff.mpr ⟨exit, nextYieldObservation_later hexit, hresult⟩
  | maker payload =>
    rw [hpayload] at h
    exact settleMakerQueued_later h
  | volatility payload =>
    rw [hpayload] at h
    exact settleOption_later h
  | surface payload =>
    rw [hpayload] at h
    exact settleSurface_later h
  | liquidation payload =>
    rw [hpayload] at h
    exact settleCapturedLiquidation_later h
  | location payload =>
    rw [hpayload] at h
    exact settleLocation_later h

end Reads

/-! ### Every run -/

/-- Evidence from after an instant is from after every earlier one. -/
def LaterEvidence.of_le {instant earlier : Instant} (growth : LaterEvidence instant)
    (h : earlier ≤ instant) : LaterEvidence earlier where
  stored := growth.stored
  further := growth.further
  yields := growth.yields
  options := growth.options
  events row hrow := lt_of_le_of_lt h (growth.events row hrow)
  opportunities row hrow := lt_of_le_of_lt h (growth.opportunities row hrow)
  quotes row hrow := lt_of_le_of_lt h (growth.quotes row hrow)

/-- The settlement of a trial in the production services, on evidence that grew. -/
theorem settledOutcome?_later {R : MechanismRuntime} {c : MechanismClass} (hc : c ≠ .base)
    {trial : MechanismForwardTrial} {growth : LaterEvidence trial.dueAt}
    {o : MechanismForwardOutcome}
    (h : settledOutcome? (c.service R) growth.stored trial = some o) :
    settledOutcome? (c.service R) growth.all trial = some o := by
  have hsettle : ∀ evidence, (c.service R).settleTrial evidence trial
      = .ok (settleExecutable R evidence trial) := by
    intro evidence
    cases c with
    | base => exact absurd rfl hc
    | governed => rfl
    | yieldShadow => rfl
  unfold settledOutcome? at h ⊢
  rw [hsettle] at h ⊢
  rcases hstored : settleExecutable R growth.stored trial with _ | result
  · rw [hstored] at h
    cases h
  · rw [hstored] at h
    rw [settleExecutable_later hstored]
    exact h

/-- The evidence only grows: what is stored in the end extends what each cycle of a schedule saw by
    evidence from after the cycle's snapshot. -/
def GrowsInto (schedule : List CycleAction) (evidence : StoredEvidence) : Prop :=
  ∀ action ∈ schedule, ∀ snapshot, action.input.collected = .ok snapshot →
    ∃ growth : LaterEvidence snapshot.completedAt,
      growth.stored = action.input.evidence ∧ growth.all = evidence

/-- Settlements stand: the outcomes of a ledger are those its trials have on the evidence stored in
    the end, and a position that settles before settles to the same outcome then. -/
structure SettlementsStand (R : MechanismRuntime) (c : MechanismClass) (schedule : List CycleAction)
    (evidence : StoredEvidence) (ledger : MechanismLedger) : Prop where
  outcomes : ∀ o ∈ ledger.outcomes, ∃ trial ∈ ledger.trials,
    settledOutcome? (c.service R) evidence trial = some o
  positions : ∀ action ∈ schedule, ∀ snapshot, action.input.collected = .ok snapshot →
    ∀ canonicalId outcomeId, ∀ trial : PaperAllocationTrial, ∀ due outcome,
      trial.dueAt = some due → due ≤ snapshot.completedAt →
      settleMechanism R action.input.evidence ledger canonicalId outcomeId trial = some outcome →
      settleMechanism R evidence ledger canonicalId outcomeId trial = some outcome

/-- **Settlements stand.** In every run of a production service, each cycle cut off anywhere, over
    evidence that only grows: each outcome is the one its trial has on all the evidence stored in
    the end, however late or early it was settled, and so is the outcome of each position. -/
theorem settlementsStand_of_run (R : MechanismRuntime) {schedule : List CycleAction}
    {evidence : StoredEvidence} (hgrows : GrowsInto schedule evidence) :
    SettlementsStand R .governed schedule evidence (run (cycleStep (runEvidenceCycle R
        (governedService R))) .initial schedule).ledger
      ∧ SettlementsStand R .yieldShadow schedule evidence (run (cycleStep (runEvidenceCycle R
        (yieldShadowService R))) .initial schedule).ledger := by
  have hstands : ∀ c : MechanismClass, c ≠ .base →
      SettlementsStand R c schedule evidence (run (cycleStep (runEvidenceCycle R (c.service R)))
        .initial schedule).ledger := by
    intro c hc
    refine ⟨fun o ho => ?_, ?_⟩
    · obtain ⟨trial, htrial, action, haction, snapshot, hcollected, hdue, hsettled⟩ :=
        (Audited.run R c schedule).outcomes o ho
      obtain ⟨growth, hstored, hall⟩ := hgrows action haction snapshot hcollected
      have hbefore : settledOutcome? (c.service R) (growth.of_le hdue).stored trial = some o := by
        rw [← hsettled, ← hstored]
        rfl
      refine ⟨trial, htrial, ?_⟩
      rw [← hall]
      exact settledOutcome?_later hc hbefore
    · intro action haction snapshot hcollected canonicalId outcomeId trial due outcome htrial hdue
        hsettled
      obtain ⟨growth, hstored, hall⟩ := hgrows action haction snapshot hcollected
      obtain ⟨result, hresult, houtcome⟩ := Option.map_eq_some_iff.mp hsettled
      refine Option.map_eq_some_iff.mpr ⟨result, ?_, houtcome⟩
      unfold settleCanonicalCandidate at hresult ⊢
      split at hresult
      · cases hresult
      · -- the rebuilt trial has the horizon of the position
        rename_i candidate hfound
        have hcanonical : (candidate.canonicalTrial (canonicalId trial.candidateId)
            trial.dueAt).dueAt = due := by
          rw [htrial]
          rfl
        have hbefore : settleExecutable R (growth.of_le (hcanonical ▸ hdue)).stored
            (candidate.canonicalTrial (canonicalId trial.candidateId) trial.dueAt)
              = some result := by
          rw [← hresult, ← hstored]
          rfl
        rw [← hall]
        exact settleExecutable_later hbefore
  exact ⟨hstands .governed (fun h => by cases h), hstands .yieldShadow (fun h => by cases h)⟩

/-! ### A lending rate -/

/-- The evidence of lending rates observed at some instants. -/
def lendingEvidence (instants : List Instant) : StoredEvidence :=
  { StoredEvidence.empty with yieldObservations := instants.map lendingRate }

/-- More rates, none of them older than those stored. -/
theorem lendingEvidence_grows (completedAt : Instant) (stored further : List Instant)
    (h : ∀ late ∈ further, ∀ early ∈ stored, early ≤ late) :
    ∃ growth : LaterEvidence completedAt, growth.stored = lendingEvidence stored
      ∧ growth.all = lendingEvidence (stored ++ further) := by
  have hyields : ∀ row ∈ further.map lendingRate, ∀ old ∈ stored.map lendingRate,
      old.observedAt ≤ row.observedAt := by
    intro row hrow old hold
    obtain ⟨late, hlate, rfl⟩ := List.mem_map.mp hrow
    obtain ⟨early, hearly, rfl⟩ := List.mem_map.mp hold
    exact h late hlate early hearly
  refine ⟨⟨lendingEvidence stored, lendingEvidence further, hyields, ?_, ?_, ?_, ?_⟩, rfl, ?_⟩
  · exact fun row hrow => by cases hrow
  · exact fun row hrow => by cases hrow
  · exact fun row hrow => by cases hrow
  · exact fun row hrow => by cases hrow
  · simp only [LaterEvidence.all, lendingEvidence, List.map_append]
    rfl

/-- A cycle that completes its snapshot at an instant and sees these rates, and all of whose writes
    are made. -/
def lendingCycle (completedAt : Instant) (instants : List Instant) : CycleAction where
  input :=
    { collected := .ok ⟨"", completedAt, [], []⟩
      evidence := lendingEvidence instants
      coverage := ⟨[⟨"yield",
        [⟨true, true, false, ["yield_rate", "capacity", "exit_liquidity"], "morpho"⟩]⟩]⟩
      optionCapacity := []
      totalCapitalUsd := 100000 }
  writes := 100

/-- A cycle that tries a rate, and one a day later that settles the trial. -/
def lendingRun : List CycleAction :=
  [lendingCycle 0 [0], lendingCycle 86400000000 [0, 86400000000]]

/-- The next day one more rate is stored, and the outcome of the trial stands. -/
theorem settlementsStand_lendingRun :
    let ledger := (run (cycleStep (runEvidenceCycle .sample (yieldShadowService .sample))) .initial
      lendingRun).ledger
    ledger.outcomes.length = 1
      ∧ SettlementsStand .sample .yieldShadow lendingRun
        (lendingEvidence [0, 86400000000, 172800000000]) ledger := by
  have hgrows : GrowsInto lendingRun (lendingEvidence [0, 86400000000, 172800000000]) := by
    intro action haction snapshot hcollected
    rcases List.mem_cons.mp haction with rfl | haction
    · obtain rfl := Except.ok.inj hcollected
      exact lendingEvidence_grows 0 [0] [86400000000, 172800000000] (by decide)
    · obtain rfl := List.mem_singleton.mp haction
      obtain rfl := Except.ok.inj hcollected
      exact lendingEvidence_grows 86400000000 [0, 86400000000] [172800000000] (by decide)
  exact ⟨by decide +kernel, (settlementsStand_of_run .sample hgrows).2⟩

end InefficiencyEngine.Mechanism
