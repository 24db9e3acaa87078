import InefficiencyEngine.Portfolio.Findings
import InefficiencyEngine.Portfolio.CanonicalSettlement

namespace InefficiencyEngine.Portfolio

/-!
# Marking a mature perpetual short

A perpetual short is marked by its leg (`_mark_universal`: base quantity times price difference,
funding up to the quote) and settled by its trial (`_settle_perp_short`: notional times relative
return, funding up to the horizon).  On the one quote of its instrument, observed at the horizon
or later, both have the same evidence and come to the same profit, so that the close changes the
net asset value by nothing (`mark_predicts_settlement`).
-/

/-! ### The net asset value of a replay -/

namespace Replay

/-- The unrealized profit of an open item: that of its latest mark, or of its opening. -/
def markPnl (r : Replay) (item : Uuid × CanonicalPortfolioEvent) : ℚ :=
  ((r.latestMark.get? item.1).getD item.2).unrealizedPnlUsd

/-- What a listed item contributes to the net asset value. -/
def worth (r : Replay) (item : Uuid × CanonicalPortfolioEvent) : ℚ :=
  item.2.capitalReservedUsd + r.markPnl item

/-- The net asset value: cash, and what the listed items are worth. -/
def nav (r : Replay) : ℚ := r.cash + (r.listedItems.map r.worth).sum

variable {r : Replay}

/-- One iteration of the valuation loop adds the profit of the item, if it lists it. -/
theorem Balanced.unrealized_step (h : r.Balanced) {v v' : Valuation}
    {item : Uuid × CanonicalPortfolioEvent} (hitem : item ∈ r.opened.items)
    (hvalue : r.value v item = .ok v') :
    v'.unrealized = v.unrealized + ((([item].filter
      (fun item => (r.closed.get? item.1).isNone)).filter (fun item => item.2.hasTexts)).map
        r.markPnl).sum := by
  have hpriced : item.2.Priced := h.priced item.1 item.2 ((Dict.mem_items_iff r.opened).mp hitem)
  unfold value at hvalue
  by_cases hskip : ((r.closed.get? item.1).isSome || !item.2.hasTexts) = true
  · rw [if_pos hskip] at hvalue
    injection hvalue with hvalue
    subst hvalue
    have hnil : ([item].filter (fun item => (r.closed.get? item.1).isNone)).filter
        (fun item => item.2.hasTexts) = [] := by
      cases hclosed : r.closed.get? item.1 <;> simp_all
    rw [hnil]
    simp
  · rw [if_neg hskip] at hvalue
    obtain ⟨entry, hentry⟩ := Option.isSome_iff_exists.mp hpriced.entry
    obtain ⟨dueAt, hdue⟩ := Option.isSome_iff_exists.mp hpriced.due
    obtain ⟨cost, hcost⟩ := Option.isSome_iff_exists.mp hpriced.cost
    simp only [hentry, hdue, hcost] at hvalue
    obtain ⟨position, -, hvalue⟩ := bind_eq_ok hvalue
    injection hvalue with hvalue
    subst hvalue
    have hsingle : ([item].filter (fun item => (r.closed.get? item.1).isNone)).filter
        (fun item => item.2.hasTexts) = [item] := by
      cases hclosed : r.closed.get? item.1 <;> simp_all
    rw [hsingle, List.map_singleton, List.sum_singleton]
    rfl

/-- The valuation sums the profits of the listed items. -/
theorem Balanced.unrealized_eq (h : r.Balanced) {v : Valuation} (hv : r.valuation = .ok v) :
    v.unrealized = (r.listedItems.map r.markPnl).sum
      ∧ List.Forall₂ Describes r.listedItems v.positions := by
  have hstep : ∀ seen v item, item ∈ r.opened.items →
      (Valuation.Over r seen v ∧ v.unrealized
        = (((seen.filter (fun item => (r.closed.get? item.1).isNone)).filter
          (fun item => item.2.hasTexts)).map r.markPnl).sum) →
      ∃ v', r.value v item = .ok v' ∧ Valuation.Over r (seen ++ [item]) v' ∧ v'.unrealized
        = ((((seen ++ [item]).filter (fun item => (r.closed.get? item.1).isNone)).filter
          (fun item => item.2.hasTexts)).map r.markPnl).sum := by
    rintro seen v item hitem ⟨hover, hsum⟩
    obtain ⟨v', hvalue, hover'⟩ := h.value_step hover hitem
    refine ⟨v', hvalue, hover', ?_⟩
    rw [h.unrealized_step hitem hvalue, hsum, List.filter_append, List.filter_append,
      List.map_append, List.sum_append]
  obtain ⟨v', hv', hover, hsum⟩ := foldlM_total hstep
    (s := ⟨[], 0, r.pnlMechanism, r.pnlStrategy⟩)
    ⟨⟨List.Forall₂.nil, by simp, by simp⟩, by simp⟩
  obtain rfl : v = v' := Except.ok.inj (hv.symm.trans hv')
  exact ⟨hsum, hover.positions⟩

/-- The state of a balanced log has the net asset value of its replay, and its positions are
    listed items. -/
theorem Balanced.nav_eq {events : List CanonicalPortfolioEvent} (h : (replay events).Balanced)
    {snapshots : List CanonicalPaperPortfolioSnapshot} {observedAt : Instant}
    {state : CanonicalPaperPortfolioSnapshot}
    (hstate : accountState events snapshots observedAt = .ok state) :
    state.navUsd = (replay events).nav
      ∧ ∀ position ∈ state.positions,
        ∃ item ∈ (replay events).listedItems, Describes item position := by
  obtain ⟨v, hv, hstate⟩ := bind_eq_ok hstate
  obtain ⟨hunrealized, hdescribes⟩ := h.unrealized_eq hv
  obtain ⟨-, -, -, -, -, hnav, hpositions, -⟩ := accountSnapshot_eq_ok hstate
  constructor
  · have hsum : (((replay events).listedItems.map (replay events).worth).sum : ℚ)
        = ((replay events).listedItems.map (fun item => item.2.capitalReservedUsd)).sum
          + ((replay events).listedItems.map (replay events).markPnl).sum :=
      List.sum_map_add
    rw [hnav, hunrealized, reservedCapital_eq hdescribes, nav, hsum, add_assoc]
  · intro position hposition
    rw [hpositions, List.mem_insertionSort] at hposition
    exact exists_describes hdescribes hposition

/-- A mark lists the same items, and the marked one at the marked profit. -/
theorem listedItems_step_mark {mark : CanonicalPortfolioEvent} {p : Uuid}
    (htype : mark.eventType = .mark) (hid : mark.positionId = some p) :
    (r.step mark).listedItems = r.listedItems
      ∧ ∀ f, (r.step mark).worth (p, f) = f.capitalReservedUsd + mark.unrealizedPnlUsd := by
  have hstep : r.step mark = { r.book mark with latestMark := r.latestMark.set p mark } := by
    rw [step, htype, hid]
    rfl
  rw [hstep]
  refine ⟨rfl, fun f => ?_⟩
  show f.capitalReservedUsd + (((r.latestMark.set p mark).get? p).getD f).unrealizedPnlUsd = _
  rw [Dict.get?_set_self, Option.getD_some]

/-- A close takes its item off the list: the net asset value loses what the item was worth, and
    gains the cash. -/
theorem nav_step_close {close f : CanonicalPortfolioEvent} {p : Uuid}
    (htype : close.eventType = .close) (hid : close.positionId = some p)
    (hlisted : (p, f) ∈ r.listedItems) :
    (r.step close).nav = r.nav + (close.cashDeltaUsd - r.worth (p, f)) := by
  have hstep : r.step close = { r.book close with
      closed := r.closed.set p close
      pnlMechanism := addLabelled r.pnlMechanism close.family close.realizedPnlDeltaUsd
      pnlStrategy := addLabelled r.pnlStrategy close.strategy close.realizedPnlDeltaUsd } := by
    rw [step, htype, hid]
    rfl
  -- the position leaves the list, and the other items stay as they were
  have hitems : (r.step close).listedItems = r.listedItems.filter (fun item => item.1 ≠ p) := by
    rw [hstep]
    show ((r.opened.items.filter
      (fun item => ((r.closed.set p close).get? item.1).isNone)).filter _) = _
    rw [listedItems, openItems, List.filter_filter, List.filter_filter, List.filter_filter]
    refine List.filter_congr (fun item _ => ?_)
    rw [Dict.get?_set]
    by_cases hp : p = item.1
    · simp [hp]
    · simp [hp, Ne.symm hp, Bool.and_comm]
  -- closing changes what no item is worth
  have hworth : (r.step close).worth = r.worth := by rw [hstep]; rfl
  have hcash : (r.step close).cash = r.cash + close.cashDeltaUsd := by rw [hstep]; rfl
  have hnodup : (r.listedItems.map Prod.fst).Nodup :=
    (List.Sublist.map Prod.fst List.filter_sublist).nodup r.nodup_openItems
  have hsum := sum_filter_ne_add hnodup hlisted r.worth
  rw [nav, nav, hitems, hworth, hcash, ← hsum]
  ring

end Replay

/-- **Close on the mark.** In a balanced log, a listed position whose last mark shows the profit
    its close realizes leaves the net asset value where the mark put it. -/
theorem nav_close_of_mark {events : List CanonicalPortfolioEvent} (h : (replay events).Balanced)
    {f mark close : CanonicalPortfolioEvent} {p : Uuid}
    (hlisted : (p, f) ∈ (replay events).listedItems)
    (hmark : mark.eventType = .mark) (hmarkId : mark.positionId = some p)
    (hmarkCash : mark.cashDeltaUsd = 0) (hmarkRealized : mark.realizedPnlDeltaUsd = 0)
    (hclose : close.eventType = .close) (hcloseId : close.positionId = some p)
    (hfamily : truthy close.family = true) (hstrategy : truthy close.strategy = true)
    (hcash : close.cashDeltaUsd = f.capitalReservedUsd + close.realizedPnlDeltaUsd)
    (hprofit : mark.unrealizedPnlUsd = close.realizedPnlDeltaUsd)
    (snapshots snapshots' : List CanonicalPaperPortfolioSnapshot) (markedAt closedAt : Instant) :
    ∃ marked closed, accountState (events ++ [mark]) snapshots markedAt = .ok marked
      ∧ accountState (events ++ [mark, close]) snapshots' closedAt = .ok closed
      ∧ closed.navUsd = marked.navUsd := by
  have hreplay : replay (events ++ [mark]) = (replay events).step mark := by
    simp [replay]
  have hreplay' : replay (events ++ [mark, close]) = ((replay events).step mark).step close := by
    simp [replay]
  obtain ⟨hsame, hworth⟩ := (replay events).listedItems_step_mark hmark hmarkId
  -- a mark moves neither cash nor realized profit
  have hbalanced : (replay (events ++ [mark])).Balanced := by
    rw [hreplay]
    exact h.step_other (by rw [hmark]; decide) (by rw [hmark]; decide) hmarkCash hmarkRealized
  -- the position is still listed after its mark, so the close finds it
  have hstill : (p, f) ∈ ((replay events).step mark).listedItems := hsame ▸ hlisted
  have hbalanced' : (replay (events ++ [mark, close])).Balanced := by
    rw [hreplay']
    refine Replay.Balanced.step_close (hreplay ▸ hbalanced) hclose hcloseId ?_ hfamily hstrategy
      hcash
    exact Replay.mem_openItems.mp (List.mem_of_mem_filter hstill)
  obtain ⟨marked, -, hmarked, -⟩ := hbalanced.account snapshots markedAt
  obtain ⟨closed, -, hclosed, -⟩ := hbalanced'.account snapshots' closedAt
  refine ⟨marked, closed, hmarked, hclosed, ?_⟩
  -- both values are sums over what is listed, and the close turns the mark's profit into cash
  rw [(hbalanced.nav_eq hmarked).1, (hbalanced'.nav_eq hclosed).1, hreplay, hreplay',
    Replay.nav_step_close hclose hcloseId hstill, hworth, hcash, hprofit]
  ring

/-! ### One quote of the instrument -/

/-- Both indexes hold the only quote of an instrument. -/
theorem get?_indexes_of_only {upper : String → String} {snapshot : ScanSnapshot}
    {key : InstrumentKey} {quote : MarketQuote}
    (honly : snapshot.marketQuotes.filter (fun q => q.key upper = key) = [quote]) :
    (portfolioQuoteIndex upper snapshot).get? key = some quote
      ∧ (certificationQuoteIndex upper snapshot).get? key = some quote := by
  have hmem : quote ∈ snapshot.marketQuotes.filter (fun q => q.key upper = key) := by
    rw [honly]
    exact List.mem_singleton.mpr rfl
  obtain ⟨hquote, hkey⟩ := List.mem_filter.mp hmem
  rw [decide_eq_true_eq] at hkey
  constructor
  · obtain ⟨newest, hnewest, -⟩ := Dict.le_get?_collectNewest (MarketQuote.key upper)
      MarketQuote.observedAt hquote
    rw [hkey] at hnewest
    obtain ⟨hlisted, hkey'⟩ := Dict.mem_of_get?_collectNewest _ _ hnewest
    have hsame : newest ∈ snapshot.marketQuotes.filter (fun q => q.key upper = key) :=
      List.mem_filter.mpr ⟨hlisted, by simpa using hkey'⟩
    rw [honly, List.mem_singleton] at hsame
    rw [← hsame]
    exact hnewest
  · rw [certificationQuoteIndex, Dict.get?_collect, honly]
    rfl

/-! ### Mark and settlement -/

/-- The snapshot has one quote of the trial's instrument, observed at its horizon or later. -/
def QuotedOnceWhenDue (upper : String → String) (snapshot : ScanSnapshot)
    (trial : PaperAllocationTrial) (quote : MarketQuote) : Prop :=
  ∃ key dueAt, trial.instrumentKey upper = some key ∧ trial.dueAt = some dueAt
    ∧ snapshot.marketQuotes.filter (fun q => q.key upper = key) = [quote]
    ∧ dueAt ≤ quote.observedAt

/-- What the mark of a trial says about its settlement on the same evidence: the one exists
    exactly when the other does, both have the same profit, and in the log of every reachable
    portfolio that lists the position, the close leaves the net asset value where the mark put
    it. -/
structure MarkPredictsSettlement (ctx : CycleContext) (trial : PaperAllocationTrial)
    (position : CanonicalPaperPosition) : Prop where
  exactly : ∀ eventId outcomeId,
    (∃ mark, ctx.markUniversal eventId position trial = some mark)
      ↔ ∃ outcome, settlePerpShort ctx.runtime.upper ctx.input.evidence outcomeId trial ctx.snapshot
        = some outcome
  profit : ∀ eventId outcomeId mark outcome,
    ctx.markUniversal eventId position trial = some mark →
    settlePerpShort ctx.runtime.upper ctx.input.evidence outcomeId trial ctx.snapshot
      = some outcome → mark.unrealizedPnlUsd = outcome.realizedProfitUsd
  nav : ∀ eventId outcomeId mark outcome,
    ctx.markUniversal eventId position trial = some mark →
    settlePerpShort ctx.runtime.upper ctx.input.evidence outcomeId trial ctx.snapshot
      = some outcome →
    ∀ n s, Reachable ctx.runtime (fun _ _ _ => True) n s →
    ∀ snapshots observedAt before, accountState s.events snapshots observedAt = .ok before →
      position ∈ before.positions →
    ∀ closeId snapshots' markedAt snapshots'' closedAt, ∃ marked closed,
      accountState (s.events ++ [mark]) snapshots' markedAt = .ok marked
        ∧ accountState (s.events ++ [mark, closeFromOutcome closeId position outcome]) snapshots''
          closedAt = .ok closed
        ∧ closed.navUsd = marked.navUsd

section Short

variable {ctx : CycleContext} {trial : PaperAllocationTrial} {leg : PaperSettlementLeg}
  {quote : MarketQuote} {sourceAt dueAt : Instant}

/-- The profit a mark shows on the one quote of a short: once the quote is not before the
    horizon, the funding window is the whole one. -/
theorem map_unrealized_markUniversal (eventId : Uuid) (position : CanonicalPaperPosition)
    (hlegs : trial.settlementLegs = [leg]) (hsource : trial.sourceObservedAt = some sourceAt)
    (hdue : trial.dueAt = some dueAt) (hmature : dueAt ≤ quote.observedAt)
    (hquote : (portfolioQuoteIndex ctx.runtime.upper ctx.snapshot).get?
      (leg.key ctx.runtime.upper) = some quote) :
    (ctx.markUniversal eventId position trial).map CanonicalPortfolioEvent.unrealizedPnlUsd
      = (fundingForLeg ctx.runtime.upper ctx.input.evidence leg sourceAt dueAt).map
        (fun funding => legPricePnl leg quote + funding.1 - markCost trial) := by
  have hwindow : min quote.observedAt (trial.dueAt.getD quote.observedAt) = dueAt := by
    rw [hdue]
    exact min_eq_right hmature
  have hquotes : legQuotes ctx.runtime.upper (portfolioQuoteIndex ctx.runtime.upper ctx.snapshot)
      trial.settlementLegs = some [(leg, quote)] := by
    simp [hlegs, legQuotes, hquote]
  cases hfunding : fundingForLeg ctx.runtime.upper ctx.input.evidence leg sourceAt dueAt with
  | none =>
    have hrows : fundingRows ctx.runtime.upper ctx.input.evidence sourceAt dueAt
        trial.settlementLegs = none := by
      simp [hlegs, fundingRows, hfunding]
    simp [CycleContext.markUniversal, hsource, hquotes, List.min?, hwindow, hrows]
  | some funding =>
    have hrows : fundingRows ctx.runtime.upper ctx.input.evidence sourceAt dueAt
        trial.settlementLegs = some [funding] := by
      simp [hlegs, fundingRows, hfunding]
    simp [CycleContext.markUniversal, hsource, hquotes, List.min?, hwindow, hrows]

/-- The profit the settlement of a short realizes on that quote. -/
theorem map_realized_settlePerpShort {upper : String → String} {evidence : Evidence}
    {snapshot : ScanSnapshot} {key : InstrumentKey} {entry : Positive} {cost : ℚ≥0}
    (outcomeId : Uuid) (hlegs : trial.settlementLegs = [leg])
    (hsource : trial.sourceObservedAt = some sourceAt) (hdue : trial.dueAt = some dueAt)
    (hentry : trial.entryReferencePrice = some entry)
    (hcost : trial.modeledRoundtripCostReturn = some cost)
    (hkey : trial.instrumentKey upper = some key)
    (hquote : (certificationQuoteIndex upper snapshot).get? key = some quote) :
    (settlePerpShort upper evidence outcomeId trial snapshot).map
        PaperAllocationOutcome.realizedProfitUsd
      = (fundingForLeg upper evidence leg sourceAt dueAt).map (fun funding =>
        (trial.notionalUsd : ℚ) * (1 - (quote.mid : ℚ) / entry) + funding.1
          - trial.notionalUsd * cost) := by
  cases hfunding : fundingForLeg upper evidence leg sourceAt dueAt with
  | none => simp [settlePerpShort, hentry, hcost, hdue, hsource, hlegs, hkey, hquote, hfunding]
  | some funding =>
    simp [settlePerpShort, hentry, hcost, hdue, hsource, hlegs, hkey, hquote, hfunding]

/-- The leg of a short is looked up under the instrument of its trial. -/
theorem instrumentKey_eq_key {upper : String → String}
    (hupper : ∀ text, upper (upper text) = upper text)
    (hshort : leg.IsShortOf upper trial) : trial.instrumentKey upper = some (leg.key upper) := by
  simp only [PaperAllocationTrial.instrumentKey, hshort.venue, hshort.symbol,
    hshort.trialMarketKind, PaperSettlementLeg.key, hshort.asset, hshort.marketKind, hupper]

/-- Selling the base quantity at the entry and buying it back at a price gains the notional times
    the relative fall of the price. -/
theorem legPricePnl_short {upper : String → String} (hshort : leg.IsShortOf upper trial)
    (quote : MarketQuote) :
    legPricePnl leg quote = trial.notionalUsd * (1 - (quote.mid : ℚ) / leg.entryPrice) := by
  have hentry : (leg.entryPrice : ℚ) ≠ 0 := leg.entryPrice.2.ne'
  rw [legPricePnl, if_neg (by rw [hshort.side]; decide), hshort.baseQuantity]
  field_simp

end Short

/-- A mark moves no cash. -/
theorem markUniversal_amounts {ctx : CycleContext} {eventId : Uuid}
    {position : CanonicalPaperPosition} {trial : PaperAllocationTrial}
    {mark : CanonicalPortfolioEvent} (h : ctx.markUniversal eventId position trial = some mark) :
    mark.cashDeltaUsd = 0 ∧ mark.realizedPnlDeltaUsd = 0 := by
  simp only [CycleContext.markUniversal, Option.bind_eq_bind, Option.bind_eq_some_iff,
    Option.pure_def, Option.some.injEq] at h
  obtain ⟨sourceAt, -, quotes, -, evidenceAt, -, fundings, -, rfl⟩ := h
  exact ⟨rfl, rfl⟩

/-- A position of a reachable portfolio is a listed item of a balanced log. -/
theorem listed_of_reachable {R : Runtime} {Allowed : ℕ → PortfolioStore → CycleInput → Prop}
    {n : ℕ} {s : PortfolioStore} (hs : Reachable R Allowed n s)
    {snapshots : List CanonicalPaperPortfolioSnapshot} {observedAt : Instant}
    {state : CanonicalPaperPortfolioSnapshot}
    (hstate : accountState s.events snapshots observedAt = .ok state)
    {position : CanonicalPaperPosition} (hposition : position ∈ state.positions) :
    ∃ p f, (p, f) ∈ (replay s.events).listedItems ∧ (replay s.events).Balanced
      ∧ Describes (p, f) position := by
  rcases hs.sound with hempty | hledger
  · rw [hempty] at hstate
    obtain ⟨v, hv, hstate⟩ := bind_eq_ok hstate
    injection hv with hv
    subst hv
    obtain ⟨-, -, -, -, -, -, hpositions, -⟩ := accountSnapshot_eq_ok hstate
    rw [hpositions] at hposition
    cases hposition
  · obtain ⟨⟨p, f⟩, hlisted, hdescribes⟩ :=
      (hledger.balanced.nav_eq hstate).2 position hposition
    exact ⟨p, f, hlisted, hledger.balanced, hdescribes⟩

/-- **A mark predicts the settlement.** For every perpetual short that `trial_from_allocation`
    builds, and every snapshot whose one quote of its instrument was observed at the horizon or
    later: the position can be marked exactly when it can be settled, the mark shows the profit
    the settlement realizes, and the close changes the net asset value by nothing beyond the
    mark. -/
theorem mark_predicts_settlement (ctx : CycleContext)
    (hupper : ∀ text, ctx.runtime.upper (ctx.runtime.upper text) = ctx.runtime.upper text)
    {trialId : Uuid} {a : UnifiedPaperAllocation} {planObservedAt : Instant}
    {trial : PaperAllocationTrial}
    (htrial : trialFromAllocation ctx.runtime.upper trialId a planObservedAt = .ok trial)
    (hmethod : trial.settlementMethod = some perpShortSettlementMethod) {quote : MarketQuote}
    (hquoted : QuotedOnceWhenDue ctx.runtime.upper ctx.snapshot trial quote)
    (position : CanonicalPaperPosition) : MarkPredictsSettlement ctx trial position := by
  obtain ⟨leg, hlegs, hshort⟩ := trialFromAllocation_shortLeg htrial hmethod
  obtain ⟨-, hcost, ⟨sourceAt, hsource⟩, -⟩ := trialFromAllocation_perpShort htrial hmethod
  obtain ⟨cost, hcost⟩ := Option.isSome_iff_exists.mp hcost
  obtain ⟨key, dueAt, hkey, hdue, honly, hmature⟩ := hquoted
  obtain rfl : leg.key ctx.runtime.upper = key :=
    Option.some.inj ((instrumentKey_eq_key hupper hshort).symm.trans hkey)
  obtain ⟨hportfolio, hcertification⟩ := get?_indexes_of_only honly
  -- one figure, from the same funding
  have hfigure : ∀ eventId outcomeId,
      (ctx.markUniversal eventId position trial).map CanonicalPortfolioEvent.unrealizedPnlUsd
        = (settlePerpShort ctx.runtime.upper ctx.input.evidence outcomeId trial ctx.snapshot).map
          PaperAllocationOutcome.realizedProfitUsd := by
    intro eventId outcomeId
    have hcostUsd : markCost trial = trial.notionalUsd * (cost : ℚ) := by
      rw [markCost, if_pos hmethod, hcost, Option.getD_some]
    rw [map_unrealized_markUniversal eventId position hlegs hsource hdue hmature hportfolio,
      map_realized_settlePerpShort outcomeId hlegs hsource hdue hshort.entryPrice hcost hkey
        hcertification, legPricePnl_short hshort, hcostUsd]
  have hprofit : ∀ eventId outcomeId mark outcome,
      ctx.markUniversal eventId position trial = some mark →
      settlePerpShort ctx.runtime.upper ctx.input.evidence outcomeId trial ctx.snapshot
        = some outcome → mark.unrealizedPnlUsd = outcome.realizedProfitUsd := by
    intro eventId outcomeId mark outcome hmark houtcome
    have hsame := hfigure eventId outcomeId
    rw [hmark, houtcome] at hsame
    exact Option.some.inj hsame
  refine ⟨fun eventId outcomeId => ?_, hprofit, ?_⟩
  · have hsame := congrArg Option.isSome (hfigure eventId outcomeId)
    rw [Option.isSome_map, Option.isSome_map] at hsame
    rw [← Option.isSome_iff_exists, ← Option.isSome_iff_exists, hsame]
  · intro eventId outcomeId mark outcome hmark houtcome n s hs snapshots observedAt before hbefore
      hposition closeId snapshots' markedAt snapshots'' closedAt
    obtain ⟨p, f, hlisted, hbalanced, hdescribes⟩ := listed_of_reachable hs hbefore hposition
    obtain ⟨-, htype, hid, -⟩ := CycleContext.markUniversal_eq_some hmark
    obtain rfl : position.positionId = p := hdescribes.positionId
    obtain ⟨hcash, hrealized⟩ := markUniversal_amounts hmark
    exact nav_close_of_mark hbalanced hlisted htype hid hcash hrealized rfl rfl
      (by simpa [closeFromOutcome, positionEvent] using hdescribes.familyText)
      (by simpa [closeFromOutcome, positionEvent] using hdescribes.strategyText)
      (by rw [← hdescribes.capital]; rfl) (hprofit eventId outcomeId mark outcome hmark houtcome)
      snapshots' snapshots'' markedAt closedAt

/-- The quote of the sample short when its hour is over. -/
def dueQuote : MarketQuote :=
  ⟨"kraken", "BTC", .perpetual, "BTC-PERP", 90, 3600000000⟩

/-- The funding the sample short receives after half an hour, a thousandth of its notional. -/
def dueFunding : FundingQuote :=
  ⟨"kraken", "BTC", 1 / 1000, ⟨8, interval_eight⟩, some "BTC-PERP", some 1800000000, 0⟩

/-- What is stored by then: this funding, and the price that it was paid on. -/
def dueEvidence : Evidence where
  fundingQuotes := [dueFunding]
  marketQuotes := [⟨"kraken", "BTC", .perpetual, "BTC-PERP", 100, 1200000000⟩]

/-- A cycle that sees this quote. -/
def dueContext : CycleContext where
  runtime := Runtime.sample
  run := 0
  input := { Sample.input 3600000000 [dueQuote] [] (fun _ => .error "") with
    evidence := dueEvidence }
  snapshot := ⟨"scan", 3600000000, [dueQuote], []⟩
  openEvents := Dict.empty
  priorEvidence := Dict.empty

/-- The leg of the sample short. -/
def dueLeg : PaperSettlementLeg :=
  ⟨"kraken", "BTC", "perpetual", .short, "BTC-PERP", 1, 100,
    100⟩

theorem dueLeg_built : (Sample.candidate "short" "BTC-PERP" .directionalShort .perpetual
    100).toAllocation.trialLegs id = .ok [dueLeg] := by
  have hbase : positive "PaperSettlementLeg" "base_quantity" (100 / 100)
      = .ok 1 := by
    rw [positive, dif_pos (by norm_num)]
    congr
    norm_num
  have hnotional : positive "PaperSettlementLeg" "entry_notional_usd" 100
      = .ok 100 := positive_of_lt (pos_ofNat 99)
  rw [UnifiedPaperAllocation.trialLegs, if_neg (by decide +kernel), if_pos (by decide +kernel)]
  show (do return [← UnifiedPaperAllocation.perpShortLeg id _ 100]) = _
  rw [UnifiedPaperAllocation.perpShortLeg]
  show (do return [← (do
    let baseQuantity ← positive "PaperSettlementLeg" "base_quantity" (100 / 100)
    let entryNotionalUsd ← positive "PaperSettlementLeg" "entry_notional_usd" 100
    return _)]) = _
  rw [hbase, hnotional]
  rfl

theorem dueLeg_funding :
    fundingForLeg id dueEvidence dueLeg 0 3600000000 = some (1 / 10, 1) := by
  decide +kernel

/-- The sample short at the end of its hour: it gained ten dollars on the price and ten cents of
    funding, which its mark shows and its settlement realizes. -/
theorem mark_predicts_settlement_due :
    ∃ trial, trialFromAllocation id 0 (Sample.candidate "short" "BTC-PERP" .directionalShort
        .perpetual 100).toAllocation 0 = .ok trial
      ∧ ∀ position, MarkPredictsSettlement dueContext trial position
        ∧ ∀ eventId outcomeId, ∃ mark outcome,
          dueContext.markUniversal eventId position trial = some mark
          ∧ settlePerpShort id dueEvidence outcomeId trial dueContext.snapshot = some outcome
          ∧ mark.unrealizedPnlUsd = 101 / 10 ∧ outcome.realizedProfitUsd = 101 / 10 := by
  obtain ⟨trial, htrial⟩ := trialFromAllocation_toAllocation id 0
    (Sample.candidate "short" "BTC-PERP" .directionalShort .perpetual 100) 0
  obtain ⟨-, -, hnotional, hlegs, -, hmethod, hdue, hsource, hvenues, hasset, hsymbol, hkind, -,
    hcost, -⟩ := trialFromAllocation_eq_ok htrial
  have hkey : trial.instrumentKey id = some ("kraken", "BTC", "perpetual", "BTC-PERP") := by
    unfold PaperAllocationTrial.instrumentKey
    rw [hvenues, hasset, hsymbol, hkind]
    rfl
  have honly : dueContext.snapshot.marketQuotes.filter
      (fun q => q.key id = ("kraken", "BTC", "perpetual", "BTC-PERP")) = [dueQuote] := by
    refine List.filter_eq_self.mpr (fun q hq => ?_)
    rw [List.mem_singleton.mp hq]
    rfl
  have hdue' : trial.dueAt = some 3600000000 := hdue.trans (by decide +kernel)
  have hmethod' : trial.settlementMethod = some perpShortSettlementMethod :=
    hmethod.trans (by decide +kernel)
  have hquoted : QuotedOnceWhenDue id dueContext.snapshot trial dueQuote :=
    ⟨_, 3600000000, hkey, hdue', honly, le_refl _⟩
  have hpredicts := fun position => mark_predicts_settlement dueContext (fun _ => rfl) htrial
    hmethod' hquoted position
  refine ⟨trial, htrial, fun position => ⟨hpredicts position, fun eventId outcomeId => ?_⟩⟩
  -- the leg that the trial was given, and what its funding came to
  have hleg : trial.settlementLegs = [dueLeg] :=
    Except.ok.inj (hlegs.symm.trans dueLeg_built)
  obtain ⟨hportfolio, hcertification⟩ := get?_indexes_of_only honly
  have hsource' : trial.sourceObservedAt = some 0 := hsource
  have hmark : (dueContext.markUniversal eventId position trial).map
      CanonicalPortfolioEvent.unrealizedPnlUsd = some (101 / 10) := by
    rw [map_unrealized_markUniversal eventId position hleg hsource' hdue' (le_refl _) hportfolio]
    have hcostUsd : markCost trial = 0 := by
      rw [markCost, if_pos hmethod', hcost]
      exact mul_zero _
    show (fundingForLeg id dueEvidence dueLeg 0 3600000000).map _ = _
    rw [dueLeg_funding, hcostUsd]
    decide +kernel
  obtain ⟨mark, hsome, hpnl⟩ := Option.map_eq_some_iff.mp hmark
  obtain ⟨outcome, houtcome⟩ :=
    ((hpredicts position).exactly eventId outcomeId).mp ⟨mark, hsome⟩
  exact ⟨mark, outcome, hsome, houtcome, hpnl,
    ((hpredicts position).profit eventId outcomeId mark outcome hsome houtcome).symm.trans hpnl⟩

end InefficiencyEngine.Portfolio
