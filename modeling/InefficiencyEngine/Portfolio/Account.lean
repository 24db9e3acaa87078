import InefficiencyEngine.Portfolio.Cycle

namespace InefficiencyEngine.Portfolio

/-!
# Balanced logs

What a log must satisfy for its replay to account for every dollar, and what each kind of
event does to it.  A replay is *balanced* when its cash is the initial capital plus
realized profit less the capital of the open items, its profit breakdowns add up to the
realized profit, every opened event is priced, and only opened positions are closed.

`Replay.Balanced.account` values a balanced replay: the valuation raises nothing and lists
every open item whose texts are complete.  The accounting identity follows when *all*
opened events have complete texts (`Replay.Balanced.identity`).
-/

/-! ### Open items -/

namespace Replay

/-- The opened events no close event names, in opening order. -/
def openItems (r : Replay) : List (Uuid × CanonicalPortfolioEvent) :=
  r.opened.items.filter (fun item => (r.closed.get? item.1).isNone)

/-- The capital the open items reserve. -/
def openCapital (r : Replay) : ℚ :=
  (r.openItems.map (fun item => item.2.capitalReservedUsd)).sum

/-- The open items the valuation lists as positions. -/
def listedItems (r : Replay) : List (Uuid × CanonicalPortfolioEvent) :=
  r.openItems.filter (fun item => item.2.hasTexts)

/-- A position is open: opened by `event` and not closed. -/
def IsOpen (r : Replay) (positionId : Uuid) (event : CanonicalPortfolioEvent) : Prop :=
  r.opened.get? positionId = some event ∧ r.closed.get? positionId = none

theorem mem_openItems {r : Replay} {positionId : Uuid} {event : CanonicalPortfolioEvent} :
    (positionId, event) ∈ r.openItems ↔ r.IsOpen positionId event := by
  rw [openItems, List.mem_filter, Dict.mem_items_iff, IsOpen, Option.isNone_iff_eq_none]

theorem nodup_openItems (r : Replay) : (r.openItems.map Prod.fst).Nodup :=
  (List.Sublist.map Prod.fst List.filter_sublist).nodup r.opened.nodup_keys

end Replay

/-- An opened event carries the figures a position is made of. -/
structure CanonicalPortfolioEvent.Priced (e : CanonicalPortfolioEvent) : Prop where
  entry : e.entryReferencePrice.isSome
  due : e.dueAt.isSome
  cost : e.modeledRoundtripCostReturn.isSome
  capital : 0 < e.capitalReservedUsd
  notional : 0 < e.notionalUsd

/-- The replay accounts for every dollar. -/
structure Replay.Balanced (r : Replay) : Prop where
  cash : r.cash = canonicalInitialCapitalUsd + r.realized - r.openCapital
  mechanism : r.pnlMechanism.values.sum = r.realized
  strategy : r.pnlStrategy.values.sum = r.realized
  costs : 0 ≤ r.costs
  priced : ∀ p e, r.opened.get? p = some e → e.Priced
  closedOpened : ∀ p, r.opened.get? p = none → r.closed.get? p = none

/-! ### The four kinds of event -/

/-- A labelled accumulation under a non-empty label adds to the total. -/
theorem sum_addLabelled {pnl : Dict String ℚ} {label : Option String} {x : ℚ}
    (h : truthy label = true) : (addLabelled pnl label x).values.sum = pnl.values.sum + x := by
  cases label with
  | none => cases h
  | some l =>
    have hl : l ≠ "" := by simpa [truthy] using h
    rw [addLabelled, if_neg hl, Dict.sum_values_add]

/-- Opening a fresh position adds one open item. -/
theorem Replay.openItems_step_open {r : Replay} {e : CanonicalPortfolioEvent} {p : Uuid}
    (htype : e.eventType = .open) (hid : e.positionId = some p)
    (hfresh : r.opened.get? p = none) (hclosed : r.closed.get? p = none) :
    (r.step e).openItems = r.openItems ++ [(p, e)] := by
  have hstep : r.step e = { r.book e with opened := r.opened.set p e } := by
    rw [Replay.step, htype, hid]
    rfl
  rw [hstep]
  show (r.opened.set p e).items.filter (fun item => (r.closed.get? item.1).isNone) = _
  rw [Dict.items_set_of_get?_none r.opened e hfresh, List.filter_append]
  simp [Replay.openItems, hclosed]

namespace Replay.Balanced

variable {r : Replay} {e : CanonicalPortfolioEvent} {p : Uuid}

/-- The amounts of an event that books nothing. -/
private theorem book_zero (hcash : e.cashDeltaUsd = 0) (hrealized : e.realizedPnlDeltaUsd = 0) :
    (r.book e).cash = r.cash ∧ (r.book e).realized = r.realized := by
  simp [Replay.book, hcash, hrealized]

private theorem costs_book (h : 0 ≤ r.costs) : 0 ≤ (r.book e).costs :=
  add_nonneg h (le_max_left _ _)

/-- Opening a fresh position for its capital keeps the replay balanced. The opening takes its
    capital from the cash and adds it to the open capital, and books no profit. -/
theorem step_open (h : r.Balanced) (htype : e.eventType = .open) (hid : e.positionId = some p)
    (hfresh : r.opened.get? p = none) (hpriced : e.Priced)
    (hcash : e.cashDeltaUsd = -e.capitalReservedUsd) (hrealized : e.realizedPnlDeltaUsd = 0) :
    (r.step e).Balanced := by
  have hclosed : r.closed.get? p = none := h.closedOpened p hfresh
  have hstep : r.step e = { r.book e with opened := r.opened.set p e } := by
    rw [Replay.step, htype, hid]
    rfl
  have hitems := Replay.openItems_step_open htype hid hfresh hclosed
  -- cash and capital, the two sums of the profit, the costs, the prices, and what was closed
  refine ⟨?_, ?_, ?_, ?_, ?_, ?_⟩
  · rw [Replay.openCapital, hitems, hstep]
    simp only [Replay.book, hcash, hrealized, h.cash, Replay.openCapital, List.map_append,
      List.sum_append, List.map_singleton, List.sum_singleton]
    ring
  · rw [hstep]
    simp [Replay.book, hrealized, h.mechanism]
  · rw [hstep]
    simp [Replay.book, hrealized, h.strategy]
  · rw [hstep]
    exact costs_book h.costs
  · intro q f hf
    rw [hstep] at hf
    replace hf : (r.opened.set p e).get? q = some f := hf
    rw [Dict.get?_set] at hf
    by_cases hq : p = q
    · rw [if_pos hq, Option.some.injEq] at hf
      exact hf ▸ hpriced
    · rw [if_neg hq] at hf
      exact h.priced q f hf
  · intro q hq
    rw [hstep] at hq ⊢
    replace hq : (r.opened.set p e).get? q = none := hq
    rw [Dict.get?_set] at hq
    by_cases hpq : p = q
    · rw [if_pos hpq] at hq
      cases hq
    · rw [if_neg hpq] at hq
      exact h.closedOpened q hq

/-- Closing an open position for its capital and profit keeps the replay balanced. The close
    returns the capital its opening reserved together with the profit, so cash and open capital
    move by the same amount in opposite directions. -/
theorem step_close (h : r.Balanced) {f : CanonicalPortfolioEvent} (htype : e.eventType = .close)
    (hid : e.positionId = some p) (hopen : r.IsOpen p f) (hfamily : truthy e.family = true)
    (hstrategy : truthy e.strategy = true)
    (hcash : e.cashDeltaUsd = f.capitalReservedUsd + e.realizedPnlDeltaUsd) :
    (r.step e).Balanced := by
  have hstep : r.step e = { r.book e with
      closed := r.closed.set p e
      pnlMechanism := addLabelled r.pnlMechanism e.family e.realizedPnlDeltaUsd
      pnlStrategy := addLabelled r.pnlStrategy e.strategy e.realizedPnlDeltaUsd } := by
    rw [Replay.step, htype, hid]
    rfl
  -- the position leaves the open ones, and no other does
  have hitems : (r.step e).openItems = r.openItems.filter (fun item => item.1 ≠ p) := by
    rw [hstep]
    show r.opened.items.filter (fun item => ((r.closed.set p e).get? item.1).isNone) = _
    rw [Replay.openItems, List.filter_filter]
    refine List.filter_congr (fun item _ => ?_)
    rw [Dict.get?_set]
    by_cases hp : p = item.1
    · simp [hp]
    · simp [hp, Ne.symm hp]
  -- which takes just its own capital out of the sum
  have hsum := sum_filter_ne_add r.nodup_openItems (Replay.mem_openItems.mpr hopen)
    (fun item => item.2.capitalReservedUsd)
  refine ⟨?_, ?_, ?_, ?_, ?_, ?_⟩
  · rw [Replay.openCapital, hitems, hstep]
    simp only [Replay.book, hcash, h.cash, Replay.openCapital, ← hsum]
    ring
  · rw [hstep]
    show (addLabelled r.pnlMechanism e.family e.realizedPnlDeltaUsd).values.sum = _
    rw [sum_addLabelled hfamily, h.mechanism]
    rfl
  · rw [hstep]
    show (addLabelled r.pnlStrategy e.strategy e.realizedPnlDeltaUsd).values.sum = _
    rw [sum_addLabelled hstrategy, h.strategy]
    rfl
  · rw [hstep]
    exact costs_book h.costs
  · rw [hstep]
    exact h.priced
  -- the closed positions were opened, this one included
  · intro q hq
    rw [hstep] at hq ⊢
    have hne : p ≠ q := by
      intro he
      rw [← he] at hq
      exact absurd (hopen.1.symm.trans hq) (by simp)
    exact (Dict.get?_set_of_ne r.closed e hne).trans (h.closedOpened q hq)

/-- An event that books nothing, opens nothing and closes nothing keeps the replay
    balanced. -/
theorem step_other (h : r.Balanced) (hopen : e.eventType ≠ .open) (hclose : e.eventType ≠ .close)
    (hcash : e.cashDeltaUsd = 0) (hrealized : e.realizedPnlDeltaUsd = 0) :
    (r.step e).Balanced := by
  obtain ⟨hc, hr⟩ := book_zero (r := r) hcash hrealized
  have hbook : (r.book e).Balanced :=
    ⟨by rw [hc, hr]; exact h.cash, by rw [hr]; exact h.mechanism, by rw [hr]; exact h.strategy,
      costs_book h.costs, h.priced, h.closedOpened⟩
  unfold Replay.step
  dsimp only
  split
  · exact absurd ‹e.eventType = .open› hopen
  · exact ⟨hbook.cash, hbook.mechanism, hbook.strategy, hbook.costs, hbook.priced,
      hbook.closedOpened⟩
  · exact absurd ‹e.eventType = .close› hclose
  · exact ⟨hbook.cash, hbook.mechanism, hbook.strategy, hbook.costs, hbook.priced,
      hbook.closedOpened⟩
  · exact hbook

end Replay.Balanced

/-- The replay of the genesis event alone is balanced. -/
theorem balanced_genesis (eventId : Uuid) (observedAt : Instant) :
    (replay [genesisEvent eventId observedAt]).Balanced := by
  refine ⟨?_, ?_, ?_, ?_, ?_, ?_⟩
  · simp [replay, Replay.step, Replay.book, genesisEvent, Replay.start, Replay.openCapital,
      Replay.openItems]
  · simp [replay, Replay.step, Replay.book, genesisEvent, Replay.start, Dict.values]
  · simp [replay, Replay.step, Replay.book, genesisEvent, Replay.start, Dict.values]
  · simp [replay, Replay.step, Replay.book, genesisEvent, Replay.start]
  · intro p e h
    cases h
  · intro p h
    rfl

/-! ### Valuing a balanced replay -/

/-- A listed position is an open item: it carries the item's capital, texts and horizon. -/
structure Describes (item : Uuid × CanonicalPortfolioEvent)
    (position : CanonicalPaperPosition) : Prop where
  positionId : position.positionId = item.1
  capital : (position.capitalReservedUsd : ℚ) = item.2.capitalReservedUsd
  family : item.2.family = some position.family
  strategy : item.2.strategy = some position.strategy
  asset : item.2.asset = some position.asset
  venue : item.2.venue = some position.venue
  symbol : item.2.symbol = some position.symbol
  marketKind : item.2.marketKind = some position.marketKind
  exposureKind : item.2.exposureKind = some position.exposureKind
  due : item.2.dueAt = some position.dueAt
  familyText : position.family ≠ ""
  strategyText : position.strategy ≠ ""

/-- A truthy text is a non-empty one. -/
private theorem eq_some_of_truthy {text : Option String} (h : truthy text = true) :
    text = some (text.getD "") ∧ text.getD "" ≠ "" := by
  cases text with
  | none => cases h
  | some s => exact ⟨rfl, by simpa [truthy] using h⟩

/-- A listed item yields a position that describes it. -/
theorem positionFrom_priced (r : Replay) (p : Uuid) {e : CanonicalPortfolioEvent}
    (htexts : e.hasTexts = true) (hpriced : e.Priced) (entry : Positive) {dueAt : Instant}
    (cost : ℚ≥0) (hdue : e.dueAt = some dueAt) :
    ∃ position, positionFrom p e ((r.latestMark.get? p).getD e) entry dueAt cost = .ok position
      ∧ Describes (p, e) position := by
  simp only [CanonicalPortfolioEvent.hasTexts, Bool.and_eq_true] at htexts
  obtain ⟨⟨⟨⟨⟨⟨⟨_, hfamily⟩, hstrategy⟩, hasset⟩, hvenue⟩, hsymbol⟩, hmarket⟩, hexposure⟩ := htexts
  have hcapital : positive "CanonicalPaperPosition" "capital_reserved_usd" e.capitalReservedUsd
      = .ok ⟨e.capitalReservedUsd, hpriced.capital⟩ := positive_of_lt hpriced.capital
  have hnotional : positive "CanonicalPaperPosition" "notional_usd" e.notionalUsd
      = .ok ⟨e.notionalUsd, hpriced.notional⟩ := positive_of_lt hpriced.notional
  refine ⟨_, by rw [positionFrom, hcapital, hnotional]; rfl, ?_⟩
  exact
    { positionId := rfl
      capital := rfl
      family := (eq_some_of_truthy hfamily).1
      strategy := (eq_some_of_truthy hstrategy).1
      asset := (eq_some_of_truthy hasset).1
      venue := (eq_some_of_truthy hvenue).1
      symbol := (eq_some_of_truthy hsymbol).1
      marketKind := (eq_some_of_truthy hmarket).1
      exposureKind := (eq_some_of_truthy hexposure).1
      due := hdue
      familyText := (eq_some_of_truthy hfamily).2
      strategyText := (eq_some_of_truthy hstrategy).2 }

/-- What the valuation loop has done with the items seen. -/
structure Valuation.Over (r : Replay) (seen : List (Uuid × CanonicalPortfolioEvent))
    (v : Valuation) : Prop where
  positions : List.Forall₂ Describes
    ((seen.filter (fun item => (r.closed.get? item.1).isNone)).filter
      (fun item => item.2.hasTexts)) v.positions
  mechanism : v.pnlMechanism.values.sum = r.pnlMechanism.values.sum + v.unrealized
  strategy : v.pnlStrategy.values.sum = r.pnlStrategy.values.sum + v.unrealized

/-- One iteration of the valuation loop raises nothing, and lists the item if it is open and has
    its texts. A position that was closed, or that lacks one of its texts, is passed over; the
    texts are what the source tests, while the figures are always there. -/
theorem Replay.Balanced.value_step {r : Replay} (h : r.Balanced)
    {seen : List (Uuid × CanonicalPortfolioEvent)} {v : Valuation} (hv : v.Over r seen)
    {item : Uuid × CanonicalPortfolioEvent} (hitem : item ∈ r.opened.items) :
    ∃ v', r.value v item = .ok v' ∧ v'.Over r (seen ++ [item]) := by
  obtain ⟨p, e⟩ := item
  have hpriced : e.Priced := h.priced p e ((Dict.mem_items_iff r.opened).mp hitem)
  cases hclosed : r.closed.get? p with
  -- closed before
  | some c =>
    refine ⟨v, by simp [Replay.value, hclosed], ?_, hv.mechanism, hv.strategy⟩
    rw [List.filter_append, List.filter_append]
    simpa [hclosed] using hv.positions
  | none =>
    -- open, but without the texts of a listed position
    cases htexts : e.hasTexts with
    | false =>
      refine ⟨v, by simp [Replay.value, htexts], ?_, hv.mechanism, hv.strategy⟩
      rw [List.filter_append, List.filter_append]
      simpa [hclosed, htexts] using hv.positions
    -- listed with its figures, and counted in both sums
    | true =>
      obtain ⟨entry, hentry⟩ := Option.isSome_iff_exists.mp hpriced.entry
      obtain ⟨dueAt, hdue⟩ := Option.isSome_iff_exists.mp hpriced.due
      obtain ⟨cost, hcost⟩ := Option.isSome_iff_exists.mp hpriced.cost
      obtain ⟨position, hposition, hdescribes⟩ :=
        positionFrom_priced r p htexts hpriced entry cost hdue
      refine ⟨_, by
        simp only [Replay.value, hclosed, htexts, hentry, hdue, hcost, hposition]
        rfl, ?_, ?_, ?_⟩
      · rw [List.filter_append, List.filter_append]
        refine List.rel_append hv.positions ?_
        simpa [hclosed, htexts] using hdescribes
      · rw [Dict.sum_values_add, hv.mechanism]
        ring
      · rw [Dict.sum_values_add, hv.strategy]
        ring

/-- **Valuation.** A balanced replay is valued without raising: its listed items become
    the positions, and both breakdowns add up to realized plus unrealized profit. -/
theorem Replay.Balanced.valuation {r : Replay} (h : r.Balanced) :
    ∃ v, r.valuation = .ok v ∧ List.Forall₂ Describes r.listedItems v.positions
      ∧ v.pnlMechanism.values.sum = r.realized + v.unrealized
      ∧ v.pnlStrategy.values.sum = r.realized + v.unrealized := by
  have hstart : Valuation.Over r [] ⟨[], 0, r.pnlMechanism, r.pnlStrategy⟩ :=
    ⟨List.Forall₂.nil, by simp, by simp⟩
  have hstep : ∀ seen v item, item ∈ r.opened.items → Valuation.Over r seen v →
      ∃ v', r.value v item = .ok v' ∧ Valuation.Over r (seen ++ [item]) v' :=
    fun _ _ _ hitem hover => h.value_step hover hitem
  obtain ⟨v, hv, hover⟩ := foldlM_total hstep hstart
  refine ⟨v, hv, hover.positions, ?_, ?_⟩
  · rw [hover.mechanism, h.mechanism]
  · rw [hover.strategy, h.strategy]

/-! ### The accounting identity -/

/-- The identities between the figures of an account snapshot. -/
structure AccountingIdentity (state : CanonicalPaperPortfolioSnapshot) : Prop where
  cash : state.cashUsd
    = canonicalInitialCapitalUsd + state.realizedPnlUsd - state.reservedCapitalUsd
  nav : state.navUsd
    = canonicalInitialCapitalUsd + state.realizedPnlUsd + state.unrealizedPnlUsd
  mechanism : (state.pnlByMechanismUsd.map Prod.snd).sum
    = state.navUsd - canonicalInitialCapitalUsd
  strategy : (state.pnlByStrategyUsd.map Prod.snd).sum
    = state.navUsd - canonicalInitialCapitalUsd

/-- Describing positions reserve the capital of the items they describe. -/
theorem reservedCapital_eq {items : List (Uuid × CanonicalPortfolioEvent)}
    {positions : List CanonicalPaperPosition} (h : List.Forall₂ Describes items positions) :
    reservedCapital positions = (items.map (fun item => item.2.capitalReservedUsd)).sum := by
  induction h with
  | nil => rfl
  | cons hd _ ih =>
    simp only [reservedCapital, List.map_cons, List.sum_cons] at ih ⊢
    rw [ih, hd.capital]

/-- Describing positions have the ids of the items they describe, in the same order. -/
theorem positionIds_eq {items : List (Uuid × CanonicalPortfolioEvent)}
    {positions : List CanonicalPaperPosition} (h : List.Forall₂ Describes items positions) :
    positions.map (fun position => position.positionId) = items.map Prod.fst := by
  induction h with
  | nil => rfl
  | cons hd _ ih => rw [List.map_cons, List.map_cons, hd.positionId, ih]

/-- A position of a describing list describes some item. -/
theorem exists_describes {items : List (Uuid × CanonicalPortfolioEvent)}
    {positions : List CanonicalPaperPosition} (h : List.Forall₂ Describes items positions)
    {position : CanonicalPaperPosition} (hmem : position ∈ positions) :
    ∃ item ∈ items, Describes item position := by
  induction h with
  | nil => cases hmem
  | cons hd _ ih =>
    rcases List.mem_cons.mp hmem with rfl | hmem
    · exact ⟨_, List.mem_cons_self, hd⟩
    · obtain ⟨item, hitem, hdescribes⟩ := ih hmem
      exact ⟨item, List.mem_cons_of_mem _ hitem, hdescribes⟩

/-- Every item of a described list is described by some position. -/
theorem exists_described {items : List (Uuid × CanonicalPortfolioEvent)}
    {positions : List CanonicalPaperPosition} (h : List.Forall₂ Describes items positions)
    {item : Uuid × CanonicalPortfolioEvent} (hmem : item ∈ items) :
    ∃ position ∈ positions, Describes item position := by
  induction h with
  | nil => cases hmem
  | cons hd _ ih =>
    rcases List.mem_cons.mp hmem with rfl | hmem
    · exact ⟨_, List.mem_cons_self, hd⟩
    · obtain ⟨position, hposition, hdescribes⟩ := ih hmem
      exact ⟨position, List.mem_cons_of_mem _ hposition, hdescribes⟩

/-- Every position reserves a positive amount. -/
theorem reservedCapital_nonneg (positions : List CanonicalPaperPosition) :
    0 ≤ reservedCapital positions := by
  refine List.sum_nonneg (fun x hx => ?_)
  obtain ⟨p, -, rfl⟩ := List.mem_map.mp hx
  exact p.capitalReservedUsd.2.le

/-- What the figures of an account snapshot are. -/
theorem accountSnapshot_eq_ok {r : Replay} {v : Valuation}
    {snapshots : List CanonicalPaperPortfolioSnapshot} {observedAt : Instant}
    {state : CanonicalPaperPortfolioSnapshot}
    (h : accountSnapshot r v snapshots observedAt = .ok state) :
    state.observedAt = observedAt ∧ state.cashUsd = r.cash ∧ state.realizedPnlUsd = r.realized
      ∧ state.unrealizedPnlUsd = v.unrealized
      ∧ (state.reservedCapitalUsd : ℚ) = reservedCapital v.positions
      ∧ state.navUsd = r.cash + reservedCapital v.positions + v.unrealized
      ∧ state.positions = v.positions.insertionSort positionBefore
      ∧ state.openPositionCount = v.positions.length
      ∧ state.pnlByMechanismUsd.Perm v.pnlMechanism.items
      ∧ state.pnlByStrategyUsd.Perm v.pnlStrategy.items := by
  unfold accountSnapshot at h
  obtain ⟨reserved, hreserved, h⟩ := bind_eq_ok h
  obtain ⟨costs, -, h⟩ := bind_eq_ok h
  obtain ⟨drawdown, -, h⟩ := bind_eq_ok h
  obtain ⟨maxDrawdown, -, h⟩ := bind_eq_ok h
  injection h with h
  subst h
  exact ⟨rfl, rfl, rfl, rfl, nonNegative_eq_ok hreserved, rfl, rfl, rfl,
    List.perm_insertionSort _ _, List.perm_insertionSort _ _⟩

/-- An account snapshot passes its own validation once its costs do. -/
theorem accountSnapshot_total (r : Replay) (v : Valuation)
    (snapshots : List CanonicalPaperPortfolioSnapshot) (observedAt : Instant)
    (hcosts : 0 ≤ r.costs) : ∃ state, accountSnapshot r v snapshots observedAt = .ok state := by
  have hdrawdown : ∀ peak nav : ℚ, 0 ≤ if 0 < peak then max 0 ((peak - nav) / peak) else 0 := by
    intro peak nav
    split
    · exact le_max_left _ _
    · exact le_refl _
  unfold accountSnapshot
  simp only [nonNegative_of_le (reservedCapital_nonneg v.positions), nonNegative_of_le hcosts,
    nonNegative_of_le (hdrawdown _ _), nonNegative_of_le (le_max_of_le_right (hdrawdown _ _))]
  exact ⟨_, rfl⟩

/-- **Account.** The state of a balanced log is computed without raising and lists exactly
    the open items that have their texts. -/
theorem Replay.Balanced.account {events : List CanonicalPortfolioEvent}
    (h : (replay events).Balanced) (snapshots : List CanonicalPaperPortfolioSnapshot)
    (observedAt : Instant) :
    ∃ state positions, accountState events snapshots observedAt = .ok state
      ∧ state.positions.Perm positions
      ∧ List.Forall₂ Describes (replay events).listedItems positions
      ∧ state.cashUsd = (replay events).cash ∧ state.realizedPnlUsd = (replay events).realized
      ∧ (state.reservedCapitalUsd : ℚ) = reservedCapital positions
      ∧ state.navUsd = state.cashUsd + state.reservedCapitalUsd + state.unrealizedPnlUsd
      ∧ (state.pnlByMechanismUsd.map Prod.snd).sum = state.realizedPnlUsd + state.unrealizedPnlUsd
      ∧ (state.pnlByStrategyUsd.map Prod.snd).sum
        = state.realizedPnlUsd + state.unrealizedPnlUsd := by
  obtain ⟨v, hv, hpositions, hmechanism, hstrategy⟩ := h.valuation
  obtain ⟨state, hstate⟩ := accountSnapshot_total (replay events) v snapshots observedAt h.costs
  obtain ⟨-, hcash, hrealized, hunrealized, hreserved, hnav, hlisted, -, hmech, hstrat⟩ :=
    accountSnapshot_eq_ok hstate
  refine ⟨state, v.positions, ?_, ?_, hpositions, hcash, hrealized, hreserved, ?_, ?_, ?_⟩
  · rw [accountState, hv]
    exact hstate
  · rw [hlisted]
    exact List.perm_insertionSort _ _
  · rw [hnav, hcash, hreserved, hunrealized]
  · rw [hrealized, hunrealized, ← hmechanism]
    exact (hmech.map Prod.snd).sum_eq
  · rw [hrealized, hunrealized, ← hstrategy]
    exact (hstrat.map Prod.snd).sum_eq

/-- **Identity.** When every opened event has its texts, the state of a balanced log
    satisfies the accounting identity and lists every open item. -/
theorem Replay.Balanced.identity {events : List CanonicalPortfolioEvent}
    (h : (replay events).Balanced)
    (htexts : ∀ p e, (replay events).opened.get? p = some e → e.hasTexts = true)
    (snapshots : List CanonicalPaperPortfolioSnapshot) (observedAt : Instant) :
    ∃ state, accountState events snapshots observedAt = .ok state ∧ AccountingIdentity state
      ∧ (state.positions.map (fun position => position.positionId)).Perm
        ((replay events).openItems.map Prod.fst) := by
  obtain ⟨state, positions, hstate, hperm, hdescribes, hcash, hrealized, hreserved, hnav, hmech,
    hstrat⟩ := h.account snapshots observedAt
  have hall : (replay events).listedItems = (replay events).openItems := by
    refine List.filter_eq_self.mpr (fun item hitem => ?_)
    exact htexts item.1 item.2 (Replay.mem_openItems.mp hitem).1
  rw [hall] at hdescribes
  have hcapital : (state.reservedCapitalUsd : ℚ) = (replay events).openCapital :=
    hreserved.trans (reservedCapital_eq hdescribes)
  have hids := positionIds_eq hdescribes
  have hvalue : state.navUsd
      = canonicalInitialCapitalUsd + state.realizedPnlUsd + state.unrealizedPnlUsd := by
    rw [hnav, hcapital, hcash, h.cash, hrealized]
    ring
  refine ⟨state, hstate, ⟨?_, hvalue, ?_, ?_⟩, hids ▸ hperm.map _⟩
  · rw [hcash, h.cash, hrealized, hcapital]
  · rw [hmech, hvalue]
    ring
  · rw [hstrat, hvalue]
    ring

end InefficiencyEngine.Portfolio
