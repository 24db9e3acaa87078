import InefficiencyEngine.Lib.Loop
import InefficiencyEngine.Lib.Selections
import InefficiencyEngine.Mechanism.BoundedReads
import InefficiencyEngine.Mechanism.Executable
import InefficiencyEngine.Mechanism.Sample
import Mathlib.Algebra.Order.BigOperators.Group.List

namespace InefficiencyEngine.Mechanism

open Portfolio

/-!
# The queue of a maker order

A maker order waits behind the visible queue.  A side is filled once the trades through its price
add up to the queue and the order (`isSome_filledAt_iff`), so a longer queue fills less, and a fill
needs a trade that the older model would have taken for one.  What is filled depends on the trades
as a set as long as all of the window are read; `storedOrderIrrelevant_iff` says when it does
although no more than five thousand of them are.
-/

/-! ### What fills a side -/

/-- The notional that traded through a price. -/
def tradedThrough (crosses : SourceEventObservation → Bool) (trades : List SourceEventObservation) :
    ℚ :=
  ((trades.filter crosses).map tradeNotional).sum

/-- A trade crossed, and the trades that did add up to the required notional. -/
def FillsSide (crosses : SourceEventObservation → Bool) (required : ℚ)
    (trades : List SourceEventObservation) : Prop :=
  (∃ trade ∈ trades, crosses trade = true) ∧ required ≤ tradedThrough crosses trades

section Side

variable {crosses p : SourceEventObservation → Bool} {required larger : ℚ}
  {trades seen : List SourceEventObservation} {trade : SourceEventObservation} {fill : SideFill}

theorem tradeNotional_nonneg (trade : SourceEventObservation) : 0 ≤ tradeNotional trade :=
  le_max_left _ _

theorem tradedThrough_concat :
    tradedThrough crosses (trades ++ [trade])
      = tradedThrough crosses trades + if crosses trade then tradeNotional trade else 0 := by
  by_cases h : crosses trade = true <;> simp [tradedThrough, h]

theorem tradedThrough_nonneg : 0 ≤ tradedThrough crosses trades := by
  refine List.sum_nonneg (fun notional hmem => ?_)
  obtain ⟨trade, -, rfl⟩ := List.mem_map.mp hmem
  exact tradeNotional_nonneg trade

/-- Of a part of the trades no more traded through a price. -/
theorem tradedThrough_le_of_sublist (h : seen.Sublist trades) :
    tradedThrough crosses seen ≤ tradedThrough crosses trades := by
  refine ((h.filter crosses).map tradeNotional).sum_le_sum (fun notional hmem => ?_)
  obtain ⟨trade, -, rfl⟩ := List.mem_map.mp hmem
  exact tradeNotional_nonneg trade

/-- What the trades seen so far did to a side. -/
structure SideFill.Follows (crosses : SourceEventObservation → Bool) (required : ℚ)
    (seen : List SourceEventObservation) (fill : SideFill) : Prop where
  through : fill.through = tradedThrough crosses seen
  filled : fill.filledAt.isSome = true ↔ FillsSide crosses required seen

/-- One more trade: one that crosses fills the side if it is filled or the notional is reached. -/
theorem SideFill.Follows.step (h : SideFill.Follows crosses required seen fill) :
    SideFill.Follows crosses required (seen ++ [trade]) (SideFill.step crosses required fill trade) := by
  by_cases hcrosses : crosses trade = true
  · have hthrough : tradedThrough crosses (seen ++ [trade])
        = tradedThrough crosses seen + tradeNotional trade := by
      rw [tradedThrough_concat, if_pos hcrosses]
    refine ⟨?_, ?_⟩
    · rw [SideFill.step, if_pos hcrosses, hthrough, ← h.through]
    · have hany : ∃ other ∈ seen ++ [trade], crosses other = true := ⟨trade, by simp, hcrosses⟩
      have hmore := tradeNotional_nonneg trade
      rw [FillsSide, and_iff_right hany, hthrough, SideFill.step, if_pos hcrosses, h.through]
      dsimp only
      by_cases hreached : required ≤ tradedThrough crosses seen + tradeNotional trade
      · cases hfilled : fill.filledAt <;> simp [hreached]
      · -- what is not reached now was not reached before
        have hnot : ¬ fill.filledAt.isSome = true := fun hsome =>
          hreached (by linarith [(h.filled.mp hsome).2])
        simp only [hreached, and_false, if_false, iff_false]
        exact hnot
  · have hstep : SideFill.step crosses required fill trade = fill := if_neg hcrosses
    have hthrough : tradedThrough crosses (seen ++ [trade]) = tradedThrough crosses seen := by
      rw [tradedThrough_concat, if_neg hcrosses, add_zero]
    refine ⟨by rw [hstep, hthrough, h.through], ?_⟩
    rw [hstep, h.filled, FillsSide, FillsSide, hthrough]
    simp [hcrosses]

/-- **A side is filled** exactly if a trade crossed and the required notional traded through. -/
theorem isSome_filledAt_iff :
    (sideFill crosses required trades).filledAt.isSome = true ↔ FillsSide crosses required trades := by
  refine (foldl_invariant (P := SideFill.Follows crosses required) ?_ trades ?_).filled
  · exact fun seen fill trade h => h.step
  · exact ⟨by simp [tradedThrough], by simp [FillsSide]⟩

/-- A side that more is required of is filled less. -/
theorem FillsSide.mono (h : FillsSide crosses larger trades) (hle : required ≤ larger) :
    FillsSide crosses required trades := ⟨h.1, hle.trans h.2⟩

/-- Trades that are left out beforehand do not cross. -/
theorem fillsSide_filter :
    FillsSide crosses required (trades.filter p)
      ↔ FillsSide (fun trade => p trade && crosses trade) required trades := by
  have hthrough : tradedThrough crosses (trades.filter p)
      = tradedThrough (fun trade => p trade && crosses trade) trades := by
    rw [tradedThrough, tradedThrough, List.filter_filter]
    simp only [Bool.and_comm]
  rw [FillsSide, FillsSide, hthrough]
  simp [and_assoc]

/-! A side that nothing is required of is filled by one trade; so a trade weighs `1` there, and its
notional elsewhere. -/

/-- What a trade counts for towards a fill. -/
def sideWeight (crosses : SourceEventObservation → Bool) (required : ℚ)
    (trade : SourceEventObservation) : ℚ :=
  if crosses trade then (if required = 0 then 1 else tradeNotional trade) else 0

/-- What the trades must count for to fill a side. -/
def sideThreshold (required : ℚ) : ℚ := if required = 0 then 1 else required

/-- A side is filled if its trades weigh enough. -/
theorem fillsSide_iff_weight (hrequired : 0 ≤ required) :
    FillsSide crosses required trades
      ↔ sideThreshold required ≤ (trades.map (sideWeight crosses required)).sum := by
  -- nothing is required: one crossing trade fills the side
  by_cases hzero : required = 0
  · subst hzero
    have hcount : (trades.map (sideWeight crosses 0)).sum = (trades.countP crosses : ℚ) := by
      induction trades with
      | nil => simp
      | cons trade rest ih =>
        rw [List.map_cons, List.sum_cons, ih, List.countP_cons]
        by_cases hcrosses : crosses trade = true <;> simp [sideWeight, hcrosses, add_comm]
    rw [FillsSide, and_iff_left tradedThrough_nonneg, hcount, sideThreshold, if_pos rfl,
      Nat.one_le_cast, Nat.one_le_iff_ne_zero, ← Nat.pos_iff_ne_zero, List.countP_pos_iff]
  -- otherwise the traded size has to reach what is required, which takes a trade
  · have hpos : 0 < required := lt_of_le_of_ne hrequired (Ne.symm hzero)
    have hsum : (trades.map (sideWeight crosses required)).sum = tradedThrough crosses trades := by
      induction trades with
      | nil => simp [tradedThrough]
      | cons trade rest ih =>
        rw [List.map_cons, List.sum_cons, ih, tradedThrough, tradedThrough]
        by_cases hcrosses : crosses trade = true <;> simp [sideWeight, hcrosses, hzero]
    rw [FillsSide, hsum, sideThreshold, if_neg hzero, and_iff_right_iff_imp]
    intro hreached
    by_contra hnone
    have hempty : trades.filter crosses = [] := by
      refine List.filter_eq_nil_iff.mpr (fun trade hmem hcrosses => hnone ⟨trade, hmem, hcrosses⟩)
    rw [tradedThrough, hempty, List.map_nil, List.sum_nil] at hreached
    exact absurd hreached (not_le.mpr hpos)

end Side

/-! ### The sides of a settlement -/

section Settled

variable (R : MechanismRuntime) (evidence : StoredEvidence) (trial : MechanismForwardTrial)
  (payload : MakerPayload) (queue : VisibleQueue)

/-- The sides a settlement reports as filled, the bid and the ask. -/
def filledSides : Option (Bool × Bool) :=
  if !payload.settleable then none
  else
    (makerExitQuote R evidence trial payload).map fun _ =>
      ((makerFills R evidence trial payload).1.1, (makerFills R evidence trial payload).2.1)

/-- The payload of a trial that waits in a queue. -/
def MakerPayload.queued : MakerPayload := { payload with queue := some queue }

/-- The payload of a trial of the older service. -/
def MakerPayload.legacy : MakerPayload := { payload with queue := none }

/-- All stored trades of the instrument between the source of a trial and its horizon. -/
def windowTrades : List SourceEventObservation :=
  evidence.events.filter (fun event => tradeKey trial event && isMakerTrade R trial payload event)

/-- The notional that must trade through the bid. -/
def VisibleQueue.bidRequired : ℚ := max 0 queue.bidQueueAheadUsd + max 0 queue.orderNotionalUsd

/-- The notional that must trade through the ask. -/
def VisibleQueue.askRequired : ℚ := max 0 queue.askQueueAheadUsd + max 0 queue.orderNotionalUsd

/-- A queue that is nowhere shorter, before an order that is not smaller. -/
structure VisibleQueue.Within (larger : VisibleQueue) : Prop where
  bid : queue.bidQueueAheadUsd ≤ larger.bidQueueAheadUsd
  ask : queue.askQueueAheadUsd ≤ larger.askQueueAheadUsd
  order : queue.orderNotionalUsd ≤ larger.orderNotionalUsd

/-- **The maker queue model is conservative**: a fill needs the queue and the order to trade through,
    a longer queue fills no more sides, a filled side is filled for the older model (in either of its
    two forms), the net return is at most the gross return less the fee, and the order in which the
    events are stored does not matter. -/
structure QueueLaws : Prop where
  bidThrough : ∀ sides ∈ filledSides R evidence trial (payload.queued queue), sides.1 = true →
    queue.bidQueueAheadUsd + queue.orderNotionalUsd
      ≤ tradedThrough (crossesBid R payload.bid) (windowTrades R evidence trial payload)
  askThrough : ∀ sides ∈ filledSides R evidence trial (payload.queued queue), sides.2 = true →
    queue.askQueueAheadUsd + queue.orderNotionalUsd
      ≤ tradedThrough (crossesAsk R payload.ask) (windowTrades R evidence trial payload)
  shrinks : ∀ larger, queue.Within larger →
    ∀ sides ∈ filledSides R evidence trial (payload.queued larger),
      ∃ more ∈ filledSides R evidence trial (payload.queued queue),
        (sides.1 = true → more.1 = true) ∧ (sides.2 = true → more.2 = true)
  touch : ∀ sides ∈ filledSides R evidence trial (payload.queued queue),
    ∃ touched ∈ filledSides R evidence trial payload.legacy,
      (sides.1 = true → touched.1 = true) ∧ (sides.2 = true → touched.2 = true)
  legacyBid : ∀ sides ∈ filledSides R evidence trial (payload.queued queue), sides.1 = true →
    ∀ filled, (makerTrades R evidence trial payload).anyM (fillsBid R payload.bid) = .ok filled →
      filled = true
  legacyAsk : ∀ sides ∈ filledSides R evidence trial (payload.queued queue), sides.2 = true →
    ∀ filled, (makerTrades R evidence trial payload).anyM (fillsAsk R payload.ask) = .ok filled →
      filled = true
  net : ∀ result ∈ settleMakerQueued R evidence trial (payload.queued queue),
    ∃ sides ∈ filledSides R evidence trial (payload.queued queue),
      if sides.1 || sides.2
      then result.netReturn ≤ result.grossReturn - R.alphaResearchCostFloorBps / 10000
      else result.netReturn = 0
  order : ∀ events, events.Perm evidence.events →
    filledSides R { evidence with events := events } trial (payload.queued queue)
      = filledSides R evidence trial (payload.queued queue)

/-- What a public trade of the window counts for towards the bid. -/
def bidWeight : SourceEventObservation → ℚ :=
  sideWeight (fun event => isMakerTrade R trial payload event && crossesBid R payload.bid event)
    queue.bidRequired

/-- What a public trade of the window counts for towards the ask. -/
def askWeight : SourceEventObservation → ℚ :=
  sideWeight (fun event => isMakerTrade R trial payload event && crossesAsk R payload.ask event)
    queue.askRequired

/-- If the trial settles, then of the public trades of the window the five thousand that count least
    towards a side fill it whenever the five thousand that count most do. -/
structure StoredOrderIrrelevant : Prop where
  bid : payload.settleable = true → (makerExitQuote R evidence trial payload).isSome = true →
    sideThreshold queue.bidRequired
        ≤ mostSum 5000 (bidWeight R trial payload queue) (evidence.events.filter (tradeKey trial)) →
      sideThreshold queue.bidRequired
        ≤ leastSum 5000 (bidWeight R trial payload queue) (evidence.events.filter (tradeKey trial))
  ask : payload.settleable = true → (makerExitQuote R evidence trial payload).isSome = true →
    sideThreshold queue.askRequired
        ≤ mostSum 5000 (askWeight R trial payload queue) (evidence.events.filter (tradeKey trial)) →
      sideThreshold queue.askRequired
        ≤ leastSum 5000 (askWeight R trial payload queue) (evidence.events.filter (tradeKey trial))

/-! ### What is filled -/

/-- The sides that the trades read for a trial fill. -/
def queuedSides : Bool × Bool :=
  ((sideFill (crossesBid R payload.bid) queue.bidRequired
      (makerTrades R evidence trial payload)).filledAt.isSome,
    (sideFill (crossesAsk R payload.ask) queue.askRequired
      (makerTrades R evidence trial payload)).filledAt.isSome)

variable {R evidence trial payload queue}

@[simp] theorem settleable_queued : (payload.queued queue).settleable = payload.settleable := rfl

@[simp] theorem settleable_legacy : payload.legacy.settleable = payload.settleable := rfl

theorem mem_filledSides_queued {sides : Bool × Bool} :
    sides ∈ filledSides R evidence trial (payload.queued queue)
      ↔ payload.settleable = true ∧ (makerExitQuote R evidence trial payload).isSome = true
        ∧ queuedSides R evidence trial payload queue = sides := by
  show (if !payload.settleable then none
    else (makerExitQuote R evidence trial payload).map fun _ =>
      queuedSides R evidence trial payload queue) = some sides ↔ _
  by_cases hsettleable : payload.settleable = true
  · cases makerExitQuote R evidence trial payload <;> simp [hsettleable]
  · simp [hsettleable]

theorem queuedSides_fst :
    (queuedSides R evidence trial payload queue).1 = true
      ↔ FillsSide (crossesBid R payload.bid) queue.bidRequired
        (makerTrades R evidence trial payload) :=
  isSome_filledAt_iff

theorem queuedSides_snd :
    (queuedSides R evidence trial payload queue).2 = true
      ↔ FillsSide (crossesAsk R payload.ask) queue.askRequired
        (makerTrades R evidence trial payload) :=
  isSome_filledAt_iff

theorem VisibleQueue.bidRequired_nonneg : 0 ≤ queue.bidRequired :=
  add_nonneg (le_max_left _ _) (le_max_left _ _)

theorem VisibleQueue.askRequired_nonneg : 0 ≤ queue.askRequired :=
  add_nonneg (le_max_left _ _) (le_max_left _ _)

/-- The trades read for a trial are some of those stored. -/
theorem makerTrades_sublist :
    (makerTrades R evidence trial payload).Sublist (windowTrades R evidence trial payload) := by
  have hwindow : windowTrades R evidence trial payload
      = (evidence.events.filter (tradeKey trial)).filter (isMakerTrade R trial payload) := by
    rw [List.filter_filter, windowTrades]
    simp only [Bool.and_comm]
  rw [hwindow]
  exact (List.take_sublist _ _).filter _

/-- A trade that crosses the bid fills it for the older service, if that reads all numbers. -/
theorem fillsBid_of_crossesBid {event : SourceEventObservation}
    (h : crossesBid R payload.bid event = true) : fillsBid R payload.bid event = .ok true := by
  unfold crossesBid at h
  simp only [Bool.and_eq_true, decide_eq_true_eq] at h
  obtain ⟨⟨hside, hpos⟩, hle⟩ := h
  unfold fillsBid
  rw [if_neg (not_not.mpr hside)]
  cases hprice : event.payload.price with
  | absent => simp [hprice, PayloadNumber.getD] at hpos
  | unreadable => simp [hprice, PayloadNumber.getD] at hpos
  | value q =>
    rw [hprice] at hpos hle
    have hq : 0 < q := hpos
    have hbid : q ≤ payload.bid := hle
    simp [hq.ne', hbid]

/-- A trade that crosses a positive ask fills it for the older service. -/
theorem fillsAsk_of_crossesAsk {event : SourceEventObservation} (hask : 0 < payload.ask)
    (h : crossesAsk R payload.ask event = true) : fillsAsk R payload.ask event = .ok true := by
  unfold crossesAsk at h
  simp only [Bool.and_eq_true, decide_eq_true_eq] at h
  obtain ⟨hside, hle⟩ := h
  unfold fillsAsk
  rw [if_neg (not_not.mpr hside)]
  cases hprice : event.payload.price with
  | absent =>
    rw [hprice] at hle
    exact absurd hle (not_le.mpr hask)
  | unreadable =>
    rw [hprice] at hle
    exact absurd hle (not_le.mpr hask)
  | value q =>
    rw [hprice] at hle
    have hq : payload.ask ≤ q := hle
    simp [PayloadNumber.float?, hq]

/-- A search that returns has found an element on which the test is true. -/
theorem anyM_eq_ok {α : Type} {test : α → Except Raised Bool} {xs : List α} {found : Bool} {x : α}
    (hx : x ∈ xs) (htest : test x = .ok true) (h : xs.anyM test = .ok found) : found = true := by
  induction xs with
  | nil => simp at hx
  | cons y rest ih =>
    rw [List.anyM_cons] at h
    obtain ⟨b, hb, hrest⟩ := bind_eq_ok h
    cases b with
    | true => exact (Except.ok.inj hrest).symm
    | false =>
      rcases List.mem_cons.mp hx with rfl | hx
      · rw [htest] at hb
        exact absurd (Except.ok.inj hb) (by simp)
      · exact ih hx hrest

/-- The penalty of a side is not a gain. -/
theorem adversePenalty_nonneg (fill : Bool × Option Instant) (fillPrice direction : ℚ) :
    0 ≤ adversePenalty R evidence trial payload fill fillPrice direction := by
  unfold adversePenalty
  split
  · split
    · exact mul_nonneg (le_max_left _ _) (by norm_num)
    · exact le_refl 0
  · exact le_refl 0

/-- What a settlement of the queue model nets. -/
theorem netReturn_of_settleMakerQueued {result : MechanismSettlementResult}
    (h : settleMakerQueued R evidence trial (payload.queued queue) = some result) :
    payload.settleable = true ∧ ∃ exitQuote,
      makerExitQuote R evidence trial payload = some exitQuote
        ∧ if (queuedSides R evidence trial payload queue).1
            || (queuedSides R evidence trial payload queue).2
          then result.netReturn ≤ result.grossReturn - R.alphaResearchCostFloorBps / 10000
          else result.netReturn = 0 := by
  unfold settleMakerQueued at h
  split at h
  · cases h
  · rename_i hsettleable
    obtain ⟨exitQuote, hexit, rfl⟩ := Option.map_eq_some_iff.mp h
    refine ⟨by simpa using hsettleable, exitQuote, hexit, ?_⟩
    have hfills : ((makerFills R evidence trial (payload.queued queue)).1.1,
        (makerFills R evidence trial (payload.queued queue)).2.1)
        = queuedSides R evidence trial payload queue := rfl
    rw [← hfills]
    dsimp only
    split
    · have hbid := @adversePenalty_nonneg R evidence trial (payload.queued queue)
      linarith [hbid (makerFills R evidence trial (payload.queued queue)).1
        (payload.queued queue).bid 1, hbid (makerFills R evidence trial (payload.queued queue)).2
        (payload.queued queue).ask (-1)]
    · rfl

/-! ### The order of the events -/

/-- The bid of a trial is filled if the trades read weigh enough. -/
theorem queuedSides_fst_iff_weight :
    (queuedSides R evidence trial payload queue).1 = true
      ↔ sideThreshold queue.bidRequired
        ≤ (((evidence.events.filter (tradeKey trial)).take 5000).map
            (bidWeight R trial payload queue)).sum := by
  rw [queuedSides_fst]
  exact fillsSide_filter.trans (fillsSide_iff_weight VisibleQueue.bidRequired_nonneg)

/-- The ask of a trial is filled if the trades read weigh enough. -/
theorem queuedSides_snd_iff_weight :
    (queuedSides R evidence trial payload queue).2 = true
      ↔ sideThreshold queue.askRequired
        ≤ (((evidence.events.filter (tradeKey trial)).take 5000).map
            (askWeight R trial payload queue)).sum := by
  rw [queuedSides_snd]
  exact fillsSide_filter.trans (fillsSide_iff_weight VisibleQueue.askRequired_nonneg)

/-- The sides of a trial that settles are the same for every order of the events exactly if each
    side's verdict is. -/
theorem filledSides_perm_iff
    (hsettles : payload.settleable = true ∧ (makerExitQuote R evidence trial payload).isSome = true) :
    (∀ events, events.Perm evidence.events →
        filledSides R { evidence with events := events } trial (payload.queued queue)
          = filledSides R evidence trial (payload.queued queue))
      ↔ ∀ events, events.Perm evidence.events →
        ((queuedSides R { evidence with events := events } trial payload queue).1 = true
          ↔ (queuedSides R evidence trial payload queue).1 = true)
        ∧ ((queuedSides R { evidence with events := events } trial payload queue).2 = true
          ↔ (queuedSides R evidence trial payload queue).2 = true) := by
  refine forall₂_congr (fun events _ => ?_)
  have hhere : filledSides R evidence trial (payload.queued queue)
      = some (queuedSides R evidence trial payload queue) :=
    mem_filledSides_queued.mpr ⟨hsettles.1, hsettles.2, rfl⟩
  have hthere : filledSides R { evidence with events := events } trial (payload.queued queue)
      = some (queuedSides R { evidence with events := events } trial payload queue) :=
    mem_filledSides_queued.mpr ⟨hsettles.1, hsettles.2, rfl⟩
  rw [hhere, hthere, Option.some.injEq, Prod.ext_iff]
  exact and_congr Bool.eq_iff_iff Bool.eq_iff_iff

/-- **The order of the events.** It does not matter exactly if the trades that count least fill what
    the trades that count most do. -/
theorem storedOrderIrrelevant_iff :
    (∀ events, events.Perm evidence.events →
        filledSides R { evidence with events := events } trial (payload.queued queue)
          = filledSides R evidence trial (payload.queued queue))
      ↔ StoredOrderIrrelevant R evidence trial payload queue := by
  by_cases hsettles : payload.settleable = true
      ∧ (makerExitQuote R evidence trial payload).isSome = true
  · rw [filledSides_perm_iff hsettles]
    simp only [queuedSides_fst_iff_weight, queuedSides_snd_iff_weight, forall_and]
    rw [filter_reaches_iff, filter_reaches_iff]
    exact ⟨fun h => ⟨fun _ _ => h.1, fun _ _ => h.2⟩,
      fun h => ⟨h.bid hsettles.1 hsettles.2, h.ask hsettles.1 hsettles.2⟩⟩
  · -- a trial that does not settle fills nothing, whatever is stored
    have hnone : ∀ events : List SourceEventObservation,
        filledSides R { evidence with events := events } trial (payload.queued queue) = none := by
      intro events
      refine Option.eq_none_iff_forall_not_mem.mpr (fun sides hsides => hsettles ?_)
      obtain ⟨hsettleable, hexit, -⟩ := mem_filledSides_queued.mp hsides
      exact ⟨hsettleable, hexit⟩
    refine ⟨fun _ => ⟨fun h₁ h₂ => absurd ⟨h₁, h₂⟩ hsettles, fun h₁ h₂ => absurd ⟨h₁, h₂⟩ hsettles⟩,
      fun _ events _ => ?_⟩
    exact (hnone events).trans (hnone evidence.events).symm

/-- A window that is read to its end is read in no order. -/
theorem storedOrderIrrelevant_of_length_le
    (h : (evidence.events.filter (tradeKey trial)).length ≤ 5000) :
    StoredOrderIrrelevant R evidence trial payload queue := by
  refine ⟨fun _ _ hmost => ?_, fun _ _ hmost => ?_⟩
  · rwa [mostSum_eq_leastSum h] at hmost
  · rwa [mostSum_eq_leastSum h] at hmost

/-! ### Together -/

variable (R evidence trial payload queue)

/-- **The maker queue model is conservative** exactly if the order of the stored events does not
    matter. Seven of the laws hold of any order of the events, as the traded amounts are sums
    over them; only the choice of the exit quote may depend on the order. -/
theorem queueLaws_iff :
    QueueLaws R evidence trial payload queue ↔ StoredOrderIrrelevant R evidence trial payload queue := by
  refine ⟨fun h => storedOrderIrrelevant_iff.mp h.order, fun horder => ?_⟩
  refine
    { bidThrough := ?_, askThrough := ?_, shrinks := ?_, touch := ?_, legacyBid := ?_,
      legacyAsk := ?_, net := ?_, order := storedOrderIrrelevant_iff.mpr horder }
  -- a filled side needs the queue ahead and the order to be traded through
  · intro sides hsides hbid
    obtain ⟨-, -, rfl⟩ := mem_filledSides_queued.mp hsides
    calc queue.bidQueueAheadUsd + queue.orderNotionalUsd
        ≤ queue.bidRequired := add_le_add (le_max_right _ _) (le_max_right _ _)
      _ ≤ tradedThrough (crossesBid R payload.bid) (makerTrades R evidence trial payload) :=
          (queuedSides_fst.mp hbid).2
      _ ≤ _ := tradedThrough_le_of_sublist makerTrades_sublist
  · intro sides hsides hask
    obtain ⟨-, -, rfl⟩ := mem_filledSides_queued.mp hsides
    calc queue.askQueueAheadUsd + queue.orderNotionalUsd
        ≤ queue.askRequired := add_le_add (le_max_right _ _) (le_max_right _ _)
      _ ≤ tradedThrough (crossesAsk R payload.ask) (makerTrades R evidence trial payload) :=
          (queuedSides_snd.mp hask).2
      _ ≤ _ := tradedThrough_le_of_sublist makerTrades_sublist
  -- a longer queue or a larger order asks for more to be traded through
  · intro larger hlarger sides hsides
    obtain ⟨hsettleable, hexit, rfl⟩ := mem_filledSides_queued.mp hsides
    refine ⟨_, mem_filledSides_queued.mpr ⟨hsettleable, hexit, rfl⟩, fun hbid => ?_, fun hask => ?_⟩
    · refine queuedSides_fst.mpr ((queuedSides_fst.mp hbid).mono ?_)
      exact add_le_add (max_le_max_left 0 hlarger.bid) (max_le_max_left 0 hlarger.order)
    · refine queuedSides_snd.mpr ((queuedSides_snd.mp hask).mono ?_)
      exact add_le_add (max_le_max_left 0 hlarger.ask) (max_le_max_left 0 hlarger.order)
  -- a fill behind a queue is a fill at the touch, which the payload without a queue asks for
  · intro sides hsides
    obtain ⟨hsettleable, hexit, rfl⟩ := mem_filledSides_queued.mp hsides
    obtain ⟨exitQuote, hquote⟩ := Option.isSome_iff_exists.mp hexit
    refine ⟨((makerTrades R evidence trial payload).any (crossesBid R payload.bid),
      (makerTrades R evidence trial payload).any (crossesAsk R payload.ask)), ?_,
      fun hbid => ?_, fun hask => ?_⟩
    · have hlegacy : filledSides R evidence trial payload.legacy
          = (makerExitQuote R evidence trial payload).map fun _ =>
            ((makerTrades R evidence trial payload).any (crossesBid R payload.bid),
              (makerTrades R evidence trial payload).any (crossesAsk R payload.ask)) :=
        if_neg (by simpa using hsettleable)
      rw [hlegacy, hquote]
      rfl
    · exact List.any_eq_true.mpr (queuedSides_fst.mp hbid).1
    · exact List.any_eq_true.mpr (queuedSides_snd.mp hask).1
  -- and so it is a fill of the checks before the queue was modelled
  · intro sides hsides hbid filled hlegacy
    obtain ⟨-, -, rfl⟩ := mem_filledSides_queued.mp hsides
    obtain ⟨trade, hmem, hcrosses⟩ := (queuedSides_fst.mp hbid).1
    exact anyM_eq_ok hmem (fillsBid_of_crossesBid hcrosses) hlegacy
  · intro sides hsides hask filled hlegacy
    obtain ⟨hsettleable, -, rfl⟩ := mem_filledSides_queued.mp hsides
    obtain ⟨trade, hmem, hcrosses⟩ := (queuedSides_snd.mp hask).1
    simp only [MakerPayload.settleable, Bool.and_eq_true, decide_eq_true_eq] at hsettleable
    have hask : 0 < payload.ask := hsettleable.1.1.2.trans hsettleable.1.2
    exact anyM_eq_ok hmem (fillsAsk_of_crossesAsk hask hcrosses) hlegacy
  · intro result hresult
    obtain ⟨hsettleable, exitQuote, hexit, hnet⟩ := netReturn_of_settleMakerQueued hresult
    exact ⟨_, mem_filledSides_queued.mpr ⟨hsettleable, by rw [hexit]; rfl, rfl⟩, hnet⟩

end Settled

/-! ### A window of too many trades -/

/-- A maker order on both sides of a spot market. -/
def restingOrder : MakerPayload where
  venue := "kraken"
  asset := "BTC"
  symbol := "BTC-USD"
  marketKind := .spot
  bid := 99
  ask := 101
  mid := 100
  quantity := 1
  estimatedFillProbability := 1 / 2
  queue := none

/-- A hundred dollars wait before an order of fifty. -/
def shortQueue : VisibleQueue := ⟨100, 100, 50⟩

/-- A trial of the order over one second. -/
def restingTrial : MechanismForwardTrial where
  trialId := 0
  cohortKey := ""
  asset := "BTC"
  venues := ["kraken"]
  sourceObservedAt := 0
  dueAt := 1000000
  capitalUsd := 100
  predictedNetReturn := 1 / 100
  predictedProfitUsd := 1
  settlementPayload := .maker (restingOrder.queued shortQueue)
  conflictKeys := []

/-- A sale of two units of an asset at the bid. -/
def saleOf (asset : String) : SourceEventObservation where
  eventId := asset
  laneId := "liquidity_provision"
  eventType := "public_trade"
  eventAt := 0
  observedAt := 0
  asset := some asset
  payload := ⟨"kraken", asset ++ "-USD", "sell", "", .value 99, .value 2, .absent⟩

/-- The events of a window, with a quote at the horizon. -/
def restingEvidence (events : List SourceEventObservation) : StoredEvidence :=
  { StoredEvidence.empty with
    events := events
    marketQuotes := [spotQuote 100 1000000] }

/-- Five thousand sales of another asset. -/
def otherSales : List SourceEventObservation := List.replicate 5000 (saleOf "ETH")

/-- A sale that is stored behind five thousand others is not read; stored first it fills the bid. -/
theorem not_queueLaws_crowdedWindow :
    ¬ QueueLaws .sample (restingEvidence (otherSales ++ [saleOf "BTC"])) restingTrial restingOrder
      shortQueue := by
  intro h
  -- the two histories hold the same trades in another order
  have hperm : (saleOf "BTC" :: otherSales).Perm (otherSales ++ [saleOf "BTC"]) :=
    (List.perm_append_singleton _ _).symm
  -- behind the five thousand others the sale is outside the limit
  have hlast : makerTrades .sample (restingEvidence (otherSales ++ [saleOf "BTC"])) restingTrial
      restingOrder = [] :=
    bounded_replicate_append (by decide) (by decide)
  -- stored first it is inside
  have hfirst : makerTrades .sample (restingEvidence (saleOf "BTC" :: otherSales)) restingTrial
      restingOrder = [saleOf "BTC"] :=
    @bounded_cons_replicate _ (tradeKey restingTrial)
      (isMakerTrade .sample restingTrial restingOrder) 4999 (saleOf "ETH") (saleOf "BTC") (by decide)
      (by decide) (by decide) 5000 (by decide)
  have hunfilled : filledSides .sample (restingEvidence (otherSales ++ [saleOf "BTC"])) restingTrial
      (restingOrder.queued shortQueue) = some (false, false) := by
    refine mem_filledSides_queued.mpr ⟨by decide, by decide, ?_⟩
    rw [queuedSides, hlast]
    rfl
  have hfilled : filledSides .sample (restingEvidence (saleOf "BTC" :: otherSales)) restingTrial
      (restingOrder.queued shortQueue) = some (true, false) := by
    refine mem_filledSides_queued.mpr ⟨by decide, by decide, ?_⟩
    rw [queuedSides, hfirst]
    decide +kernel
  have horder := h.order _ hperm
  rw [hunfilled] at horder
  exact absurd (hfilled.symm.trans horder) (by decide)

end InefficiencyEngine.Mechanism
