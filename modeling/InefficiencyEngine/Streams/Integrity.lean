import InefficiencyEngine.Lib.Loop
import InefficiencyEngine.Lib.SkippedNumbers
import InefficiencyEngine.Streams.TradeFlow
import Mathlib.Algebra.BigOperators.Group.Finset.Piecewise
import Mathlib.Algebra.Order.BigOperators.Group.Finset

namespace InefficiencyEngine.Streams

open Portfolio
open scoped BigOperators

/-!
# What the integrity of a stream counts

One pass over the rows keeps, for each symbol, the latest event time and the greatest sequence
number, and the ids seen so far.  Each of its three counts is read off the list as a whole:

* the duplicates are the rows beyond the distinct ids (`IdsCounted.step`);
* an event time goes back exactly if the times of some symbol are out of order
  (`TimesFollowed.step`);
* the gaps are the numbers each symbol jumped over (`NumbersFollowed.step`).

The ids are compared without their symbols, and a number stays jumped over when it comes late; so
the counts of a set of trades known afterwards are other ones (`not_streamCountsExact`).
-/

/-- The event times of a symbol, in the order they came. -/
def timesOf (symbol : String) (events : List TradeEvent) : List Instant :=
  (events.filter (fun row => row.symbol = symbol)).map TradeEvent.eventAt

/-- The sequence numbers of a symbol, in the order they came. -/
def numbersOf (symbol : String) (events : List TradeEvent) : List ℤ :=
  (events.filter (fun row => row.symbol = symbol)).filterMap TradeEvent.sequence

/-- The symbols of a stream. -/
def symbolsOf (events : List TradeEvent) : Finset String :=
  (events.map TradeEvent.symbol).toFinset

/-- The symbols and exchange ids of a stream. -/
def tradesOf (events : List TradeEvent) : Finset (String × String) :=
  (events.map (fun row => (row.symbol, row.exchangeEventId))).toFinset

/-- The counts a reader of the whole stream would make: the trades beyond the distinct ones of each
    symbol, and the numbers that lie between the smallest and the greatest of a symbol and never
    came. -/
structure StreamCountsExact (events : List TradeEvent) : Prop where
  duplicates : ((integritySummary events).duplicateEventCount : ℤ)
    = events.length - (tradesOf events).card
  gaps : (integritySummary events).sequenceGapCount
    = ∑ symbol ∈ symbolsOf events, ({v | NeverReceived (numbersOf symbol events) v}.ncard : ℤ)
  regressions : (integritySummary events).eventTimeRegressionCount = 0
    ↔ ∀ symbol, (timesOf symbol events).Pairwise (· ≤ ·)
  degraded : (integritySummary events).integrityDegraded = true
    ↔ 0 < (integritySummary events).duplicateEventCount
      ∨ 0 < (integritySummary events).eventTimeRegressionCount
      ∨ 0 < (integritySummary events).sequenceGapCount

/-- The counts one pass makes.  Where no id is shared by two symbols the duplicates are those of the
    whole stream.  The gaps are the numbers a symbol jumped over; against those that never came they
    leave out what lies below a symbol's first number, and they keep what came late. -/
structure StreamCounts (events : List TradeEvent) : Prop where
  duplicates : (∀ a ∈ events, ∀ b ∈ events, a.exchangeEventId = b.exchangeEventId →
      a.symbol = b.symbol) →
    ((integritySummary events).duplicateEventCount : ℤ) = events.length - (tradesOf events).card
  gaps : (integritySummary events).sequenceGapCount
    = ∑ symbol ∈ symbolsOf events, ({v | PassedOver (numbersOf symbol events) v}.ncard : ℤ)
  neverReceived : (integritySummary events).sequenceGapCount
      + ∑ symbol ∈ symbolsOf events, ({v | BelowFirst (numbersOf symbol events) v}.ncard : ℤ)
    = ∑ symbol ∈ symbolsOf events, ({v | NeverReceived (numbersOf symbol events) v}.ncard : ℤ)
      + ∑ symbol ∈ symbolsOf events, ({v | Late (numbersOf symbol events) v}.ncard : ℤ)
  regressions : (integritySummary events).eventTimeRegressionCount = 0
    ↔ ∀ symbol, (timesOf symbol events).Pairwise (· ≤ ·)
  degraded : (integritySummary events).integrityDegraded = true
    ↔ 0 < (integritySummary events).duplicateEventCount
      ∨ 0 < (integritySummary events).eventTimeRegressionCount
      ∨ 0 < (integritySummary events).sequenceGapCount

variable {events seen : List TradeEvent} {state : IntegrityState} {row : TradeEvent}

/-! ### One more row -/

theorem timesOf_concat (symbol : String) :
    timesOf symbol (seen ++ [row])
      = timesOf symbol seen ++ if row.symbol = symbol then [row.eventAt] else [] := by
  by_cases h : row.symbol = symbol <;> simp [timesOf, h]

theorem numbersOf_concat (symbol : String) :
    numbersOf symbol (seen ++ [row])
      = numbersOf symbol seen ++ if row.symbol = symbol then row.sequence.toList else [] := by
  by_cases h : row.symbol = symbol
  · cases hsequence : row.sequence <;> simp [numbersOf, h, hsequence]
  · simp [numbersOf, h]

namespace IntegrityState

/-! Each part of the body leaves the variables of the others alone. -/

@[simp] theorem regressions_notePresence :
    (state.notePresence row).regressions = state.regressions := by
  unfold notePresence
  dsimp only
  split <;> rfl

@[simp] theorem lastEventBySymbol_notePresence :
    (state.notePresence row).lastEventBySymbol = state.lastEventBySymbol := by
  unfold notePresence
  dsimp only
  split <;> rfl

@[simp] theorem lastSequenceBySymbol_notePresence :
    (state.notePresence row).lastSequenceBySymbol = state.lastSequenceBySymbol := by
  unfold notePresence
  dsimp only
  split <;> rfl

@[simp] theorem sequenceGapCount_notePresence :
    (state.notePresence row).sequenceGapCount = state.sequenceGapCount := by
  unfold notePresence
  dsimp only
  split <;> rfl

@[simp] theorem seen_noteTime : (state.noteTime row).seen = state.seen := rfl

@[simp] theorem duplicates_noteTime : (state.noteTime row).duplicates = state.duplicates := rfl

@[simp] theorem lastSequenceBySymbol_noteTime :
    (state.noteTime row).lastSequenceBySymbol = state.lastSequenceBySymbol := rfl

@[simp] theorem sequenceGapCount_noteTime :
    (state.noteTime row).sequenceGapCount = state.sequenceGapCount := rfl

@[simp] theorem seen_noteSequence : (state.noteSequence row).seen = state.seen := by
  unfold noteSequence
  split <;> rfl

@[simp] theorem duplicates_noteSequence :
    (state.noteSequence row).duplicates = state.duplicates := by
  unfold noteSequence
  split <;> rfl

@[simp] theorem regressions_noteSequence :
    (state.noteSequence row).regressions = state.regressions := by
  unfold noteSequence
  split <;> rfl

@[simp] theorem lastEventBySymbol_noteSequence :
    (state.noteSequence row).lastEventBySymbol = state.lastEventBySymbol := by
  unfold noteSequence
  split <;> rfl

/-! ### Ids -/

/-- What the ids seen so far say: each row is new or a duplicate. -/
structure IdsCounted (seen : List TradeEvent) (state : IntegrityState) : Prop where
  ids : state.seen = (seen.map TradeEvent.exchangeEventId).toFinset
  count : state.duplicates + state.seen.card = seen.length

/-- A row adds its id, which is new or makes a duplicate. -/
theorem IdsCounted.step (h : IdsCounted seen state) (hnamed : row.exchangeEventId ≠ "") :
    IdsCounted (seen ++ [row]) (state.step row) := by
  -- a row with an exchange id is counted under that id
  have hkey : eventKey row = row.exchangeEventId := if_pos hnamed
  have hpresence : state.notePresence row
      = { state with
          duplicates := if row.exchangeEventId ∈ state.seen then state.duplicates + 1
            else state.duplicates
          seen := insert row.exchangeEventId state.seen } := by
    unfold notePresence
    rw [hkey]
    exact if_pos hnamed
  have hseen : (state.step row).seen = insert row.exchangeEventId state.seen := by
    simp [IntegrityState.step, hpresence]
  refine ⟨?_, ?_⟩
  · rw [hseen, h.ids]
    ext id
    simp
  · have hduplicates : (state.step row).duplicates
        = if row.exchangeEventId ∈ state.seen then state.duplicates + 1 else state.duplicates := by
      simp [IntegrityState.step, hpresence]
    have hcount := h.count
    rw [hseen, hduplicates, List.length_append, List.length_singleton]
    -- an id seen before is a duplicate, and a new one grows the set
    by_cases hmem : row.exchangeEventId ∈ state.seen
    · rw [if_pos hmem, Finset.insert_eq_of_mem hmem]
      omega
    · rw [if_neg hmem, Finset.card_insert_of_notMem hmem]
      omega

/-! ### Event times -/

/-- What the latest event times say: they are those of the rows so far, and no time went back while
    each symbol's times are in order. -/
structure TimesFollowed (seen : List TradeEvent) (state : IntegrityState) : Prop where
  latest : ∀ symbol, state.lastEventBySymbol.get? symbol = greatestOf (timesOf symbol seen)
  regressions : state.regressions = 0 ↔ ∀ symbol, (timesOf symbol seen).Pairwise (· ≤ ·)

/-- A row's time is compared with the latest one of its symbol. The latest time of a symbol is
    the greatest seen, so an event goes back exactly if an earlier one of its symbol is later,
    and no regression means that the times of every symbol rise. -/
theorem TimesFollowed.step (h : TimesFollowed seen state) :
    TimesFollowed (seen ++ [row]) (state.step row) := by
  have hprior := h.latest row.symbol
  refine ⟨fun symbol => ?_, ?_⟩
  · have hlast : (state.step row).lastEventBySymbol
        = state.lastEventBySymbol.set row.symbol
          (max ((state.lastEventBySymbol.get? row.symbol).getD row.eventAt) row.eventAt) := by
      simp [IntegrityState.step, noteTime]
    rw [hlast, Dict.get?_set, timesOf_concat]
    by_cases hsymbol : row.symbol = symbol
    · subst hsymbol
      rw [if_pos rfl, if_pos rfl, greatestOf_append_singleton, hprior]
      cases greatestOf (timesOf row.symbol seen) <;> simp
    · rw [if_neg hsymbol, if_neg hsymbol, List.append_nil]
      exact h.latest symbol
  · have hregressions : (state.step row).regressions
        = if (greatestOf (timesOf row.symbol seen)).any (fun prior => row.eventAt < prior)
          then state.regressions + 1 else state.regressions := by
      simp [IntegrityState.step, noteTime, hprior]
    have hback : (greatestOf (timesOf row.symbol seen)).any (fun prior => row.eventAt < prior) = true
        ↔ ¬ ∀ m ∈ greatestOf (timesOf row.symbol seen), m ≤ row.eventAt := by
      cases greatestOf (timesOf row.symbol seen) <;> simp
    rw [hregressions]
    -- the event keeps the order of its symbol, or is counted as a regression
    by_cases hgoes : ∀ m ∈ greatestOf (timesOf row.symbol seen), m ≤ row.eventAt
    · rw [if_neg (fun hany => hback.mp hany hgoes), h.regressions]
      refine forall_congr' (fun symbol => ?_)
      rw [timesOf_concat]
      by_cases hsymbol : row.symbol = symbol
      · subst hsymbol
        rw [if_pos rfl, pairwise_le_concat_iff]
        exact ⟨fun hpairwise => ⟨hpairwise, hgoes⟩, fun hboth => hboth.1⟩
      · rw [if_neg hsymbol, List.append_nil]
    · rw [if_pos (hback.mpr hgoes)]
      refine ⟨fun hzero => absurd hzero (Nat.succ_ne_zero _), fun hall => absurd ?_ hgoes⟩
      have hlast := hall row.symbol
      rw [timesOf_concat, if_pos rfl, pairwise_le_concat_iff] at hlast
      exact hlast.2

/-! ### Sequence numbers -/

/-- What the greatest sequence numbers say: they are those of the rows so far, and the gaps are the
    numbers jumped over. -/
structure NumbersFollowed (symbols : Finset String) (seen : List TradeEvent)
    (state : IntegrityState) : Prop where
  greatest : ∀ symbol, state.lastSequenceBySymbol.get? symbol = greatestOf (numbersOf symbol seen)
  gaps : state.sequenceGapCount
    = ∑ symbol ∈ symbols, ({v | PassedOver (numbersOf symbol seen) v}.ncard : ℤ)

/-- The number of a row moves the greatest one of its symbol. -/
theorem get?_lastSequence_noteSequence {sequence : ℤ} (hsequence : row.sequence = some sequence)
    (symbol : String) :
    (state.noteSequence row).lastSequenceBySymbol.get? symbol
      = if row.symbol = symbol then some ((state.lastSequenceBySymbol.get? row.symbol).elim sequence
          (fun prior => max prior sequence))
        else state.lastSequenceBySymbol.get? symbol := by
  unfold noteSequence
  rw [hsequence]
  dsimp only
  cases hprior : state.lastSequenceBySymbol.get? row.symbol with
  | none => simp [Dict.get?_set]
  | some prior =>
    by_cases hlt : prior < sequence
    · simp [Dict.get?_set, hlt, le_of_lt hlt]
    · -- a number that is not greater leaves the greatest one
      have hle : sequence ≤ prior := not_lt.mp hlt
      by_cases hsymbol : row.symbol = symbol
      · subst hsymbol
        simp [hlt, hle, hprior]
      · simp [hlt, hsymbol]

/-- The number of a row adds what lies between the greatest one of its symbol and itself. -/
theorem sequenceGapCount_noteSequence {sequence : ℤ} (hsequence : row.sequence = some sequence) :
    (state.noteSequence row).sequenceGapCount = state.sequenceGapCount
      + (state.lastSequenceBySymbol.get? row.symbol).elim 0
        (fun prior => ((sequence - prior - 1).toNat : ℤ)) := by
  unfold noteSequence
  rw [hsequence]
  dsimp only
  cases state.lastSequenceBySymbol.get? row.symbol with
  | none => simp
  | some prior =>
    dsimp only [Option.elim_some]
    split <;> omega

/-- A row's number is compared with the greatest one of its symbol. -/
theorem NumbersFollowed.step {symbols : Finset String} (h : NumbersFollowed symbols seen state)
    (hmem : row.symbol ∈ symbols) : NumbersFollowed symbols (seen ++ [row]) (state.step row) := by
  cases hsequence : row.sequence with
  | none =>
    -- a row without a number changes nothing here
    have hsame : ∀ symbol, numbersOf symbol (seen ++ [row]) = numbersOf symbol seen := by
      intro symbol
      rw [numbersOf_concat, hsequence]
      simp
    have hstep : state.step row = (state.notePresence row).noteTime row := by
      unfold IntegrityState.step noteSequence
      rw [hsequence]
    refine ⟨fun symbol => ?_, ?_⟩
    · rw [hstep, hsame]
      simpa using h.greatest symbol
    · simp only [hstep, hsame]
      simpa using h.gaps
  | some sequence =>
    have hnumbers : ∀ symbol, numbersOf symbol (seen ++ [row])
        = numbersOf symbol seen ++ if row.symbol = symbol then [sequence] else [] := by
      intro symbol
      rw [numbersOf_concat, hsequence]
      rfl
    refine ⟨fun symbol => ?_, ?_⟩
    · rw [IntegrityState.step, get?_lastSequence_noteSequence hsequence, hnumbers]
      simp only [lastSequenceBySymbol_noteTime, lastSequenceBySymbol_notePresence]
      by_cases hsymbol : row.symbol = symbol
      · subst hsymbol
        rw [if_pos rfl, if_pos rfl, greatestOf_append_singleton, h.greatest]
      · rw [if_neg hsymbol, if_neg hsymbol, List.append_nil]
        exact h.greatest symbol
    · -- only the row's own symbol jumps
      have hcard : ∀ symbol, ({v | PassedOver (numbersOf symbol (seen ++ [row])) v}.ncard : ℤ)
          = {v | PassedOver (numbersOf symbol seen) v}.ncard
            + if row.symbol = symbol then (greatestOf (numbersOf row.symbol seen)).elim 0
                (fun prior => ((sequence - prior - 1).toNat : ℤ)) else 0 := by
        intro symbol
        rw [hnumbers]
        by_cases hsymbol : row.symbol = symbol
        · subst hsymbol
          rw [if_pos rfl, if_pos rfl]
          cases hgreatest : greatestOf (numbersOf row.symbol seen) with
          | none => simp [ncard_passedOver_concat_of_none hgreatest]
          | some prior => simp [ncard_passedOver_concat hgreatest]
        · rw [if_neg hsymbol, if_neg hsymbol, List.append_nil, add_zero]
      rw [IntegrityState.step, sequenceGapCount_noteSequence hsequence]
      simp only [lastSequenceBySymbol_noteTime, lastSequenceBySymbol_notePresence,
        sequenceGapCount_noteTime, sequenceGapCount_notePresence, hcard]
      rw [Finset.sum_add_distrib, Finset.sum_ite_eq, if_pos hmem, h.gaps, h.greatest]

end IntegrityState

/-! ### The whole stream -/

/-- Everything the loop keeps of the rows so far. -/
structure Counted (symbols : Finset String) (seen : List TradeEvent) (state : IntegrityState) :
    Prop where
  ids : IntegrityState.IdsCounted seen state
  times : IntegrityState.TimesFollowed seen state
  numbers : IntegrityState.NumbersFollowed symbols seen state

/-- **The loop counts.** Over any rows with exchange ids, whatever their order. -/
theorem counted_foldl (hnamed : ∀ row ∈ events, row.exchangeEventId ≠ "") :
    Counted (symbolsOf events) events (events.foldl IntegrityState.step {}) := by
  have hrun : ∀ rows : List TradeEvent, rows ⊆ events →
      Counted (symbolsOf events) rows (rows.foldl IntegrityState.step {}) := by
    intro rows
    refine foldl_invariant (P := fun (seen : List TradeEvent) (state : IntegrityState) =>
      seen ⊆ events → Counted (symbolsOf events) seen state) ?_ rows ?_
    · intro seen state row hseen hsubset
      have hmem : row ∈ events := hsubset (by simp)
      have hcounted := hseen (fun x hx => hsubset (List.mem_append_left _ hx))
      have hsymbol : row.symbol ∈ symbolsOf events :=
        List.mem_toFinset.mpr (List.mem_map_of_mem hmem)
      exact ⟨hcounted.ids.step (hnamed row hmem), hcounted.times.step,
        hcounted.numbers.step hsymbol⟩
    · intro _
      refine ⟨⟨rfl, rfl⟩, ⟨fun _ => rfl, ?_⟩, ⟨fun _ => rfl, ?_⟩⟩
      · simp [timesOf]
      · simp [numbersOf]
  exact hrun events (fun _ h => h)

/-- The rows of a capture have exchange ids. -/
theorem named_of_mem_captureTrades {T : StreamTexts} {ledger : SourceEventLedger}
    {reports : List TradeReport} (h : row ∈ (captureTrades T ledger reports).2) :
    row.exchangeEventId ≠ "" := by
  rw [captureTrades_snd] at h
  obtain ⟨report, -, rfl⟩ := List.mem_map.mp h
  exact report.named

/-- Where no id is shared by two symbols, there are as many ids as trades. -/
theorem card_tradesOf (h : ∀ a ∈ events, ∀ b ∈ events, a.exchangeEventId = b.exchangeEventId →
    a.symbol = b.symbol) :
    (tradesOf events).card = (events.map TradeEvent.exchangeEventId).toFinset.card := by
  have himage : (events.map TradeEvent.exchangeEventId).toFinset
      = (tradesOf events).image Prod.snd := by
    ext id
    simp [tradesOf]
  rw [himage]
  refine (Finset.card_image_of_injOn ?_).symm
  rintro ⟨symbol, id⟩ ha ⟨symbol', id'⟩ hb (rfl : id = id')
  simp only [tradesOf, Finset.mem_coe, List.mem_toFinset, List.mem_map, Prod.mk.injEq] at ha hb
  obtain ⟨a, ha, rfl, haid⟩ := ha
  obtain ⟨b, hb, rfl, hbid⟩ := hb
  rw [h a ha b hb (haid.trans hbid.symm)]

/-- **What one pass counts.** For the rows of every capture that is not empty, in whatever order
    they came. -/
theorem streamCounts (T : StreamTexts) (ledger : SourceEventLedger) (first : TradeReport)
    (rest : List TradeReport) :
    StreamCounts (captureTrades T ledger (first :: rest)).2 := by
  have hnamed := fun row => @named_of_mem_captureTrades row T ledger (first :: rest)
  have hne : (captureTrades T ledger (first :: rest)).2 ≠ [] := by
    rw [captureTrades_snd]
    simp
  generalize (captureTrades T ledger (first :: rest)).2 = events at hnamed hne
  have hcounted := counted_foldl hnamed
  have hgaps : (integritySummary events).sequenceGapCount
      = ∑ symbol ∈ symbolsOf events, ({v | PassedOver (numbersOf symbol events) v}.ncard : ℤ) := by
    unfold integritySummary
    rw [if_neg hne]
    exact hcounted.numbers.gaps
  refine ⟨fun hshared => ?_, hgaps, ?_, ?_, ?_⟩
  · have hcount := hcounted.ids.count
    rw [hcounted.ids.ids, ← card_tradesOf hshared] at hcount
    unfold integritySummary
    rw [if_neg hne]
    dsimp only
    omega
  · -- symbol by symbol
    rw [hgaps, ← Finset.sum_add_distrib, ← Finset.sum_add_distrib]
    refine Finset.sum_congr rfl (fun symbol _ => ?_)
    exact_mod_cast ncard_passedOver_add (numbersOf symbol events)
  · unfold integritySummary
    rw [if_neg hne]
    exact hcounted.times.regressions
  · have hnonneg : 0 ≤ (integritySummary events).sequenceGapCount := by
      rw [hgaps]
      exact Finset.sum_nonneg (fun symbol _ => Int.natCast_nonneg _)
    unfold integritySummary at hnonneg ⊢
    rw [if_neg hne] at hnonneg ⊢
    simp only [Bool.or_eq_true, decide_eq_true_eq] at hnonneg ⊢
    omega

/-! ### Streams that are counted otherwise -/

/-- Texts of a runtime. -/
def sampleTexts : StreamTexts := ⟨fun _ => "", fun _ => "", fun text => text, fun _ => "id"⟩

/-- A trade of a symbol under an id and a sequence number. -/
def sampleTrade (symbol : String) (id : ℕ) (sequence : ℤ) : TradeReport where
  venue := "OKX"
  symbol := symbol
  asset := symbol
  exchangeEventId := "trade-" ++ toString id
  sequence := some sequence
  eventAt := 0
  receivedAt := 0
  side := .buy
  price := ⟨1, by decide⟩
  size := ⟨1, by decide⟩
  sourceReference := ""
  named := by simp

/-- The rows of a capture of sample trades. -/
def sampleStream (reports : List TradeReport) : List TradeEvent :=
  (captureTrades sampleTexts ⟨[], List.nodup_nil⟩ reports).2

/-- An id of two symbols counts as a duplicate; a number that comes late stays a gap; a number
    that is missing below the first one is none. One capture contradicts each of the three exact
    counts, and each is what one pass over the events without looking back must say. -/
theorem not_streamCountsExact :
    ¬ StreamCountsExact (sampleStream
        [sampleTrade "BTC-USDT-SWAP" 1 1, sampleTrade "ETH-USDT-SWAP" 1 1])
      ∧ ¬ StreamCountsExact (sampleStream [sampleTrade "BTC-USDT-SWAP" 1 1,
        sampleTrade "BTC-USDT-SWAP" 2 3, sampleTrade "BTC-USDT-SWAP" 3 2])
      ∧ ¬ StreamCountsExact (sampleStream
        [sampleTrade "BTC-USDT-SWAP" 1 3, sampleTrade "BTC-USDT-SWAP" 2 1]) := by
  refine ⟨fun h => ?_, fun h => ?_, fun h => ?_⟩
  -- the ids are kept without their symbols
  · have hduplicates := h.duplicates
    revert hduplicates
    decide +kernel
  -- the number 2 is received late, after the gap before 3 was counted
  · have hgap : (integritySummary (sampleStream [sampleTrade "BTC-USDT-SWAP" 1 1,
        sampleTrade "BTC-USDT-SWAP" 2 3, sampleTrade "BTC-USDT-SWAP" 3 2])).sequenceGapCount = 1 := by
      decide +kernel
    have hsymbols : symbolsOf (sampleStream [sampleTrade "BTC-USDT-SWAP" 1 1,
        sampleTrade "BTC-USDT-SWAP" 2 3, sampleTrade "BTC-USDT-SWAP" 3 2])
        = {"BTC-USDT-SWAP"} := by decide +kernel
    have hnumbers : numbersOf "BTC-USDT-SWAP" (sampleStream [sampleTrade "BTC-USDT-SWAP" 1 1,
        sampleTrade "BTC-USDT-SWAP" 2 3, sampleTrade "BTC-USDT-SWAP" 3 2]) = [1, 3, 2] := by
      decide +kernel
    have hnone : {v : ℤ | NeverReceived [1, 3, 2] v} = ∅ := by
      refine Set.eq_empty_of_forall_notMem (fun v hv => ?_)
      simp only [Set.mem_ofPred_eq, NeverReceived, List.mem_cons, List.not_mem_nil, or_false,
        exists_eq_or_imp, exists_eq_left] at hv
      omega
    have hgaps := h.gaps
    rw [hgap, hsymbols, Finset.sum_singleton, hnumbers, hnone, Set.ncard_empty] at hgaps
    exact absurd hgaps (by decide)
  -- the number 2 lies above the first number received only if that is 1
  · have hgap : (integritySummary (sampleStream
        [sampleTrade "BTC-USDT-SWAP" 1 3, sampleTrade "BTC-USDT-SWAP" 2 1])).sequenceGapCount
        = 0 := by decide +kernel
    have hsymbols : symbolsOf (sampleStream
        [sampleTrade "BTC-USDT-SWAP" 1 3, sampleTrade "BTC-USDT-SWAP" 2 1])
        = {"BTC-USDT-SWAP"} := by decide +kernel
    have hnumbers : numbersOf "BTC-USDT-SWAP" (sampleStream
        [sampleTrade "BTC-USDT-SWAP" 1 3, sampleTrade "BTC-USDT-SWAP" 2 1]) = [3, 1] := by
      decide +kernel
    have hone : {v : ℤ | NeverReceived [3, 1] v} = {2} := by
      ext v
      simp only [Set.mem_ofPred_eq, NeverReceived, List.mem_cons, List.not_mem_nil, or_false,
        exists_eq_or_imp, exists_eq_left, Set.mem_singleton_iff]
      omega
    have hgaps := h.gaps
    rw [hgap, hsymbols, Finset.sum_singleton, hnumbers, hone, Set.ncard_singleton] at hgaps
    exact absurd hgaps (by decide)

end InefficiencyEngine.Streams
