import InefficiencyEngine.Feedback.LaneSuccess
import InefficiencyEngine.Lib.Dict
import InefficiencyEngine.Portfolio.Market
import Mathlib.Data.Finset.Insert

namespace InefficiencyEngine.Streams

open Portfolio

/-!
# The public trade flow

Each venue reports its trades over a stream.  `recordTradeEvent` stores a trade once for each of two
lanes and returns the row of it that the integrity of the stream is judged by; `integritySummary`
reads these rows once, in the order they came, and counts the trades reported twice, the event times
that went back and the sequence numbers that were jumped over.
-/

/-! ### Recording a trade -/

/-- The side of the aggressor; other texts are skipped before a trade is recorded. -/
inductive AggressorSide
  | buy
  | sell
  deriving DecidableEq

/-- The text of a side. -/
def AggressorSide.value : AggressorSide → String
  | .buy => "buy"
  | .sell => "sell"

/-- What `_record_trade_event` is called with.  The venue's id of the trade, or a digest in its
    place, is not empty. -/
structure TradeReport where
  venue : String
  symbol : String
  asset : String
  exchangeEventId : String
  sequence : Option ℤ
  eventAt : Instant
  receivedAt : Instant
  side : AggressorSide
  price : Positive
  size : Positive
  sourceReference : String
  named : exchangeEventId ≠ ""

/-- The payload of a recorded trade. -/
structure TradePayload where
  venue : String
  symbol : String
  exchangeEventId : String
  sequence : Option ℤ
  exchangeEventAt : String
  localReceiveAt : String
  aggressorSide : String
  price : ℚ
  size : ℚ
  notionalUsd : ℚ
  eventIntegrityVersion : ℕ

/-- `SourceEventObservation` of a trade. -/
structure TradeObservation where
  eventId : String
  laneId : String
  sourceId : String
  eventType : String
  eventAt : Instant
  observedAt : Instant
  asset : String
  sourceReference : String
  payload : TradePayload

/-- The texts of the runtime: `datetime.isoformat`, `str` of a number, `str.upper` and the
    truncated SHA-256 of `_stable`. -/
structure StreamTexts where
  isoformat : Instant → String
  str : ℚ → String
  upper : String → String
  stable : List String → String

/-- `SourceEventLedger`: no id is stored twice. -/
structure SourceEventLedger where
  rows : List TradeObservation
  nodup_ids : (rows.map TradeObservation.eventId).Nodup

/-- `SourceEventLedger.record`. A row whose id is stored is ignored. -/
def SourceEventLedger.record (ledger : SourceEventLedger) (row : TradeObservation) :
    SourceEventLedger :=
  if hmem : row.eventId ∈ ledger.rows.map TradeObservation.eventId then ledger
  else ⟨ledger.rows ++ [row], by
    rw [List.map_append, List.map_singleton]
    exact ledger.nodup_ids.append (List.nodup_singleton _) (by simpa using hmem)⟩

/-- The row `_record_trade_event` returns. -/
structure TradeEvent where
  eventId : String
  exchangeEventId : String
  sequence : Option ℤ
  symbol : String
  eventAt : Instant
  receivedAt : Instant

/-- `TRADE_FLOW_SOURCE_ID`. -/
def tradeFlowSourceId : String := "public-trade-flow"

/-- The lanes that read the trade flow. -/
def tradeFlowLanes : List String := ["microstructure", "liquidity_provision"]

/-- The payload `_record_trade_event` stores. -/
def tradePayload (T : StreamTexts) (report : TradeReport) : TradePayload where
  venue := report.venue
  symbol := report.symbol
  exchangeEventId := report.exchangeEventId
  sequence := report.sequence
  exchangeEventAt := T.isoformat report.eventAt
  localReceiveAt := T.isoformat report.receivedAt
  aggressorSide := report.side.value
  price := report.price
  size := report.size
  notionalUsd := report.price * report.size
  eventIntegrityVersion := 1

/-- The id of a trade: a digest of its venue, symbol, exchange id, time, side, price and size. -/
def tradeEventId (T : StreamTexts) (report : TradeReport) : String :=
  T.stable [report.venue, report.symbol, report.exchangeEventId, T.isoformat report.eventAt,
    report.side.value, T.str report.price, T.str report.size]

/-- The observation of a trade for a lane. -/
def tradeObservation (T : StreamTexts) (report : TradeReport) (laneId : String) :
    TradeObservation where
  eventId := T.stable [tradeEventId T report, laneId]
  laneId := laneId
  sourceId := tradeFlowSourceId
  eventType := "public_trade"
  eventAt := report.eventAt
  observedAt := report.receivedAt
  asset := T.upper report.asset
  sourceReference := report.sourceReference
  payload := tradePayload T report

/-- `_record_trade_event`. A trade is stored once for each lane that reads it, and counted once.
    -/
def recordTradeEvent (T : StreamTexts) (ledger : SourceEventLedger) (report : TradeReport) :
    SourceEventLedger × TradeEvent :=
  (tradeFlowLanes.foldl (fun ledger laneId => ledger.record (tradeObservation T report laneId)) ledger,
    { eventId := tradeEventId T report
      exchangeEventId := report.exchangeEventId
      sequence := report.sequence
      symbol := report.symbol
      eventAt := report.eventAt
      receivedAt := report.receivedAt })

/-- The loop of a capture: it records each report and keeps the rows in the order they came. -/
def captureTrades (T : StreamTexts) (ledger : SourceEventLedger) (reports : List TradeReport) :
    SourceEventLedger × List TradeEvent :=
  reports.foldl (fun (ledger, events) report =>
    let (ledger, event) := recordTradeEvent T ledger report
    (ledger, events ++ [event])) (ledger, [])

/-! ### The integrity of a stream -/

/-- `_integrity_summary`'s result. The figures of a capture. -/
structure IntegritySummary where
  eventCount : ℕ
  duplicateEventCount : ℕ
  eventTimeRegressionCount : ℕ
  sequenceSupported : Bool
  sequenceGapCount : ℤ
  maxReceiveLatencyMs : Option ℚ
  medianReceiveLatencyMs : Option ℚ
  integrityDegraded : Bool
  deriving DecidableEq

/-- The variables of the loop. -/
structure IntegrityState where
  seen : Finset String := ∅
  duplicates : ℕ := 0
  regressions : ℕ := 0
  lastEventBySymbol : Dict String Instant := Dict.empty
  lastSequenceBySymbol : Dict String ℤ := Dict.empty
  sequenceGapCount : ℤ := 0
  sequenceSupported : Bool := false
  latencies : List ℚ := []

/-- `str(row.get("exchange_event_id") or row.get("event_id") or "")`. -/
def eventKey (row : TradeEvent) : String :=
  if row.exchangeEventId ≠ "" then row.exchangeEventId else row.eventId

/-- `max(0.0, (received_at - event_at).total_seconds() * 1000.0)`. -/
def receiveLatencyMs (row : TradeEvent) : ℚ :=
  max 0 (totalSeconds (row.receivedAt - row.eventAt) * 1000)

namespace IntegrityState

/-- An id that was seen before is a duplicate. -/
def notePresence (state : IntegrityState) (row : TradeEvent) : IntegrityState :=
  let eventId := eventKey row
  if eventId ≠ "" then
    { state with
      duplicates := if eventId ∈ state.seen then state.duplicates + 1 else state.duplicates
      seen := insert eventId state.seen }
  else state

/-- An event time below the latest one of the symbol is a regression. -/
def noteTime (state : IntegrityState) (row : TradeEvent) : IntegrityState :=
  let priorEvent := state.lastEventBySymbol.get? row.symbol
  { state with
    latencies := state.latencies ++ [receiveLatencyMs row]
    regressions := if priorEvent.any (fun prior => row.eventAt < prior)
      then state.regressions + 1 else state.regressions
    lastEventBySymbol := state.lastEventBySymbol.set row.symbol
      (max (priorEvent.getD row.eventAt) row.eventAt) }

/-- A sequence number more than one above the greatest one of the symbol leaves a gap. -/
def noteSequence (state : IntegrityState) (row : TradeEvent) : IntegrityState :=
  match row.sequence with
  | none => state
  | some sequence =>
    let prior := state.lastSequenceBySymbol.get? row.symbol
    { state with
      sequenceSupported := true
      sequenceGapCount := match prior with
        | some prior => if prior + 1 < sequence then state.sequenceGapCount + (sequence - prior - 1)
            else state.sequenceGapCount
        | none => state.sequenceGapCount
      lastSequenceBySymbol := if prior.all (fun prior => prior < sequence)
        then state.lastSequenceBySymbol.set row.symbol sequence else state.lastSequenceBySymbol }

/-- The body of the loop. -/
def step (state : IntegrityState) (row : TradeEvent) : IntegrityState :=
  ((state.notePresence row).noteTime row).noteSequence row

end IntegrityState

/-- `_integrity_summary`. A capture without events is degraded, since nothing shows that it ran.
    -/
def integritySummary (events : List TradeEvent) : IntegritySummary :=
  if events = [] then
    { eventCount := 0
      duplicateEventCount := 0
      eventTimeRegressionCount := 0
      sequenceSupported := false
      sequenceGapCount := 0
      maxReceiveLatencyMs := none
      medianReceiveLatencyMs := none
      integrityDegraded := true }
  else
    let state := events.foldl IntegrityState.step {}
    { eventCount := events.length
      duplicateEventCount := state.duplicates
      eventTimeRegressionCount := state.regressions
      sequenceSupported := state.sequenceSupported
      sequenceGapCount := state.sequenceGapCount
      maxReceiveLatencyMs := state.latencies.max?
      medianReceiveLatencyMs :=
        if state.latencies = [] then none else some (Feedback.median state.latencies)
      integrityDegraded := state.duplicates ≠ 0 || state.regressions ≠ 0
        || state.sequenceGapCount ≠ 0 }

/-! ### What recording keeps -/

namespace SourceEventLedger

variable {ledger : SourceEventLedger} {row : TradeObservation}

/-- A recorded id is stored. -/
theorem mem_ids_record {id : String} :
    id ∈ (ledger.record row).rows.map TradeObservation.eventId
      ↔ id ∈ ledger.rows.map TradeObservation.eventId ∨ id = row.eventId := by
  unfold record
  split
  · rename_i hmem
    exact ⟨Or.inl, fun h => h.elim (fun h => h) (fun h => h ▸ hmem)⟩
  · rw [List.map_append, List.map_singleton, List.mem_append, List.mem_singleton]

/-- An id that is stored is not stored again. -/
theorem record_of_mem (h : row.eventId ∈ ledger.rows.map TradeObservation.eventId) :
    ledger.record row = ledger := by
  unfold record
  exact dif_pos h

end SourceEventLedger

/-- **A repeated delivery stores nothing.** -/
theorem recordTradeEvent_again (T : StreamTexts) (ledger : SourceEventLedger)
    (report : TradeReport) :
    (recordTradeEvent T (recordTradeEvent T ledger report).1 report).1
      = (recordTradeEvent T ledger report).1 := by
  let first := ledger.record (tradeObservation T report "microstructure")
  let second := first.record (tradeObservation T report "liquidity_provision")
  have hfirst : (tradeObservation T report "microstructure").eventId
      ∈ second.rows.map TradeObservation.eventId :=
    SourceEventLedger.mem_ids_record.mpr (Or.inl (SourceEventLedger.mem_ids_record.mpr (Or.inr rfl)))
  have hsecond : (tradeObservation T report "liquidity_provision").eventId
      ∈ second.rows.map TradeObservation.eventId :=
    SourceEventLedger.mem_ids_record.mpr (Or.inr rfl)
  show (second.record _).record _ = second
  rw [SourceEventLedger.record_of_mem hfirst, SourceEventLedger.record_of_mem hsecond]

/-- A capture keeps one row for each report, in their order. -/
theorem captureTrades_snd (T : StreamTexts) (ledger : SourceEventLedger)
    (reports : List TradeReport) :
    (captureTrades T ledger reports).2
      = reports.map (fun report => (recordTradeEvent T ledger report).2) := by
  refine foldl_invariant (P := fun (seen : List TradeReport)
    (state : SourceEventLedger × List TradeEvent) =>
      state.2 = seen.map (fun report => (recordTradeEvent T ledger report).2)) ?_ reports rfl
  intro seen state report hseen
  rw [List.map_append, List.map_singleton, ← hseen]
  rfl

end InefficiencyEngine.Streams
