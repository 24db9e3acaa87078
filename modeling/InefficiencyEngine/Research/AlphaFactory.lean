import InefficiencyEngine.Lib.Durable
import InefficiencyEngine.Portfolio.Market

namespace InefficiencyEngine.Research

open Portfolio Durable

/-!
# The alpha factories — forward signals and their outcomes

`AlphaEvidenceLedger` is one append-only table of signal and outcome events.  A cycle of
`AlphaFactoryService.run_evidence_cycle` settles every due signal without an outcome at the
quote its index holds for the signal's instrument, then records a signal for each
candidate it discovers.  `ExpandedAlphaFactoryService` overrides the cycle with the same
settlement and a rule against overlapping signals of one cohort.
-/

/-! ### Candidates, signals, outcomes -/

/-- `AlphaDirection`. -/
inductive AlphaDirection
  | long
  | short
  | marketNeutral
  deriving DecidableEq

/-- The volatility regime of a candidate. -/
inductive AlphaRegime
  | lowVol
  | normal
  | highVol
  deriving DecidableEq

/-- `AlphaCandidate`, with the fields an evidence cycle reads. -/
structure AlphaCandidate where
  candidateId : String
  strategyId : String
  family : String
  asset : String
  direction : AlphaDirection
  venue : String
  marketKind : MarketKind
  symbol : String
  observedAt : Instant
  horizonHours : Positive
  entryReferencePrice : Positive
  estimatedCostReturn : ℚ≥0
  expectedNetReturn : ℚ
  regime : AlphaRegime

/-- `AlphaForwardSignal`. -/
structure AlphaForwardSignal where
  signalId : String
  candidate : AlphaCandidate
  dueAt : Instant

/-- `AlphaForwardOutcome`. A signal whose horizon has passed, with the return at its exit. -/
structure AlphaForwardOutcome where
  signalId : String
  strategyId : String
  family : String
  asset : String
  direction : AlphaDirection
  venue : String
  marketKind : MarketKind
  symbol : String
  observedAt : Instant
  dueAt : Instant
  maturedAt : Instant
  horizonHours : ℚ
  regime : AlphaRegime
  predictedNetReturn : ℚ
  entryPrice : ℚ
  exitPrice : ℚ
  realizedGrossReturn : ℚ
  realizedNetReturn : ℚ
  correctDirection : Bool

/-- `AlphaEvidenceCycle`. -/
structure AlphaEvidenceCycle where
  observedAt : Instant
  candidateCount : ℕ
  signalsRecorded : ℕ
  outcomesMatured : ℕ

/-! ### The ledger -/

/-- A row of `alpha_forward_events`. -/
inductive AlphaEvent
  | signal (signal : AlphaForwardSignal)
  | outcome (outcome : AlphaForwardOutcome)

/-- The signal of a signal row. -/
def AlphaEvent.signal? : AlphaEvent → Option AlphaForwardSignal
  | .signal s => some s
  | .outcome _ => none

/-- The outcome of an outcome row. -/
def AlphaEvent.outcome? : AlphaEvent → Option AlphaForwardOutcome
  | .signal _ => none
  | .outcome o => some o

/-- `alpha_forward_events`, in row order. -/
structure AlphaEvidenceLedger where
  events : List AlphaEvent

namespace AlphaEvidenceLedger

variable (ledger : AlphaEvidenceLedger)

/-- The signal rows. -/
def signals : List AlphaForwardSignal := ledger.events.filterMap AlphaEvent.signal?

/-- `outcomes`. -/
def outcomes : List AlphaForwardOutcome := ledger.events.filterMap AlphaEvent.outcome?

/-- The signal ids of the outcome rows. -/
def completed : List String := ledger.outcomes.map AlphaForwardOutcome.signalId

/-- `pending_signals`. -/
def pendingSignals (now : Instant) : List AlphaForwardSignal :=
  (ledger.signals.filter (fun signal => signal.dueAt ≤ now)).filter
    (fun signal => signal.signalId ∉ ledger.completed)

/-- `_has_open_signal`. -/
def hasOpenSignal (candidate : AlphaCandidate) : Bool :=
  (ledger.signals.filter (fun signal => signal.candidate.strategyId = candidate.strategyId
      && signal.candidate.asset = candidate.asset
      && signal.candidate.direction = candidate.direction)).any
    (fun signal => signal.signalId ∉ ledger.completed)

/-- `record_signal` and `record_outcome` append their row. -/
def commit (event : AlphaEvent) : AlphaEvidenceLedger := ⟨ledger.events ++ [event]⟩

instance : Durable AlphaEvidenceLedger AlphaEvent := ⟨commit⟩

/-- The ledger after a list of rows. -/
theorem events_commitAll (rows : List AlphaEvent) :
    (commitAll ledger rows).events = ledger.events ++ rows := by
  induction rows generalizing ledger with
  | nil => simp
  | cons row rest ih =>
    rw [commitAll_cons, ih]
    show (ledger.events ++ [row]) ++ rest = _
    simp

/-- The outcomes after a list of rows. -/
theorem outcomes_commitAll (rows : List AlphaEvent) :
    (commitAll ledger rows).outcomes = ledger.outcomes ++ rows.filterMap AlphaEvent.outcome? := by
  rw [outcomes, events_commitAll, List.filterMap_append]
  rfl

end AlphaEvidenceLedger

/-! ### The settlement of a signal -/

section Settle

variable (upper : String → String)

/-- The key of `current_index`. -/
abbrev AlphaKey := String × String × MarketKind × String

/-- The index key of a quote. -/
def alphaKey (quote : MarketQuote) : AlphaKey :=
  (quote.venue, upper quote.asset, quote.marketKind, quote.symbol)

/-- The instrument of a candidate. -/
def AlphaCandidate.key (candidate : AlphaCandidate) : AlphaKey :=
  (candidate.venue, candidate.asset, candidate.marketKind, candidate.symbol)

/-- The instrument of an outcome. -/
def AlphaForwardOutcome.key (outcome : AlphaForwardOutcome) : AlphaKey :=
  (outcome.venue, outcome.asset, outcome.marketKind, outcome.symbol)

/-- `current_index`: the last listed quote of an instrument wins. -/
def currentIndex (snapshot : ScanSnapshot) : Dict AlphaKey MarketQuote :=
  Dict.collect (alphaKey upper) snapshot.marketQuotes

/-- The outcome of a signal at a quote. A short earns what the price falls, and the cost
    estimated at the signal is charged once. -/
def AlphaForwardSignal.outcomeAt (signal : AlphaForwardSignal) (quote : MarketQuote)
    (maturedAt : Instant) : AlphaForwardOutcome :=
  let candidate := signal.candidate
  let raw : ℚ := quote.mid / candidate.entryReferencePrice - 1
  let directional : ℚ := if candidate.direction = .long then raw else -raw
  { signalId := signal.signalId
    strategyId := candidate.strategyId
    family := candidate.family
    asset := candidate.asset
    direction := candidate.direction
    venue := candidate.venue
    marketKind := candidate.marketKind
    symbol := candidate.symbol
    observedAt := candidate.observedAt
    dueAt := signal.dueAt
    maturedAt := maturedAt
    horizonHours := candidate.horizonHours
    regime := candidate.regime
    predictedNetReturn := candidate.expectedNetReturn
    entryPrice := candidate.entryReferencePrice
    exitPrice := quote.mid
    realizedGrossReturn := directional
    realizedNetReturn := directional - candidate.estimatedCostReturn
    correctDirection := 0 < directional }

/-- One iteration of the settlement loop: a signal whose instrument is not in the snapshot
    stays pending.  The guard against a price of zero never applies, as a quote has none. -/
def matureSignal (snapshot : ScanSnapshot) (signal : AlphaForwardSignal) :
    Option AlphaForwardOutcome :=
  ((currentIndex upper snapshot).get? signal.candidate.key).map
    (fun quote => signal.outcomeAt quote snapshot.completedAt)

end Settle

/-! ### The evidence cycles -/

/-- A step of an alpha factory. -/
abbrev AlphaProg := Prog AlphaEvidenceLedger AlphaEvent Raised

/-- What a cycle obtains from the collectors and the strategies. -/
structure AlphaInput where
  /-- `collect_live_evidence`, after the refreshes of the expanded factory. -/
  collected : Except Raised ScanSnapshot
  /-- `discover` on the collected snapshot. -/
  discovered : Except Raised (List AlphaCandidate)

/-- The signal of a discovered candidate. -/
def AlphaForwardSignal.ofCandidate (candidate : AlphaCandidate) : AlphaForwardSignal where
  signalId := candidate.candidateId
  candidate := candidate
  dueAt := candidate.observedAt + timedeltaHours candidate.horizonHours

/-- The loop over the pending signals; the result is the number of outcomes. -/
def matureSignals (upper : String → String) (snapshot : ScanSnapshot) :
    List AlphaForwardSignal → AlphaProg ℕ
  | [] => pure 0
  | signal :: rest =>
    match matureSignal upper snapshot signal with
    | none => matureSignals upper snapshot rest
    | some outcome => do
      Prog.write (.outcome outcome)
      let matured ← matureSignals upper snapshot rest
      return matured + 1

/-- The loop over the candidates, which skips those that `skip` blocks in the ledger as it
    stands; the result is the number of signals. -/
def recordSignals (skip : AlphaEvidenceLedger → AlphaCandidate → Bool) :
    List AlphaCandidate → AlphaProg ℕ
  | [] => pure 0
  | candidate :: rest => do
    let ledger ← Prog.get
    if skip ledger candidate then recordSignals skip rest
    else
      Prog.write (.signal (.ofCandidate candidate))
      let recorded ← recordSignals skip rest
      return recorded + 1

/-- The evidence cycle of a factory that blocks candidates by `skip`. -/
def evidenceCycle (skip : AlphaEvidenceLedger → AlphaCandidate → Bool) (upper : String → String)
    (input : AlphaInput) : AlphaProg AlphaEvidenceCycle := do
  let snapshot ← Prog.lift input.collected
  let ledger ← Prog.get
  let matured ← matureSignals upper snapshot (ledger.pendingSignals snapshot.completedAt)
  let candidates ← Prog.lift input.discovered
  let recorded ← recordSignals skip candidates
  return {
    observedAt := snapshot.completedAt
    candidateCount := candidates.length
    signalsRecorded := recorded
    outcomesMatured := matured }

/-- `AlphaFactoryService.run_evidence_cycle`. -/
def AlphaFactoryService.runEvidenceCycle (upper : String → String) (input : AlphaInput) :
    AlphaProg AlphaEvidenceCycle :=
  evidenceCycle (fun _ _ => false) upper input

/-- `ExpandedAlphaFactoryService.run_evidence_cycle`. -/
def ExpandedAlphaFactoryService.runEvidenceCycle (upper : String → String) (input : AlphaInput) :
    AlphaProg AlphaEvidenceCycle :=
  evidenceCycle AlphaEvidenceLedger.hasOpenSignal upper input

/-! ### What a cycle records -/

/-- Only signals are recorded for candidates. -/
theorem emits_recordSignals (skip : AlphaEvidenceLedger → AlphaCandidate → Bool)
    (candidates : List AlphaCandidate) :
    Prog.Emits (fun event => event.outcome? = none) (recordSignals skip candidates) := by
  induction candidates with
  | nil => exact Prog.emits_pure 0
  | cons candidate rest ih =>
    refine Prog.emits_bind Prog.emits_get (fun ledger => ?_)
    split
    · exact ih
    · exact Prog.emits_bind (Prog.emits_write rfl)
        (fun _ => Prog.emits_bind ih (fun _ => Prog.emits_pure _))

/-- The loop over the pending signals records the outcome of every one that has one. -/
theorem run_matureSignals (upper : String → String) (snapshot : ScanSnapshot)
    (pending : List AlphaForwardSignal) (ledger : AlphaEvidenceLedger) :
    matureSignals upper snapshot pending ledger
      = ((pending.filterMap (matureSignal upper snapshot)).map AlphaEvent.outcome,
          .ok (pending.filterMap (matureSignal upper snapshot)).length) := by
  induction pending generalizing ledger with
  | nil => rfl
  | cons signal rest ih =>
    cases hsignal : matureSignal upper snapshot signal with
    | none =>
      rw [matureSignals, hsignal, List.filterMap_cons_none hsignal]
      exact ih ledger
    | some outcome =>
      have hwrite : (Prog.write (AlphaEvent.outcome outcome) : AlphaProg Unit) ledger
          = ([AlphaEvent.outcome outcome], .ok ()) := rfl
      rw [matureSignals, hsignal, List.filterMap_cons_some hsignal]
      show (Prog.write (AlphaEvent.outcome outcome) >>= _) ledger = _
      rw [Prog.run_bind_of_ok hwrite, Prog.run_bind_of_ok (ih _)]
      simp

/-- **Outcomes of a cycle.** When the snapshot is collected, the outcomes a cycle adds are
    those of the pending signals the snapshot settles, in their order. -/
theorem outcomes_evidenceCycle (skip : AlphaEvidenceLedger → AlphaCandidate → Bool)
    (upper : String → String) {input : AlphaInput} {snapshot : ScanSnapshot}
    (hcollected : input.collected = .ok snapshot) (ledger : AlphaEvidenceLedger) :
    ((evidenceCycle skip upper input).final ledger).outcomes
      = ledger.outcomes ++ (ledger.pendingSignals snapshot.completedAt).filterMap
          (matureSignal upper snapshot) := by
  have hpending := run_matureSignals upper snapshot (ledger.pendingSignals snapshot.completedAt)
    ledger
  have hsome : ∀ outcomes : List AlphaForwardOutcome,
      (outcomes.map AlphaEvent.outcome).filterMap AlphaEvent.outcome? = outcomes := by
    intro outcomes
    rw [List.filterMap_map]
    show outcomes.filterMap some = outcomes
    exact List.filterMap_some
  -- What follows the settlement records only signals.
  have hrest : ∀ (matured : ℕ) (s : AlphaEvidenceLedger),
      ((do
        let candidates ← Prog.lift input.discovered
        let recorded ← recordSignals skip candidates
        return {
          observedAt := snapshot.completedAt
          candidateCount := candidates.length
          signalsRecorded := recorded
          outcomesMatured := matured } : AlphaProg AlphaEvidenceCycle) s).1.filterMap
        AlphaEvent.outcome? = [] := by
    intro matured s
    refine List.filterMap_eq_nil_iff.mpr (fun row hrow => ?_)
    exact Prog.emits_bind (Prog.emits_lift _) (fun candidates =>
      Prog.emits_bind (emits_recordSignals skip candidates) (fun _ => Prog.emits_pure _)) s row hrow
  rw [Prog.final, evidenceCycle, hcollected]
  show AlphaEvidenceLedger.outcomes (commitAll ledger
    ((matureSignals upper snapshot (ledger.pendingSignals snapshot.completedAt) >>= _)
      ledger).1) = _
  rw [Prog.run_bind_of_ok hpending, AlphaEvidenceLedger.outcomes_commitAll,
    List.filterMap_append, hsome, hrest, List.append_nil]

end InefficiencyEngine.Research
