import InefficiencyEngine.Portfolio.Ledger

namespace InefficiencyEngine.Portfolio

/-!
# The evidence store — tables, rows and durable writes

The tables the paper portfolio and the allocation certification write: the hash-chained
event log, the account and integrity snapshots, and the trials and outcomes.  Every
table only grows, and every recording function ignores a row whose unique key is already
stored.

Functions of the standard library the model does not compute are the fields of `Runtime`,
together with what the source relies on: distinct events have distinct JSON, SHA-256 does
not collide and its digest is hexadecimal, and `uuid4` never repeats.
-/

/-! ### The runtime -/

/-- The call sites of `uuid.uuid4()` within one run of a service cycle; a loop body draws
    under the index of its iteration. -/
inductive Draw
  | genesis
  | accountingEvent (i : ℕ)
  | outcome (i : ℕ)
  | trial (i : ℕ)
  | position (i : ℕ)
  | allocationEvent (i : ℕ)
  | checkpoint
  | integrity
  deriving DecidableEq

/-- The library functions the source calls, with what it relies on. -/
structure Runtime where
  /-- `str.upper`. -/
  upper : String → String
  /-- `uuid.uuid4().hex` at a call site of the `run`-th cycle. -/
  uuid4 : ℕ → Draw → Uuid
  uuid4_injective : Function.Injective2 uuid4
  /-- `_json` of an event. -/
  eventJson : CanonicalPortfolioEvent → String
  eventJson_injective : Function.Injective eventJson
  /-- `hashlib.sha256(text.encode()).hexdigest()`. -/
  sha256 : String → String
  sha256_injective : Function.Injective sha256
  sha256_hex : ∀ text, '|' ∉ (sha256 text).toList

/-! ### The event log -/

/-- A row of `canonical_paper_portfolio_events`; its payload is the JSON of the event. -/
structure EventRow where
  event : CanonicalPortfolioEvent
  previousLineageHash : Option String
  lineageHash : String

/-- The text whose hash links an event to its predecessor: `f"{previous or ''}|{raw}"`. -/
def lineageText (R : Runtime) (previous : Option String) (event : CanonicalPortfolioEvent) :
    String :=
  orText previous "" ++ "|" ++ R.eventJson event

/-- The row `record_event` prepares for an event on top of the hash it read. -/
def EventRow.link (R : Runtime) (previous : Option String) (event : CanonicalPortfolioEvent) :
    EventRow where
  event := event
  previousLineageHash := previous
  lineageHash := R.sha256 (lineageText R previous event)

/-- `_last_event_hash`. -/
def lastEventHash (rows : List EventRow) : Option String :=
  (rows.filter (fun r => r.event.portfolioId = canonicalPortfolioId)).getLast?.map
    EventRow.lineageHash

/-- The transaction of `record_event`: insert the row unless its event id is stored. -/
def insertEventRow (rows : List EventRow) (row : EventRow) : List EventRow :=
  if rows.any (fun r => r.event.eventId = row.event.eventId) then rows else rows ++ [row]

/-! ### Integrity snapshots -/

/-- `ValuationStatus`. How current the values of the open positions are. -/
inductive ValuationStatus
  | cashOnly
  | fresh
  | partly
  | stale
  | unavailable
  deriving DecidableEq

/-- `IntegrityCycleStatus`. How far a cycle came. -/
inductive IntegrityCycleStatus
  | accountingOnly
  | success
  | degraded
  | failed
  deriving DecidableEq

/-- `PortfolioIntegritySnapshot`. What a cycle says about its own evidence, beside the account
    it reports. -/
structure PortfolioIntegritySnapshot where
  integrityId : Uuid
  observedAt : Instant
  accountSnapshotAt : Instant
  marketEvidenceAt : Option Instant
  valuationStatus : ValuationStatus
  cycleStatus : IntegrityCycleStatus
  fallbackSnapshot : Bool
  cycleErrorType : Option String
  stalePositionCount : ℕ
  settlementEvidenceBlockedCount : ℕ
  openPositionCount : ℕ
  allocationFamilyFailures : List FamilyFailure
  marketSnapshotId : Option String

/-! ### Tables and writes -/

/-- The tables the portfolio service reads. -/
structure PortfolioStore where
  rows : List EventRow
  snapshots : List CanonicalPaperPortfolioSnapshot
  integrity : List PortfolioIntegritySnapshot

/-- The tables of `AllocationCertificationLedger`.  The portfolio service writes them but
    never reads them. -/
structure CertificationStore where
  trials : List PaperAllocationTrial
  outcomes : List PaperAllocationOutcome

/-- Both groups of tables. -/
structure Store where
  portfolio : PortfolioStore
  certification : CertificationStore

/-- The store before anything ran. -/
def Store.empty : Store := ⟨⟨[], [], []⟩, ⟨[], []⟩⟩

/-- One committed transaction of a recording function. -/
inductive Write
  | event (row : EventRow)
  | snapshot (snapshot : CanonicalPaperPortfolioSnapshot)
  | integrity (snapshot : PortfolioIntegritySnapshot)
  | trial (trial : PaperAllocationTrial)
  | outcome (outcome : PaperAllocationOutcome)

/-- The event a write records. -/
def Write.event? : Write → Option CanonicalPortfolioEvent
  | .event row => some row.event
  | _ => none

/-- A write to the portfolio's own tables. -/
def PortfolioStore.commit (s : PortfolioStore) : Write → PortfolioStore
  | .event row => { s with rows := insertEventRow s.rows row }
  | .snapshot snapshot => { s with snapshots := s.snapshots ++ [snapshot] }
  | .integrity snapshot =>
    if s.integrity.any (fun r => r.integrityId = snapshot.integrityId) then s
    else { s with integrity := s.integrity ++ [snapshot] }
  | .trial _ => s
  | .outcome _ => s

/-- `record_trial` and `record_outcome`: the first row of a trial stays. -/
def CertificationStore.commit (s : CertificationStore) : Write → CertificationStore
  | .trial trial =>
    if s.trials.any (fun t => t.trialId = trial.trialId) then s
    else { s with trials := s.trials ++ [trial] }
  | .outcome outcome =>
    if s.outcomes.any (fun o => o.trialId = outcome.trialId) then s
    else { s with outcomes := s.outcomes ++ [outcome] }
  | .event _ => s
  | .snapshot _ => s
  | .integrity _ => s

instance : Durable PortfolioStore Write := ⟨PortfolioStore.commit⟩

instance : Durable CertificationStore Write := ⟨CertificationStore.commit⟩

instance : Durable Store Write :=
  ⟨fun s w => ⟨Durable.commit s.portfolio w, Durable.commit s.certification w⟩⟩

/-- The events of a store in row order: `events_all`. -/
def PortfolioStore.events (s : PortfolioStore) : List CanonicalPortfolioEvent :=
  s.rows.map EventRow.event

/-! ### Recording functions -/

/-- A step of the portfolio service. -/
abbrev PortfolioProg := Prog PortfolioStore Write Raised

/-- `CanonicalPaperPortfolioLedger.record_event`. The event is linked to the hash read before
    its own insert, and an id that is stored is ignored. -/
def recordEvent (R : Runtime) (event : CanonicalPortfolioEvent) : PortfolioProg Unit := do
  if event.portfolioId ≠ canonicalPortfolioId then
    Prog.lift (.error (.valueError "only the canonical paper portfolio is supported"))
  else
    let s ← Prog.get
    Prog.write (.event (EventRow.link R (lastEventHash s.rows) event))

/-- Record an event if there is one. -/
def recordOptional (R : Runtime) (event : Option CanonicalPortfolioEvent) : PortfolioProg Unit :=
  match event with
  | some e => recordEvent R e
  | none => pure ()

/-- The genesis event. -/
def genesisEvent (eventId : Uuid) (observedAt : Instant) : CanonicalPortfolioEvent where
  eventId := eventId
  eventType := .genesis
  observedAt := observedAt
  cashDeltaUsd := canonicalInitialCapitalUsd
  reason := some "canonical paper portfolio genesis"
  details := .genesis canonicalInitialCapitalUsd

/-- `first.details.get("initial_capital_usd", 0.0)`. -/
def EventDetails.initialCapital : EventDetails → ℚ
  | .genesis initialCapitalUsd => initialCapitalUsd
  | _ => 0

/-- The check of an existing log's first event. -/
def checkGenesis (first : CanonicalPortfolioEvent) : Except Raised Unit :=
  if first.eventType ≠ .genesis then
    .error (.runtimeError "canonical paper portfolio exists without a genesis event")
  else if 1 / 10 ^ 9 < |first.details.initialCapital - canonicalInitialCapitalUsd| then
    .error (.runtimeError
      "canonical paper portfolio genesis capital does not match $250,000 invariant")
  else .ok ()

/-- The genesis event passes its own check. -/
theorem checkGenesis_genesisEvent (eventId : Uuid) (observedAt : Instant) :
    checkGenesis (genesisEvent eventId observedAt) = .ok () := by
  have htype : ¬ (genesisEvent eventId observedAt).eventType ≠ .genesis := not_not.mpr rfl
  have hzero : (genesisEvent eventId observedAt).details.initialCapital
      - canonicalInitialCapitalUsd = 0 := sub_self _
  rw [checkGenesis, if_neg htype, hzero, abs_zero, if_neg (by norm_num)]

/-- `CanonicalPaperPortfolioLedger.ensure_genesis`. -/
def ensureGenesis (R : Runtime) (eventId : Uuid) (observedAt : Instant) : PortfolioProg Unit := do
  let s ← Prog.get
  match s.events with
  | first :: _ => Prog.lift (checkGenesis first)
  | [] => recordEvent R (genesisEvent eventId observedAt)

/-- `CanonicalPaperPortfolioLedger.current_state`. -/
def currentState (R : Runtime) (genesisId : Uuid) (observedAt : Instant) :
    PortfolioProg CanonicalPaperPortfolioSnapshot := do
  ensureGenesis R genesisId observedAt
  let s ← Prog.get
  Prog.lift (accountState s.events s.snapshots observedAt)

end InefficiencyEngine.Portfolio
