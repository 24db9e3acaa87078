import InefficiencyEngine.Portfolio.Account

namespace InefficiencyEngine.Portfolio

open Prog

/-!
# The blocks a cycle writes, and the logs they leave

Every write of `runCycle` belongs to a block of one of seven kinds (`CycleBlock`): the
genesis event, a trial recorded again, a mark or skip, a close (with the outcome it was
built from), an opening with its trial, an account snapshot or an integrity snapshot.
Invariants of the portfolio are case analyses over the blocks, and hold after a crash at
any write because they hold after every prefix of a block.

`Ledger R n` is the invariant of the logs that the first `n` cycles can leave.
-/

/-! ### Openings -/

section Openings

variable {R : Runtime} {run i : ℕ} {allocation : UnifiedPaperAllocation}
  {trial : PaperAllocationTrial} {e : CanonicalPortfolioEvent}

/-- The event with which a cycle opens its `i`-th allocation on a supported trial. -/
inductive OpenedBy (R : Runtime) (run i : ℕ) (allocation : UnifiedPaperAllocation)
    (trial : PaperAllocationTrial) : CanonicalPortfolioEvent → Prop
  | intro (eventId : Uuid) (observedAt : Instant)
      (htrial : trialFromAllocation R.upper (R.uuid4 run (.trial i)) allocation observedAt
        = .ok trial)
      (hsupported : trial.settlementSupported = true) :
      OpenedBy R run i allocation trial
        (openFromAllocation eventId (R.uuid4 run (.position i)) allocation trial observedAt)

namespace OpenedBy

theorem eventType (h : OpenedBy R run i allocation trial e) : e.eventType = .open := by
  cases h
  rfl

theorem positionId (h : OpenedBy R run i allocation trial e) :
    e.positionId = some (R.uuid4 run (.position i)) := by
  cases h
  rfl

theorem portfolioId (h : OpenedBy R run i allocation trial e) :
    e.portfolioId = canonicalPortfolioId := by
  cases h
  rfl

/-- An opening debits the capital it reserves and realizes nothing. -/
theorem amounts (h : OpenedBy R run i allocation trial e) :
    e.cashDeltaUsd = -e.capitalReservedUsd ∧ e.realizedPnlDeltaUsd = 0
      ∧ e.capitalReservedUsd = allocation.capitalRequiredUsd := by
  cases h
  exact ⟨rfl, rfl, rfl⟩

/-- The family and exposure kind of an opening are those of its allocation. -/
theorem exposure (h : OpenedBy R run i allocation trial e) :
    e.family = some allocation.family
      ∧ e.exposureKind = some allocation.exposureKind.value := by
  cases h
  exact ⟨rfl, rfl⟩

/-- The trial an opening embeds. -/
theorem eventTrial_eq (h : OpenedBy R run i allocation trial e) :
    eventTrial (some e) = some trial := by
  cases h
  rfl

/-- A supported trial has a horizon, which is the one of its opening. -/
theorem dueAt (h : OpenedBy R run i allocation trial e) :
    ∃ dueAt, trial.dueAt = some dueAt ∧ e.dueAt = some dueAt := by
  cases h with
  | intro eventId observedAt htrial hsupported =>
    obtain ⟨-, -, -, -, hsup, -, hdue, -⟩ := trialFromAllocation_eq_ok htrial
    rw [hsup] at hsupported
    have hsome : trial.dueAt = some _ :=
      hdue.trans (by rw [UnifiedPaperAllocation.dueAt, if_pos hsupported])
    exact ⟨_, hsome, hsome⟩

/-- An opening carries the figures of a position. -/
theorem priced (h : OpenedBy R run i allocation trial e) : e.Priced := by
  obtain ⟨due, -, hdue⟩ := h.dueAt
  cases h with
  | intro eventId observedAt htrial _ =>
    obtain ⟨-, hcapital, hnotional, -⟩ := trialFromAllocation_eq_ok htrial
    refine ⟨rfl, by rw [hdue]; rfl, rfl, ?_, ?_⟩
    · show 0 < allocation.capitalRequiredUsd
      rw [← hcapital]
      exact trial.capitalRequiredUsd.2
    · show 0 < allocation.notionalUsdPerLeg
      rw [← hnotional]
      exact trial.notionalUsd.2

end OpenedBy

end Openings

/-- `e` opened the position `p` in one of the first `n` cycles. -/
def Opened (R : Runtime) (n : ℕ) (p : Uuid) (e : CanonicalPortfolioEvent) : Prop :=
  ∃ run < n, ∃ i allocation trial, p = R.uuid4 run (.position i)
    ∧ OpenedBy R run i allocation trial e

theorem Opened.mono {R : Runtime} {n m : ℕ} {p : Uuid} {e : CanonicalPortfolioEvent}
    (h : Opened R n p e) (hnm : n ≤ m) : Opened R m p e := by
  obtain ⟨run, hrun, rest⟩ := h
  exact ⟨run, hrun.trans_le hnm, rest⟩

/-! ### Reading the log -/

theorem replay_append (events : List CanonicalPortfolioEvent) (e : CanonicalPortfolioEvent) :
    replay (events ++ [e]) = (replay events).step e := by
  rw [replay, List.foldl_append]
  rfl

/-- What one event does to the opened and closed positions of a replay. -/
theorem Replay.step_opened_closed (r : Replay) (e : CanonicalPortfolioEvent) :
    (r.step e).opened = (match e.eventType, e.positionId with
      | .open, some p => r.opened.set p e
      | _, _ => r.opened)
      ∧ (r.step e).closed = (match e.eventType, e.positionId with
        | .close, some p => r.closed.set p e
        | _, _ => r.closed) := by
  unfold Replay.step
  cases e.eventType <;> cases e.positionId <;> exact ⟨rfl, rfl⟩

/-- `_open_event_map` and the replay read the same openings from a log. -/
theorem openedEvents_eq (events : List CanonicalPortfolioEvent) :
    openedEvents events = (replay events).opened := by
  induction events using List.reverseRecOn with
  | nil => rfl
  | append_singleton events e ih =>
    rw [replay_append, ((replay events).step_opened_closed e).1, ← ih, openedEvents,
      List.foldl_append]
    rfl

theorem closedIds_append (events : List CanonicalPortfolioEvent) (e : CanonicalPortfolioEvent) :
    closedIds (events ++ [e])
      = closedIds events ++ (if e.eventType = .close then e.positionId else none).toList := by
  rw [closedIds, List.filterMap_append]
  rfl

/-- The closed positions of the replay are those close events name. -/
theorem mem_closedIds (events : List CanonicalPortfolioEvent) (p : Uuid) :
    p ∈ closedIds events ↔ (replay events).closed.get? p ≠ none := by
  induction events using List.reverseRecOn with
  | nil => simp [closedIds, replay, Replay.start]
  | append_singleton events e ih =>
    rw [replay_append, ((replay events).step_opened_closed e).2, closedIds_append,
      List.mem_append, ih]
    by_cases htype : e.eventType = .close
    · cases hid : e.positionId with
      | none => simp [htype]
      | some q =>
        by_cases hq : q = p
        · simp [htype, hq]
        · simp [htype, Dict.get?_set_of_ne _ _ hq, Ne.symm hq]
    · cases htype' : e.eventType <;> simp_all

/-- An entry of `_open_event_map` is an open position with its opening. -/
theorem get?_openEventMap (events : List CanonicalPortfolioEvent) (p : Uuid)
    (e : CanonicalPortfolioEvent) :
    (openEventMap events).get? p = some e ↔ (replay events).IsOpen p e := by
  rw [openEventMap, Dict.get?_foldl_erase, openedEvents_eq, Replay.IsOpen]
  by_cases hmem : p ∈ closedIds events
  · rw [if_pos hmem]
    exact ⟨fun h => (by cases h), fun h => absurd h.2 ((mem_closedIds events p).mp hmem)⟩
  · rw [if_neg hmem]
    have hopen : (replay events).closed.get? p = none :=
      not_not.mp (fun h => hmem ((mem_closedIds events p).mpr h))
    exact ⟨fun h => ⟨h, hopen⟩, fun h => h.1⟩

/-! ### The ledger invariant -/

/-- What a cycle may append to a log.  `n` bounds the cycles that have run. -/
inductive Admissible (R : Runtime) (n : ℕ) (events : List CanonicalPortfolioEvent)
    (e : CanonicalPortfolioEvent) : Prop
  /-- An opening of a position the log does not have. -/
  | opening (p : Uuid) (hid : e.positionId = some p) (hopened : Opened R n p e)
      (hfresh : (replay events).opened.get? p = none)
  /-- A close of an open position for its capital and the realized profit. -/
  | closing (p : Uuid) (f : CanonicalPortfolioEvent) (htype : e.eventType = .close)
      (hid : e.positionId = some p) (hopen : (replay events).IsOpen p f)
      (hfamily : truthy e.family = true) (hstrategy : truthy e.strategy = true)
      (hcash : e.cashDeltaUsd = f.capitalReservedUsd + e.realizedPnlDeltaUsd)
  /-- An event that books nothing. -/
  | neutral (htype : e.eventType = .mark ∨ e.eventType = .skip) (hcash : e.cashDeltaUsd = 0)
      (hrealized : e.realizedPnlDeltaUsd = 0)

/-- The logs the first `n` cycles can leave, once there is a genesis event. -/
structure Ledger (R : Runtime) (n : ℕ) (events : List CanonicalPortfolioEvent) : Prop where
  genesis : ∃ eventId observedAt rest, events = genesisEvent eventId observedAt :: rest
  balanced : (replay events).Balanced
  closes : (closedIds events).Nodup
  opened : ∀ p e, (replay events).opened.get? p = some e → Opened R n p e
  listed : ∀ e ∈ events, e.eventType = .open →
    ∃ p, e.positionId = some p ∧ (replay events).opened.get? p = some e

namespace Ledger

variable {R : Runtime} {n : ℕ} {events : List CanonicalPortfolioEvent}
  {e : CanonicalPortfolioEvent}

theorem mono (h : Ledger R n events) {m : ℕ} (hnm : n ≤ m) : Ledger R m events :=
  { h with opened := fun p e he => (h.opened p e he).mono hnm }

/-- The log of the genesis event alone. -/
theorem start (eventId : Uuid) (observedAt : Instant) :
    Ledger R n [genesisEvent eventId observedAt] where
  genesis := ⟨eventId, observedAt, [], rfl⟩
  balanced := balanced_genesis eventId observedAt
  closes := List.nodup_nil
  opened p e h := by cases h
  listed e he htype := by
    rw [List.mem_singleton] at he
    subst he
    cases htype

/-- **Append.** Every admissible event keeps the invariant. An opening adds one position, a
    closing closes an open one, and a mark or a skip leaves both tables as they are. -/
theorem append (h : Ledger R n events) (he : Admissible R n events e) :
    Ledger R n (events ++ [e]) := by
  obtain ⟨eventId, observedAt, rest, hhead⟩ := h.genesis
  have hgenesis : ∃ eventId observedAt rest', events ++ [e] = genesisEvent eventId observedAt :: rest' :=
    ⟨eventId, observedAt, rest ++ [e], by rw [hhead, List.cons_append]⟩
  have hstep := (replay events).step_opened_closed e
  cases he with
  | opening p hid hopened hfresh =>
    obtain ⟨run, hrun, i, allocation, trial, hp, hby⟩ := id hopened
    -- of the opened positions, only the new one changes
    have hget : ∀ q, (replay (events ++ [e])).opened.get? q
        = if p = q then some e else (replay events).opened.get? q := by
      intro q
      rw [replay_append, hstep.1, hby.eventType, hid]
      exact Dict.get?_set _ _ _ _
    refine ⟨hgenesis, ?_, ?_, ?_, ?_⟩
    · rw [replay_append]
      exact h.balanced.step_open hby.eventType hid hfresh hby.priced hby.amounts.1 hby.amounts.2.1
    · rw [closedIds_append, hby.eventType]
      simpa using h.closes
    -- the event of an opened position is its opening
    · intro q f hf
      rw [hget] at hf
      by_cases hq : p = q
      · rw [if_pos hq, Option.some.injEq] at hf
        rw [← hf, ← hq]
        exact hopened
      · rw [if_neg hq] at hf
        exact h.opened q f hf
    -- an opening of the past keeps its place, since its position is another one
    · intro f hf htype
      rcases List.mem_append.mp hf with hf | hf
      · obtain ⟨q, hq, hqget⟩ := h.listed f hf htype
        refine ⟨q, hq, ?_⟩
        have hne : p ≠ q := by
          intro he
          rw [he] at hfresh
          rw [hfresh] at hqget
          cases hqget
        rw [hget, if_neg hne, hqget]
      · rw [List.mem_singleton] at hf
        subst hf
        exact ⟨p, hid, by rw [hget, if_pos rfl]⟩
  -- a closing leaves what was opened as it is, and closes a position that was open
  | closing p f htype hid hopen hfamily hstrategy hcash =>
    have hopened : (replay (events ++ [e])).opened = (replay events).opened := by
      rw [replay_append, hstep.1, htype]
    refine ⟨hgenesis, ?_, ?_, ?_, ?_⟩
    · rw [replay_append]
      exact h.balanced.step_close htype hid hopen hfamily hstrategy hcash
    -- the position was open, so it had not been closed
    · have hnot : p ∉ closedIds events := fun hmem => (mem_closedIds events p).mp hmem hopen.2
      rw [closedIds_append, htype, hid]
      simpa using h.closes.append (List.nodup_singleton p) (by simpa using hnot)
    · rw [hopened]
      exact h.opened
    · intro g hg hgtype
      rw [hopened]
      rcases List.mem_append.mp hg with hg | hg
      · exact h.listed g hg hgtype
      · rw [List.mem_singleton.mp hg, htype] at hgtype
        cases hgtype
  -- marks and skipped allocations move no cash and touch no position
  | neutral htype hcash hrealized =>
    have hne : e.eventType ≠ .open ∧ e.eventType ≠ .close := by
      rcases htype with htype | htype <;> rw [htype] <;> decide
    have hopened : (replay (events ++ [e])).opened = (replay events).opened := by
      rw [replay_append, hstep.1]
      rcases htype with htype | htype <;> rw [htype]
    refine ⟨hgenesis, ?_, ?_, ?_, ?_⟩
    · rw [replay_append]
      exact h.balanced.step_other hne.1 hne.2 hcash hrealized
    · rw [closedIds_append, if_neg hne.2]
      simpa using h.closes
    · rw [hopened]
      exact h.opened
    · intro g hg hgtype
      rw [hopened]
      rcases List.mem_append.mp hg with hg | hg
      · exact h.listed g hg hgtype
      · rw [List.mem_singleton.mp hg] at hgtype
        exact absurd hgtype hne.1

end Ledger

/-! ### Blocks -/

/-- The write that records an event on top of the log of `s`. -/
def eventWrite (R : Runtime) (s : PortfolioStore) (e : CanonicalPortfolioEvent) : Write :=
  .event (EventRow.link R (lastEventHash s.rows) e)

/-- The context is the one a cycle builds from its input. -/
structure CycleContext.Of (ctx : CycleContext) (R : Runtime) (run : ℕ) (input : CycleInput) :
    Prop where
  runtime_eq : ctx.runtime = R
  run_eq : ctx.run = run
  input_eq : ctx.input = input
  collected_eq : ctx.input.collected = .ok ctx.snapshot

/-- An item of a log is the position an allocation was opened as. -/
structure OpensAs (allocation : UnifiedPaperAllocation) (item : Uuid × CanonicalPortfolioEvent) :
    Prop where
  capital : item.2.capitalReservedUsd = allocation.capitalRequiredUsd
  family : item.2.family = some allocation.family
  exposure : item.2.exposureKind = some allocation.exposureKind.value

/-- Since the log of `base`, the allocations `taken` were opened and nothing else changed
    the account. -/
structure Deployed (base s : PortfolioStore) (taken : List UnifiedPaperAllocation) : Prop where
  items : ∃ items, (replay s.events).openItems = (replay base.events).openItems ++ items
    ∧ List.Forall₂ OpensAs taken items
  realized : (replay s.events).realized = (replay base.events).realized

/-- The blocks of writes a cycle is made of.  `base` is the store at the beginning of the
    cycle's allocation half. -/
inductive CycleBlock (R : Runtime) (run : ℕ) (input : CycleInput) (base s : PortfolioStore) :
    List Write → Prop
  | genesis (eventId : Uuid) (observedAt : Instant) (hempty : s.events = []) :
      CycleBlock R run input base s [eventWrite R s (genesisEvent eventId observedAt)]
  | retrial (p : Uuid) (f : CanonicalPortfolioEvent) (trial : PaperAllocationTrial)
      (hopen : (replay s.events).IsOpen p f) (htrial : eventTrial (some f) = some trial) :
      CycleBlock R run input base s [.trial trial]
  | neutral (hne : s.events ≠ []) (e : CanonicalPortfolioEvent)
      (htype : e.eventType = .mark ∨ e.eventType = .skip) (hcash : e.cashDeltaUsd = 0)
      (hrealized : e.realizedPnlDeltaUsd = 0) :
      CycleBlock R run input base s [eventWrite R s e]
  | closing (ctx : CycleContext) (hctx : ctx.Of R run input) (i : ℕ)
      (position : CanonicalPaperPosition) (f e : CanonicalPortfolioEvent)
      (outcome : Option PaperAllocationOutcome)
      (hopen : (replay s.events).IsOpen position.positionId f)
      (hdescribes : Describes (position.positionId, f) position)
      (htrial : ctx.positionTrial position = eventTrial (some f))
      (hverdict : ctx.verdict i position = .ok (.close outcome e)) :
      CycleBlock R run input base s ((outcome.map Write.outcome).toList ++ [eventWrite R s e])
  | opening (hne : s.events ≠ []) (i : ℕ) (plan : UnifiedPaperAllocationPlan)
      (hplan : input.boundedAllocationPlan (max 0 (replay base.events).cash) = .ok plan)
      (seen rest taken : List UnifiedPaperAllocation) (allocation : UnifiedPaperAllocation)
      (hallocations : plan.allocations = seen ++ allocation :: rest)
      (htaken : taken.Sublist seen) (hdeployed : Deployed base s taken)
      (trial : PaperAllocationTrial) (e : CanonicalPortfolioEvent)
      (hopened : OpenedBy R run i allocation trial e)
      (hfresh : (replay s.events).opened.get? (R.uuid4 run (.position i)) = none) :
      CycleBlock R run input base s [eventWrite R s e, .trial trial]
  | snapshot (snapshot : CanonicalPaperPortfolioSnapshot) :
      CycleBlock R run input base s [.snapshot snapshot]
  | integrity (snapshot : PortfolioIntegritySnapshot) :
      CycleBlock R run input base s [.integrity snapshot]

/-- The two ways a verdict closes a position. A position without a universal trial closes on a
    quote at or after its due time; a universal one closes on the outcome of its settlement,
    with that outcome recorded first. -/
theorem CycleContext.verdict_close {ctx : CycleContext} {i : ℕ}
    {position : CanonicalPaperPosition} {outcome : Option PaperAllocationOutcome}
    {e : CanonicalPortfolioEvent} (h : ctx.verdict i position = .ok (.close outcome e)) :
    ((∀ trial, ctx.positionTrial position = some trial → isUniversal trial = false)
        ∧ ∃ quote, outcome = none ∧ ctx.quoteFor position = some quote
          ∧ position.dueAt ≤ quote.observedAt
          ∧ e = closeEvent (ctx.runtime.uuid4 ctx.run (.accountingEvent i)) position quote
            quote.observedAt)
      ∨ ∃ trial o, outcome = some o ∧ ctx.positionTrial position = some trial
        ∧ isUniversal trial = true ∧ position.dueAt ≤ ctx.snapshot.completedAt
        ∧ ctx.settleUniversalPosition (ctx.runtime.uuid4 ctx.run (.outcome i)) trial = .ok (some o)
        ∧ e = closeFromOutcome (ctx.runtime.uuid4 ctx.run (.accountingEvent i)) position o := by
  -- without a universal trial it takes a quote that is due
  have hquote : ∀ {id}, ctx.quoteVerdict id position = .close outcome e →
      ∃ quote, outcome = none ∧ ctx.quoteFor position = some quote
        ∧ position.dueAt ≤ quote.observedAt ∧ e = closeEvent id position quote quote.observedAt := by
    intro id hv
    unfold CycleContext.quoteVerdict at hv
    split at hv
    · cases hv
    · rename_i quote hq
      dsimp only at hv
      split at hv
      · cases hv
      · split at hv
        · cases hv
        · split at hv
          · rename_i hdue
            injection hv with ho he
            exact ⟨quote, ho.symm, hq, hdue, he.symm⟩
          · cases hv
  unfold CycleContext.verdict at h
  split at h
  · rename_i trial htrial
    split at h
    -- a universal trial: due, settled, and closed from the outcome
    · rename_i huniversal
      right
      unfold CycleContext.universalVerdict at h
      split at h
      · rename_i hdue
        obtain ⟨settled, hsettled, h⟩ := bind_eq_ok h
        cases settled with
        | none => cases h
        | some o =>
          injection h with h
          injection h with ho he
          exact ⟨trial, o, ho.symm, htrial, huniversal, hdue, hsettled, he.symm⟩
      · dsimp only at h
        split at h <;> cases h
    · rename_i huniversal
      injection h with h
      refine Or.inl ⟨fun t ht => ?_, hquote h⟩
      rw [htrial, Option.some.injEq] at ht
      rw [← ht]
      simpa using huniversal
  · rename_i hnone
    injection h with h
    refine Or.inl ⟨fun t ht => ?_, hquote h⟩
    rw [hnone] at ht
    cases ht

/-- The outcome of a settled position is one of its trial. -/
theorem trialId_of_settled {ctx : CycleContext} {outcomeId : Uuid} {trial : PaperAllocationTrial}
    {o : PaperAllocationOutcome} (h : ctx.settleUniversalPosition outcomeId trial = .ok (some o)) :
    o.trialId = trial.trialId := by
  unfold CycleContext.settleUniversalPosition at h
  split at h
  · cases h
  · obtain ⟨books, -, h⟩ := bind_eq_ok h
    split at h
    · obtain ⟨outcome, houtcome, hspec⟩ := settleTrial_total ctx.runtime.upper ctx.input.evidence
        outcomeId trial { ctx.snapshot with orderBooks := books }
      rw [h] at houtcome
      injection houtcome with houtcome
      exact hspec o houtcome.symm
    · cases h

/-- A close event carries the texts of its position and credits its capital and profit. -/
theorem CycleContext.verdict_close_event {ctx : CycleContext} {i : ℕ}
    {position : CanonicalPaperPosition} {outcome : Option PaperAllocationOutcome}
    {e : CanonicalPortfolioEvent} (h : ctx.verdict i position = .ok (.close outcome e)) :
    e.eventType = .close ∧ e.positionId = some position.positionId
      ∧ e.family = some position.family ∧ e.strategy = some position.strategy
      ∧ e.cashDeltaUsd = position.capitalReservedUsd + e.realizedPnlDeltaUsd
      ∧ e.portfolioId = canonicalPortfolioId := by
  rcases ctx.verdict_close h with
    ⟨-, quote, -, -, -, rfl⟩ | ⟨trial, o, -, -, -, -, -, rfl⟩
  · exact ⟨rfl, rfl, rfl, rfl, rfl, rfl⟩
  · exact ⟨rfl, rfl, rfl, rfl, rfl, rfl⟩

/-- A mark books nothing. Both ways of marking, by a quote and by the exit prices of a universal
    trial, build the event with zero cash and zero realised profit. -/
theorem CycleContext.verdict_mark {ctx : CycleContext} {i : ℕ}
    {position : CanonicalPaperPosition} {v : Verdict} {mark : CanonicalPortfolioEvent}
    (h : ctx.verdict i position = .ok v) (hmark : v.mark = some mark) :
    mark.eventType = .mark ∧ mark.cashDeltaUsd = 0 ∧ mark.realizedPnlDeltaUsd = 0
      ∧ mark.portfolioId = canonicalPortfolioId := by
  -- a position without a universal trial is marked by its quote
  have hquote : ∀ {id}, (ctx.quoteVerdict id position).mark = some mark →
      ∃ quote, mark = markEvent id position quote quote.observedAt := by
    intro id hv
    unfold CycleContext.quoteVerdict at hv
    split at hv
    · cases hv
    · rename_i quote hq
      refine ⟨quote, ?_⟩
      dsimp only at hv
      split_ifs at hv <;> simp_all [Verdict.mark]
  -- a universal one by the prices its trial would exit at
  have huniversal : ∀ {id trial m}, ctx.markUniversal id position trial = some m →
      m.eventType = .mark ∧ m.cashDeltaUsd = 0 ∧ m.realizedPnlDeltaUsd = 0
        ∧ m.portfolioId = canonicalPortfolioId := by
    intro id trial m hm
    simp only [CycleContext.markUniversal, Option.bind_eq_bind, Option.bind_eq_some_iff,
      Option.pure_def, Option.some.injEq] at hm
    obtain ⟨_, -, _, -, _, -, _, -, rfl⟩ := hm
    exact ⟨rfl, rfl, rfl, rfl⟩
  unfold CycleContext.verdict at h
  split at h
  · rename_i trial htrial
    split at h
    · unfold CycleContext.universalVerdict at h
      split at h
      · obtain ⟨settled, -, h⟩ := bind_eq_ok h
        cases settled with
        | none =>
          injection h with h
          subst h
          cases hmark
        | some o =>
          injection h with h
          subst h
          cases hmark
      · dsimp only at h
        split at h
        · injection h with h
          subst h
          cases hmark
        · rename_i m hm
          injection h with h
          subst h
          have heq : mark = m := by
            simp only [Verdict.mark] at hmark
            split at hmark
            · exact (Option.some.inj hmark).symm
            · cases hmark
          exact heq ▸ huniversal hm
    · injection h with h
      subst h
      obtain ⟨quote, rfl⟩ := hquote hmark
      exact ⟨rfl, rfl, rfl, rfl⟩
  · injection h with h
    subst h
    obtain ⟨quote, rfl⟩ := hquote hmark
    exact ⟨rfl, rfl, rfl, rfl⟩

/-! ### What a block leaves -/

/-- The logs between the writes of a cycle: empty, or with the ledger invariant. -/
def Sound (R : Runtime) (n : ℕ) (s : PortfolioStore) : Prop :=
  s.events = [] ∨ Ledger R n s.events

/-- Recording a row appends its event unless the event's id is stored. -/
theorem commit_row (s : PortfolioStore) (row : EventRow) :
    (Durable.commit s (Write.event row)).events = s.events
      ∨ (Durable.commit s (Write.event row)).events = s.events ++ [row.event] := by
  show (insertEventRow s.rows _).map EventRow.event = _
    ∨ (insertEventRow s.rows _).map EventRow.event = _
  unfold insertEventRow
  split
  · exact Or.inl rfl
  · exact Or.inr List.map_append

/-- Recording an event appends it unless its id is stored. -/
theorem commit_eventWrite (R : Runtime) (s s' : PortfolioStore) (e : CanonicalPortfolioEvent) :
    (Durable.commit s (eventWrite R s' e)).events = s.events
      ∨ (Durable.commit s (eventWrite R s' e)).events = s.events ++ [e] :=
  commit_row s (EventRow.link R (lastEventHash s'.rows) e)

/-- Recording an event into an empty log appends it. -/
theorem commit_eventWrite_nil (R : Runtime) {s : PortfolioStore} (e : CanonicalPortfolioEvent)
    (h : s.events = []) : (Durable.commit s (eventWrite R s e)).events = [e] := by
  have hrows : s.rows = [] := List.map_eq_nil_iff.mp h
  show (insertEventRow s.rows _).map EventRow.event = _
  rw [hrows]
  rfl

/-- What the event of a block may be: the genesis event of an empty log, or an admissible
    event. -/
def Appends (R : Runtime) (n : ℕ) (events : List CanonicalPortfolioEvent)
    (e : CanonicalPortfolioEvent) : Prop :=
  (events = [] ∧ ∃ eventId observedAt, e = genesisEvent eventId observedAt)
    ∨ (events ≠ [] ∧ Admissible R n events e)

/-- An opening is that of an allocation of some plan the cycle was given. -/
def Planned (R : Runtime) (run : ℕ) (input : CycleInput) (e : CanonicalPortfolioEvent) : Prop :=
  e.eventType = .open → ∃ cash plan allocation i trial,
    input.boundedAllocationPlan cash = .ok plan ∧ allocation ∈ plan.allocations
      ∧ OpenedBy R run i allocation trial e

/-- An event that does not open is of no plan. -/
private theorem planned_of_ne {R : Runtime} {run : ℕ} {input : CycleInput}
    {e : CanonicalPortfolioEvent} (h : e.eventType ≠ .open) : Planned R run input e :=
  fun hopen => absurd hopen h

/-- The position of a closing block is open in a log that is not empty. -/
private theorem ne_nil_of_isOpen {events : List CanonicalPortfolioEvent} {p : Uuid}
    {f : CanonicalPortfolioEvent} (h : (replay events).IsOpen p f) : events ≠ [] := by
  rintro rfl
  cases h.1

/-- Writes that leave the event log alone. -/
def Quiet (ws : List Write) : Prop :=
  ∀ w ∈ ws, ∀ s : PortfolioStore, (Durable.commit s w).rows = s.rows

theorem Quiet.rows {ws : List Write} (h : Quiet ws) (s : PortfolioStore) :
    (commitAll s ws).rows = s.rows := by
  induction ws generalizing s with
  | nil => rfl
  | cons w ws ih =>
    rw [commitAll_cons, ih (fun v hv => h v (List.mem_cons_of_mem w hv)),
      h w List.mem_cons_self]

theorem Quiet.take {ws : List Write} (h : Quiet ws) (k : ℕ) : Quiet (ws.take k) :=
  fun w hw => h w (List.mem_of_mem_take hw)

theorem quiet_trial (trial : PaperAllocationTrial) : Quiet [.trial trial] := by
  intro w hw s
  rw [List.mem_singleton.mp hw]
  rfl

theorem quiet_outcome (outcome : Option PaperAllocationOutcome) :
    Quiet (outcome.map Write.outcome).toList := by
  intro w hw s
  cases outcome with
  | none => cases hw
  | some o =>
    rw [List.mem_singleton.mp hw]
    rfl

theorem quiet_snapshot (snapshot : CanonicalPaperPortfolioSnapshot) :
    Quiet [.snapshot snapshot] := by
  intro w hw s
  rw [List.mem_singleton.mp hw]
  rfl

theorem quiet_integrity (snapshot : PortfolioIntegritySnapshot) :
    Quiet [.integrity snapshot] := by
  intro w hw s
  rw [List.mem_singleton.mp hw]
  show (PortfolioStore.commit s (.integrity snapshot)).rows = s.rows
  simp only [PortfolioStore.commit]
  split
  · rfl
  · rfl

/-- **Block shape.** A block leaves the log alone, or records one event, which is the
    genesis event of an empty log or admissible, among writes that leave the log alone. -/
theorem CycleBlock.shape {R : Runtime} {n : ℕ} {input : CycleInput} {base s : PortfolioStore}
    {block : List Write} (h : CycleBlock R n input base s block) :
    Quiet block ∨ ∃ pre e post, block = pre ++ eventWrite R s e :: post ∧ Quiet pre ∧ Quiet post
      ∧ Appends R (n + 1) s.events e ∧ Planned R n input e := by
  have hnil : Quiet [] := fun w hw => by cases hw
  cases h with
  | genesis eventId observedAt hempty =>
    exact Or.inr ⟨[], _, [], rfl, hnil, hnil, Or.inl ⟨hempty, eventId, observedAt, rfl⟩,
      planned_of_ne (fun h => by cases h)⟩
  -- a trial rewritten touches no event
  | retrial p f trial hopen htrial => exact Or.inl (quiet_trial trial)
  -- a mark or a skip opens nothing and moves neither cash nor profit
  | neutral hne e htype hcash hrealized =>
    have hopen : e.eventType ≠ .open := by
      rcases htype with htype | htype <;> rw [htype] <;> decide
    exact Or.inr ⟨[], e, [], rfl, hnil, hnil, Or.inr ⟨hne, .neutral htype hcash hrealized⟩,
      planned_of_ne hopen⟩
  -- the outcome is stored before its close event is, so the block starts with a quiet write
  | closing ctx hctx i position f e outcome hopen hdescribes htrial hverdict =>
    obtain ⟨htype, hid, hfamily, hstrategy, hcash, -⟩ := ctx.verdict_close_event hverdict
    have hfamily' : truthy e.family = true := by
      rw [hfamily]
      simpa [truthy] using hdescribes.familyText
    have hstrategy' : truthy e.strategy = true := by
      rw [hstrategy]
      simpa [truthy] using hdescribes.strategyText
    rw [hdescribes.capital] at hcash
    exact Or.inr ⟨_, e, [], rfl, quiet_outcome outcome, hnil,
      Or.inr ⟨ne_nil_of_isOpen hopen, .closing _ f htype hid hopen hfamily' hstrategy' hcash⟩,
      planned_of_ne (by rw [htype]; decide)⟩
  -- the open event is admissible because the position id was drawn in this cycle
  | opening hne i plan hplan seen rest taken allocation hallocations _ _ trial e hopened hfresh =>
    have hmem : allocation ∈ plan.allocations := by
      rw [hallocations]
      exact List.mem_append_right _ List.mem_cons_self
    exact Or.inr ⟨[], e, [.trial trial], rfl, hnil, quiet_trial trial,
      Or.inr ⟨hne, .opening _ hopened.positionId
        ⟨n, Nat.lt_succ_self n, i, allocation, trial, rfl, hopened⟩ hfresh⟩,
      fun _ => ⟨_, plan, allocation, i, trial, hplan, hmem, hopened⟩⟩
  | snapshot snapshot => exact Or.inl (quiet_snapshot snapshot)
  | integrity snapshot => exact Or.inl (quiet_integrity snapshot)

/-- The only block that records an opening records it first. Its second write is the trial, and
    every other block is excluded by its event. -/
theorem CycleBlock.opening_cases {R : Runtime} {n : ℕ} {input : CycleInput}
    {base s : PortfolioStore} {block : List Write} (h : CycleBlock R n input base s block) {j : ℕ}
    {w : Write} {e : CanonicalPortfolioEvent} (hj : block[j]? = some w) (he : w.event? = some e)
    (hopen : e.eventType = .open) :
    j = 0 ∧ ∃ i plan seen rest taken allocation trial, s.events ≠ []
      ∧ input.boundedAllocationPlan (max 0 (replay base.events).cash) = .ok plan
      ∧ plan.allocations = seen ++ allocation :: rest ∧ taken.Sublist seen
      ∧ Deployed base s taken ∧ OpenedBy R n i allocation trial e := by
  have hmem : w ∈ block := List.mem_of_getElem? hj
  have hevent : ∀ f, w = eventWrite R s f → f = e := by
    rintro f rfl
    exact Option.some.inj he
  cases h with
  -- the genesis, a trial stored again and a neutral event open nothing
  | genesis eventId observedAt hempty =>
    rw [← hevent _ (List.mem_singleton.mp hmem)] at hopen
    cases hopen
  | retrial p f trial =>
    rw [List.mem_singleton.mp hmem] at he
    cases he
  | neutral hne f htype =>
    rw [hevent f (List.mem_singleton.mp hmem), hopen] at htype
    rcases htype with htype | htype <;> cases htype
  -- a closing block has an outcome or a close
  | closing ctx hctx i position f g outcome hisOpen hdescribes htrial hverdict =>
    rcases List.mem_append.mp hmem with hmem | hmem
    · cases outcome with
      | none => cases hmem
      | some o =>
        rw [List.mem_singleton.mp hmem] at he
        cases he
    · rw [← hevent g (List.mem_singleton.mp hmem), (ctx.verdict_close_event hverdict).1] at hopen
      cases hopen
  -- an opening block opens first and stores its trial second
  | opening hne i plan hplan seen rest taken allocation hallocations htaken hdeployed trial f
      hopened hfresh =>
    cases j with
    | zero =>
      obtain rfl := hevent f (Option.some.inj hj).symm
      exact ⟨rfl, i, plan, seen, rest, taken, allocation, trial, hne, hplan, hallocations, htaken,
        hdeployed, hopened⟩
    | succ j =>
      have hw : w ∈ [Write.trial trial] := List.mem_of_getElem? hj
      rw [List.mem_singleton.mp hw] at he
      cases he
  | snapshot snapshot =>
    rw [List.mem_singleton.mp hmem] at he
    cases he
  | integrity snapshot =>
    rw [List.mem_singleton.mp hmem] at he
    cases he

/-- The only block that records a close records it last, after the outcome it was built from. A
    block of one write that is no close is excluded by its event, and an opening block by the
    kind of its first event. -/
theorem CycleBlock.closing_cases {R : Runtime} {n : ℕ} {input : CycleInput}
    {base s : PortfolioStore} {block : List Write} (h : CycleBlock R n input base s block) {j : ℕ}
    {w : Write} {e : CanonicalPortfolioEvent} (hj : block[j]? = some w) (he : w.event? = some e)
    (hclose : e.eventType = .close) :
    ∃ (ctx : CycleContext) (i : ℕ) (position : CanonicalPaperPosition) (f : CanonicalPortfolioEvent)
      (outcome : Option PaperAllocationOutcome),
      (replay s.events).IsOpen position.positionId f
      ∧ ctx.positionTrial position = eventTrial (some f)
      ∧ ctx.verdict i position = .ok (.close outcome e)
      ∧ block = (outcome.map Write.outcome).toList ++ [eventWrite R s e]
      ∧ j = outcome.toList.length := by
  have hmem : w ∈ block := List.mem_of_getElem? hj
  have hevent : ∀ f, w = eventWrite R s f → f = e := by
    rintro f rfl
    exact Option.some.inj he
  cases h with
  | genesis eventId observedAt hempty =>
    rw [← hevent _ (List.mem_singleton.mp hmem)] at hclose
    cases hclose
  | retrial p f trial =>
    rw [List.mem_singleton.mp hmem] at he
    cases he
  | neutral hne f htype =>
    rw [hevent f (List.mem_singleton.mp hmem), hclose] at htype
    rcases htype with htype | htype <;> cases htype
  -- a closing block: without an outcome the close is its only write, else its second
  | closing ctx hctx i position f g outcome hisOpen hdescribes htrial hverdict =>
    cases outcome with
    | none =>
      have hw : w ∈ [eventWrite R s g] := hmem
      obtain rfl := hevent g (List.mem_singleton.mp hw)
      refine ⟨ctx, i, position, f, none, hisOpen, htrial, hverdict, rfl, ?_⟩
      have hlt := (List.getElem?_eq_some_iff.mp hj).1
      exact Nat.lt_one_iff.mp hlt
    | some o =>
      cases j with
      | zero =>
        rw [← Option.some.inj hj] at he
        cases he
      | succ j =>
        have hw : w ∈ [eventWrite R s g] := List.mem_of_getElem? hj
        obtain rfl := hevent g (List.mem_singleton.mp hw)
        refine ⟨ctx, i, position, f, some o, hisOpen, htrial, hverdict, rfl, ?_⟩
        have hlt := (List.getElem?_eq_some_iff.mp hj).1
        exact congrArg (· + 1) (Nat.lt_one_iff.mp (Nat.lt_of_succ_lt_succ hlt))
  | opening hne i plan hplan seen rest taken allocation hallocations htaken hdeployed trial f
      hopened hfresh =>
    rcases List.mem_cons.mp hmem with hw | hw
    · rw [← hevent f hw, hopened.eventType] at hclose
      cases hclose
    · rw [List.mem_singleton.mp hw] at he
      cases he
  | snapshot snapshot =>
    rw [List.mem_singleton.mp hmem] at he
    cases he
  | integrity snapshot =>
    rw [List.mem_singleton.mp hmem] at he
    cases he

/-- A quiet write records no event. -/
theorem Quiet.event? {ws : List Write} (h : Quiet ws) {w : Write} (hw : w ∈ ws) :
    w.event? = none := by
  cases w with
  | event row =>
    have hrows : (Durable.commit (⟨[], [], []⟩ : PortfolioStore) (Write.event row)).rows = [] :=
      h _ hw _
    cases hrows
  | snapshot => rfl
  | integrity => rfl
  | trial => rfl
  | outcome => rfl

/-- **Events of a block.** The event a block records is the genesis event of an empty log
    or admissible, in the store it is recorded in. -/
theorem CycleBlock.appends {R : Runtime} {n : ℕ} {input : CycleInput} {base s : PortfolioStore}
    {block : List Write} (h : CycleBlock R n input base s block) {j : ℕ} {w : Write}
    {e : CanonicalPortfolioEvent} (hj : block[j]? = some w) (he : w.event? = some e) :
    Appends R (n + 1) (commitAll s (block.take j)).events e := by
  have hmem : w ∈ block := List.mem_of_getElem? hj
  rcases h.shape with hquiet | ⟨pre, f, post, rfl, hpre, hpost, hf, -⟩
  · rw [hquiet.event? hmem] at he
    cases he
  · rcases Nat.lt_trichotomy j pre.length with hlt | rfl | hgt
    · rw [List.getElem?_append_left hlt] at hj
      rw [hpre.event? (List.mem_of_getElem? hj)] at he
      cases he
    · rw [List.getElem?_append_right (le_refl _), Nat.sub_self] at hj
      rw [← Option.some.inj hj] at he
      obtain rfl : f = e := Option.some.inj he
      have hsame : (commitAll s pre).events = s.events :=
        congrArg (List.map EventRow.event) (hpre.rows s)
      rw [List.take_left, hsame]
      exact hf
    · rw [List.getElem?_append_right (Nat.le_of_lt hgt)] at hj
      obtain ⟨m, hm⟩ : ∃ m, j - pre.length = m + 1 := ⟨j - pre.length - 1, by omega⟩
      rw [hm] at hj
      have hw : w ∈ post := List.mem_of_getElem? hj
      rw [hpost.event? hw] at he
      cases he

/-- A prefix of a list with a marked element stops before it or goes past it. -/
private theorem take_split {α : Type} (pre post : List α) (a : α) (k : ℕ) :
    (∃ j, (pre ++ a :: post).take k = pre.take j)
      ∨ ∃ j, (pre ++ a :: post).take k = pre ++ a :: post.take j := by
  rw [List.take_append]
  rcases Nat.lt_or_ge pre.length k with hlt | hge
  · refine Or.inr ⟨k - pre.length - 1, ?_⟩
    obtain ⟨m, hm⟩ : ∃ m, k - pre.length = m + 1 := ⟨k - pre.length - 1, by omega⟩
    rw [List.take_of_length_le hlt.le, hm, List.take_succ_cons, Nat.add_sub_cancel]
  · refine Or.inl ⟨k, ?_⟩
    rw [Nat.sub_eq_zero_of_le hge, List.take_zero, List.append_nil]

/-- A prefix of a block that records one event among quiet writes leaves the log as it was,
    or as the record of the event leaves it. -/
theorem events_take {R : Runtime} {pre post : List Write} (hpre : Quiet pre) (hpost : Quiet post)
    (s s' : PortfolioStore) (e : CanonicalPortfolioEvent) (k : ℕ) :
    (commitAll s ((pre ++ eventWrite R s' e :: post).take k)).events = s.events
      ∨ (commitAll s ((pre ++ eventWrite R s' e :: post).take k)).events
        = (Durable.commit s (eventWrite R s' e)).events := by
  have hsame : ∀ {ws}, Quiet ws → ∀ t : PortfolioStore, (commitAll t ws).events = t.events :=
    fun hws t => congrArg (List.map EventRow.event) (hws.rows t)
  rcases take_split pre post (eventWrite R s' e) k with ⟨j, hj⟩ | ⟨j, hj⟩
  · rw [hj]
    exact Or.inl (hsame (hpre.take j) s)
  · rw [hj, commitAll_append, commitAll_cons, hsame (hpost.take j)]
    right
    show (insertEventRow (commitAll s pre).rows _).map EventRow.event
      = (insertEventRow s.rows _).map EventRow.event
    rw [hpre.rows s]

/-- **Block effect.** Any prefix of a block leaves the log as it was or with one more event,
    which is the genesis event of an empty log or admissible. -/
theorem CycleBlock.effect {R : Runtime} {n : ℕ} {input : CycleInput} {base s : PortfolioStore}
    {block : List Write} (h : CycleBlock R n input base s block) (k : ℕ) :
    (commitAll s (block.take k)).events = s.events
      ∨ ∃ e, (commitAll s (block.take k)).events = s.events ++ [e]
        ∧ Appends R (n + 1) s.events e ∧ Planned R n input e ∧ ∃ w ∈ block, w.event? = some e := by
  rcases h.shape with hquiet | ⟨pre, e, post, rfl, hpre, hpost, he⟩
  · exact Or.inl (congrArg (List.map EventRow.event) ((hquiet.take k).rows s))
  · rcases events_take hpre hpost s s e k with heq | heq
    · exact Or.inl heq
    · rcases commit_eventWrite R s s e with hc | hc
      · exact Or.inl (heq.trans hc)
      · exact Or.inr ⟨e, heq.trans hc, he.1, he.2, eventWrite R s e,
          List.mem_append_right _ List.mem_cons_self, rfl⟩

/-- **Block invariant.** Any prefix of a block keeps the log sound. -/
theorem CycleBlock.sound {R : Runtime} {n : ℕ} {input : CycleInput} {base s : PortfolioStore}
    {block : List Write} (h : CycleBlock R n input base s block) (hs : Sound R (n + 1) s) (k : ℕ) :
    Sound R (n + 1) (commitAll s (block.take k)) := by
  rcases h.effect k with heq | ⟨e, heq, he⟩
  · unfold Sound
    rw [heq]
    exact hs
  · right
    rw [heq]
    rcases he.1 with ⟨hempty, eventId, observedAt, rfl⟩ | ⟨hne, hadm⟩
    · rw [hempty]
      exact Ledger.start eventId observedAt
    · exact (hs.resolve_left hne).append hadm

end InefficiencyEngine.Portfolio
