import InefficiencyEngine.Portfolio.Blocks

namespace InefficiencyEngine.Portfolio

open Prog

/-!
# What a cycle writes, and the ledgers cycles reach

`runCycle_spec` derives once from the code that a cycle started on a sound log writes
blocks of `CycleBlock` and leaves a sound log; `Reachable` are the stores any number of
cycles can leave, each of them possibly cut off at a write, and `Reachable.sound` is the
invariant of all of them.
-/

/-! ### The specification of a cycle -/

/-- The log within the `n`-th cycle: the ledger invariant, and no position yet under the
    ids the cycle draws from the `k`-th allocation on. -/
structure Working (R : Runtime) (n k : ℕ) (s : PortfolioStore) : Prop where
  ledger : Ledger R (n + 1) s.events
  fresh : ∀ j, k ≤ j → (replay s.events).opened.get? (R.uuid4 n (.position j)) = none

section Cycle

variable {R : Runtime} {n k : ℕ} {input : CycleInput} {base s : PortfolioStore}

/-- A log that is not the current cycle's has none of its positions. -/
theorem Ledger.working (h : Ledger R n s.events) : Working R n 0 s where
  ledger := h.mono (Nat.le_succ n)
  fresh j _ := by
    cases hget : (replay s.events).opened.get? (R.uuid4 n (.position j)) with
    | none => rfl
    | some e =>
      obtain ⟨run, hrun, i, -, -, hp, -⟩ := h.opened _ e hget
      exact absurd (R.uuid4_injective hp).1 (Nat.ne_of_gt hrun)

/-- Recording an event of the canonical portfolio is one write. -/
theorem recordEvent_run {e : CanonicalPortfolioEvent} (h : e.portfolioId = canonicalPortfolioId) :
    recordEvent R e s = ([eventWrite R s e], .ok ()) := by
  simp only [recordEvent, h, ne_eq, not_true_eq_false, if_false]
  rfl

/-- A log with its genesis event is left alone. -/
theorem ensureGenesis_run (h : Ledger R n s.events) (eventId : Uuid) (observedAt : Instant) :
    ensureGenesis R eventId observedAt s = ([], .ok ()) := by
  obtain ⟨id, at', rest, hevents⟩ := h.genesis
  rw [ensureGenesis, run_get_bind, hevents]
  show lift (checkGenesis (genesisEvent id at')) s = _
  rw [checkGenesis_genesisEvent, run_lift]

/-- An empty log gets its genesis event. -/
theorem ensureGenesis_run_nil (h : s.events = []) (eventId : Uuid) (observedAt : Instant) :
    ensureGenesis R eventId observedAt s
      = ([eventWrite R s (genesisEvent eventId observedAt)], .ok ()) := by
  rw [ensureGenesis, run_get_bind, h]
  exact recordEvent_run rfl

theorem spec_ensureGenesis (eventId : Uuid) (observedAt : Instant) :
    Spec (Sound R n) (ensureGenesis R eventId observedAt) (CycleBlock R n input base)
      (fun _ => Working R n 0) := by
  refine spec_of_forall (fun s hs => ?_)
  rcases hs with hempty | hledger
  · have hrun := ensureGenesis_run_nil (R := R) hempty eventId observedAt
    refine spec_block ?_ ?_
    · rintro t rfl
      rw [hrun]
      exact .genesis eventId observedAt hempty
    · rintro t u rfl -
      have hevents : (final (ensureGenesis R eventId observedAt) t).events
          = [genesisEvent eventId observedAt] := by
        rw [Prog.final, hrun]
        exact commit_eventWrite_nil R _ hempty
      refine ⟨?_, ?_⟩
      · rw [hevents]
        exact Ledger.start eventId observedAt
      · intro j _
        rw [hevents]
        rfl
  · refine spec_silent ?_ ?_
    · rintro t rfl
      rw [ensureGenesis_run hledger]
    · rintro t u rfl -
      exact hledger.working

/-- The account of a log with the ledger invariant is computed without a write. -/
theorem currentState_run (h : Ledger R n s.events) (eventId : Uuid) (observedAt : Instant) :
    ∃ state, accountState s.events s.snapshots observedAt = .ok state
      ∧ currentState R eventId observedAt s = ([], .ok state) := by
  obtain ⟨state, -, hstate, -⟩ := h.balanced.account s.snapshots observedAt
  refine ⟨state, hstate, ?_⟩
  rw [currentState, run_bind_of_silent (ensureGenesis_run h eventId observedAt), run_get_bind,
    run_lift, hstate]

theorem spec_currentState (eventId : Uuid) (observedAt : Instant) :
    Spec (Working R n k) (currentState R eventId observedAt) (CycleBlock R n input base)
      (fun state s => Working R n k s ∧ accountState s.events s.snapshots observedAt = .ok state) := by
  refine spec_silent ?_ ?_
  · intro s hs
    obtain ⟨state, -, hrun⟩ := currentState_run hs.ledger eventId observedAt
    rw [hrun]
  · intro s state hs hres
    obtain ⟨state', hstate, hrun⟩ := currentState_run hs.ledger eventId observedAt
    rw [hrun] at hres
    injection hres with hres
    subst hres
    exact ⟨hs, hstate⟩

/-! ### The accounting loop -/

/-- An event that does not open leaves the opened positions alone. -/
theorem opened_append {events : List CanonicalPortfolioEvent} {e : CanonicalPortfolioEvent}
    (h : e.eventType ≠ .open) : (replay (events ++ [e])).opened = (replay events).opened := by
  rw [replay_append, ((replay events).step_opened_closed e).1]
  split
  · exact absurd ‹e.eventType = .open› h
  · rfl

/-- A position stays open over an event that does not open and does not close it. -/
theorem isOpen_append {events : List CanonicalPortfolioEvent} {e f : CanonicalPortfolioEvent}
    {p : Uuid} (h : (replay events).IsOpen p f) (hopen : e.eventType ≠ .open)
    (hclose : e.eventType = .close → e.positionId ≠ some p) :
    (replay (events ++ [e])).IsOpen p f := by
  refine ⟨by rw [opened_append hopen]; exact h.1, ?_⟩
  rw [replay_append, ((replay events).step_opened_closed e).2]
  split
  · rename_i q htype hid
    have hne : q ≠ p := fun he => hclose htype (by rw [hid, he])
    exact (Dict.get?_set_of_ne _ _ hne).trans h.2
  · exact h.2

/-- A position of the accounting loop that is still open under the opening it was listed
    with. -/
def StillOpen (ctx : CycleContext) (position : CanonicalPaperPosition) (s : PortfolioStore) :
    Prop :=
  ∃ f, (replay s.events).IsOpen position.positionId f
    ∧ Describes (position.positionId, f) position ∧ ctx.positionTrial position = eventTrial (some f)

/-- What an iteration about `position` maintains: the log, and the positions still to come. -/
def AccountingAt (R : Runtime) (n : ℕ) (ctx : CycleContext)
    (others : List CanonicalPaperPosition) (s : PortfolioStore) : Prop :=
  Working R n 0 s ∧ ∀ q ∈ others, StillOpen ctx q s

/-- Recording a mark, skip or close keeps the log and the ids still to be drawn. -/
theorem Working.record (h : Working R n k s) {e : CanonicalPortfolioEvent}
    (hsound : Sound R (n + 1) (Durable.commit s (eventWrite R s e))) (hopen : e.eventType ≠ .open) :
    Working R n k (Durable.commit s (eventWrite R s e)) := by
  rcases commit_eventWrite R s s e with heq | heq
  · exact ⟨by rw [heq]; exact h.ledger, fun j hj => by rw [heq]; exact h.fresh j hj⟩
  · refine ⟨hsound.resolve_left (by rw [heq]; simp), fun j hj => ?_⟩
    rw [heq, opened_append hopen]
    exact h.fresh j hj

/-- Recording a mark, skip or close keeps the log and the positions it does not name. -/
theorem AccountingAt.record {ctx : CycleContext} {others : List CanonicalPaperPosition}
    (h : AccountingAt R n ctx others s) {e : CanonicalPortfolioEvent}
    (hsound : Sound R (n + 1) (Durable.commit s (eventWrite R s e))) (hopen : e.eventType ≠ .open)
    (hclose : e.eventType = .close → ∀ q ∈ others, e.positionId ≠ some q.positionId) :
    AccountingAt R n ctx others (Durable.commit s (eventWrite R s e)) := by
  refine ⟨h.1.record hsound hopen, fun q hq => ?_⟩
  obtain ⟨f, hf, hrest⟩ := h.2 q hq
  refine ⟨f, ?_, hrest⟩
  rcases commit_eventWrite R s s e with heq | heq
  · rw [heq]
    exact hf
  · rw [heq]
    exact isOpen_append hf hopen (fun ht => hclose ht q hq)

variable {ctx : CycleContext} {position : CanonicalPaperPosition}
  {others : List CanonicalPaperPosition}

/-- The context's log is not empty where a position is listed. -/
theorem Working.events_ne_nil (h : Working R n k s) : s.events ≠ [] := by
  obtain ⟨_, _, _, hevents⟩ := h.ledger.genesis
  rw [hevents]
  exact List.cons_ne_nil _ _

/-- Recording the embedded trial again. -/
theorem spec_retrial :
    Spec (AccountingAt R n ctx (position :: others))
      (writeOption ((ctx.positionTrial position).map Write.trial) : PortfolioProg Unit)
      (CycleBlock R n input base)
      (fun _ => AccountingAt R n ctx (position :: others)) := by
  cases htrial : ctx.positionTrial position with
  | none => exact spec_silent (fun _ _ => rfl) (fun _ _ hs _ => hs)
  | some trial =>
    refine spec_block (fun s hs => ?_) (fun _ _ hs _ => hs)
    obtain ⟨f, hf, -, hembedded⟩ := hs.2 position List.mem_cons_self
    exact .retrial position.positionId f trial hf (hembedded.symm.trans htrial)

/-- A mark, if there is one. -/
theorem spec_recordMark (mark : Option CanonicalPortfolioEvent)
    (hmark : ∀ m, mark = some m → m.eventType = .mark ∧ m.cashDeltaUsd = 0
      ∧ m.realizedPnlDeltaUsd = 0 ∧ m.portfolioId = canonicalPortfolioId) :
    Spec (AccountingAt R n ctx others) (recordOptional R mark) (CycleBlock R n input base)
      (fun _ => AccountingAt R n ctx others) := by
  cases mark with
  | none => exact spec_silent (fun _ _ => rfl) (fun _ _ hs _ => hs)
  | some m =>
    obtain ⟨htype, hcash, hrealized, hid⟩ := hmark m rfl
    have hblock : ∀ s, AccountingAt R n ctx others s →
        CycleBlock R n input base s [eventWrite R s m] := fun s hs =>
      .neutral hs.1.events_ne_nil m (Or.inl htype) hcash hrealized
    refine spec_block (fun s hs => ?_) (fun s _ hs _ => ?_)
    · rw [recordOptional, recordEvent_run hid]
      exact hblock s hs
    · rw [Prog.final, recordOptional, recordEvent_run hid]
      refine hs.record ((hblock s hs).sound (Or.inr hs.1.ledger) 1) ?_ ?_
      · rw [htype]
        decide
      · rw [htype]
        exact fun h => absurd h (by decide)

/-- The writes of a close: the outcome, if there is one, then the event. -/
theorem performVerdict_close_run {outcome : Option PaperAllocationOutcome}
    {e : CanonicalPortfolioEvent} (h : e.portfolioId = canonicalPortfolioId) :
    CycleContext.performVerdict R (.close outcome e) s
      = ((outcome.map Write.outcome).toList ++ [eventWrite R s e], .ok ()) := by
  have hstore : commitAll s (outcome.map Write.outcome).toList = s := by
    cases outcome <;> rfl
  show Prog.bind (writeOption _) (fun _ => recordEvent R e) s = _
  simp only [Prog.bind, writeOption, hstore, recordEvent_run h]

/-- **One position.** An iteration of the accounting loop writes blocks of a cycle, and the
    positions still to come stay open. A verdict that closes writes one closing block, which
    concerns its own position alone; a mark is neutral. -/
theorem spec_accountPosition (hctx : ctx.Of R n input) (t : CycleContext.Accounting)
    (hids : ∀ q ∈ others, position.positionId ≠ q.positionId) :
    Spec (AccountingAt R n ctx (position :: others)) (ctx.accountPosition t position)
      (CycleBlock R n input base) (fun _ => AccountingAt R n ctx others) := by
  have hweaken : ∀ s, AccountingAt R n ctx (position :: others) s → AccountingAt R n ctx others s :=
    fun s hs => ⟨hs.1, fun q hq => hs.2 q (List.mem_cons_of_mem _ hq)⟩
  have hperform : ∀ v, ctx.verdict t.index position = .ok v →
      Spec (AccountingAt R n ctx (position :: others)) (CycleContext.performVerdict R v)
        (CycleBlock R n input base) (fun _ => AccountingAt R n ctx others) := by
    intro v hv
    cases v with
    | close outcome e =>
      obtain ⟨htype, hid, -, -, -, hportfolio⟩ := ctx.verdict_close_event hv
      have hblock : ∀ s, AccountingAt R n ctx (position :: others) s →
          CycleBlock R n input base s ((outcome.map Write.outcome).toList ++ [eventWrite R s e]) := by
        intro s hs
        obtain ⟨f, hf, hdescribes, htrial⟩ := hs.2 position List.mem_cons_self
        exact .closing ctx hctx t.index position f e outcome hf hdescribes htrial hv
      refine spec_block (fun s hs => ?_) (fun s _ hs _ => ?_)
      · rw [performVerdict_close_run hportfolio]
        exact hblock s hs
      · have hfinal : final (CycleContext.performVerdict R (.close outcome e)) s
            = Durable.commit s (eventWrite R s e) := by
          rw [Prog.final, performVerdict_close_run hportfolio, commitAll_append]
          cases outcome <;> rfl
        have hsound := (hblock s hs).sound (Or.inr hs.1.ledger)
          ((outcome.map Write.outcome).toList ++ [eventWrite R s e]).length
        rw [List.take_length, commitAll_append] at hsound
        rw [hfinal]
        refine (hweaken s hs).record ?_ ?_ ?_
        · cases outcome <;> exact hsound
        · rw [htype]
          decide
        -- the other positions keep their openings, since the close names another one
        · intro _ q hq
          rw [hid]
          exact fun he => hids q hq (Option.some.inj he)
    | fresh mark evidenceAt =>
      exact (spec_recordMark mark (fun m hm => ctx.verdict_mark hv hm)).pre hweaken
    | stale mark blocked =>
      exact (spec_recordMark mark (fun m hm => ctx.verdict_mark hv hm)).pre hweaken
  have hruntime := hctx.runtime_eq
  refine spec_bind spec_retrial (fun _ => spec_bind (spec_lift _) (fun v => ?_))
  rw [hruntime]
  exact spec_bind (spec_of_fact (hperform v)) 
    (fun _ => spec_pure (Q := fun _ => AccountingAt R n ctx others) _)

/-- The positions of the account are open, each under the opening it was listed with. -/
theorem Ledger.stillOpen (h : Ledger R k s.events) {observedAt : Instant}
    {snapshots : List CanonicalPaperPortfolioSnapshot} {state : CanonicalPaperPortfolioSnapshot}
    (hstate : accountState s.events snapshots observedAt = .ok state) (run : ℕ)
    (given : CycleInput) (snapshot : ScanSnapshot) :
    (state.positions.map (fun position => position.positionId)).Nodup
      ∧ ∀ q ∈ state.positions, StillOpen (CycleContext.start R run given snapshot s.events) q s := by
  obtain ⟨state', positions, hstate', hperm, hdescribes, -⟩ :=
    h.balanced.account snapshots observedAt
  rw [hstate] at hstate'
  injection hstate' with hstate'
  subst hstate'
  refine ⟨?_, fun q hq => ?_⟩
  · refine (hperm.map _).nodup_iff.mpr ?_
    rw [positionIds_eq hdescribes]
    exact ((List.filter_sublist).map Prod.fst).nodup (Replay.nodup_openItems _)
  · obtain ⟨item, hitem, hitemq⟩ := exists_describes hdescribes (hperm.mem_iff.mp hq)
    have hopen : (replay s.events).IsOpen item.1 item.2 :=
      Replay.mem_openItems.mp (List.mem_of_mem_filter hitem)
    rw [← hitemq.positionId] at hopen
    refine ⟨item.2, hopen, ?_, ?_⟩
    · rw [hitemq.positionId]
      exact hitemq
    · rw [CycleContext.positionTrial]
      exact congrArg eventTrial ((get?_openEventMap s.events _ _).mpr hopen)

/-- **Accounting loop.** Every verdict writes blocks of the cycle, and the store stays a working
    one. -/
theorem spec_accountPositions {snapshot : ScanSnapshot}
    (hcollected : input.collected = .ok snapshot) :
    Spec (Working R n 0) (accountPositions R n input snapshot) (CycleBlock R n input base)
      (fun _ => Working R n 0) := by
  -- the positions are those of the account at the start, and the loop keeps the rest of them open
  refine spec_bind (spec_currentState _ _) (fun state => spec_bind spec_get (fun s₀ => ?_))
  refine spec_of_forall (fun s hs => ?_)
  obtain ⟨⟨hworking, hstate⟩, rfl⟩ := hs
  obtain ⟨hnodup, hopen⟩ := hworking.ledger.stillOpen hstate n input snapshot
  have hctx : (CycleContext.start R n input snapshot s₀.events).Of R n input :=
    ⟨rfl, rfl, rfl, hcollected⟩
  refine Spec.weaken (spec_foldlM (J := fun seen _ s => ∀ rest, state.positions = seen ++ rest →
      AccountingAt R n (CycleContext.start R n input snapshot s₀.events) rest s)
    (fun seen x rest t hxs => ?_) CycleContext.Accounting.start) ?_ (fun _ _ hb => hb) ?_
  -- the position dealt with is none of those that follow
  · have hids : ∀ q ∈ rest, x.positionId ≠ q.positionId := by
      intro q hq heq
      rw [hxs, List.map_append, List.nodup_append, List.map_cons, List.nodup_cons] at hnodup
      exact hnodup.2.1.1 (heq ▸ List.mem_map_of_mem hq)
    refine (spec_accountPosition hctx t hids).weaken ?_ (fun _ _ hb => hb) ?_
    · exact fun s hs => hs (x :: rest) hxs
    · intro t' s hs rest' hrest'
      have heq : rest' = rest := by
        rw [hxs, List.append_assoc, List.singleton_append] at hrest'
        exact ((List.cons.inj (List.append_cancel_left hrest')).2).symm
      rw [heq]
      exact hs
  · rintro s rfl rest rfl
    exact ⟨hworking, hopen⟩
  -- at the end none is left, and the store is a working one
  · intro t s hs
    exact (hs [] (List.append_nil _).symm).1

/-! ### The halves of a cycle -/

/-- What holds between the halves of a cycle: the account handed on is that of the log. -/
structure Settled (R : Runtime) (n : ℕ) (half : SettlementHalf) (s : PortfolioStore) : Prop where
  working : Working R n 0 s
  openEvents : half.openEvents = openEventMap s.events
  afterClose : accountState s.events s.snapshots half.snapshot.completedAt = .ok half.afterClose

/-- Recording an integrity snapshot leaves the log and the account snapshots alone. -/
theorem commit_integrity (s : PortfolioStore) (snapshot : PortfolioIntegritySnapshot) :
    (Durable.commit s (Write.integrity snapshot)).events = s.events
      ∧ (Durable.commit s (Write.integrity snapshot)).snapshots = s.snapshots := by
  show (PortfolioStore.commit s (.integrity snapshot)).events = s.events
    ∧ (PortfolioStore.commit s (.integrity snapshot)).snapshots = s.snapshots
  simp only [PortfolioStore.commit]
  split
  · exact ⟨rfl, rfl⟩
  · exact ⟨rfl, rfl⟩

/-- The invariant is about the log only. -/
theorem Working.of_events {s' : PortfolioStore} (h : Working R n k s) (he : s'.events = s.events) :
    Working R n k s' :=
  ⟨by rw [he]; exact h.ledger, fun j hj => by rw [he]; exact h.fresh j hj⟩

/-- **Settlement half.** From a sound store it writes blocks of the cycle, and what it hands on
    describes the store that it leaves. -/
theorem spec_settlementHalf :
    Spec (Sound R n) (settlementHalf R n input) (CycleBlock R n input base)
      (fun half => Settled R n half) := by
  refine spec_bind (spec_ensureGenesis _ _) (fun _ => spec_bind spec_get (fun s₀ => ?_))
  refine spec_bind (spec_lift input.collected) (fun snapshot => spec_of_fact (fun hcollected => ?_))
  refine spec_bind ((spec_accountPositions hcollected).pre (fun _ hs => hs.1)) (fun t => ?_)
  refine spec_bind (spec_currentState _ _) (fun afterClose => spec_bind spec_get (fun s₁ => ?_))
  refine spec_bind (Q := fun _ s => Working R n 0 s ∧ openEventMap s₁.events = openEventMap s.events
    ∧ accountState s.events s.snapshots snapshot.completedAt = .ok afterClose)
    ((spec_write _).pre ?_) (fun _ => (spec_pure (Q := fun half => Settled R n half) _).pre ?_)
  · rintro s ⟨⟨hworking, hstate⟩, rfl⟩
    obtain ⟨hevents, hsnapshots⟩ := commit_integrity s₁ _
    exact ⟨.integrity _, hworking.of_events hevents, by rw [hevents], by rw [hevents, hsnapshots, hstate]⟩
  · rintro s ⟨hworking, hopen, hstate⟩
    exact ⟨hworking, hopen, hstate⟩

/-- The account of a log is the one its replay has. -/
theorem Ledger.cash_eq (h : Ledger R k s.events) {observedAt : Instant}
    {snapshots : List CanonicalPaperPortfolioSnapshot} {state : CanonicalPaperPortfolioSnapshot}
    (hstate : accountState s.events snapshots observedAt = .ok state) :
    state.cashUsd = (replay s.events).cash := by
  obtain ⟨state', -, hstate', -, -, hcash, -⟩ := h.balanced.account snapshots observedAt
  rw [hstate] at hstate'
  injection hstate' with hstate'
  rw [hstate', hcash]

/-! ### The deployment loop -/

/-- Nothing is deployed at first. -/
theorem Deployed.start (s : PortfolioStore) : Deployed s s [] :=
  ⟨⟨[], (List.append_nil _).symm, List.Forall₂.nil⟩, rfl⟩

/-- A skip deploys nothing. What was deployed so far is deployed still, as the event opens and
    closes nothing. -/
theorem Deployed.record_skip {taken : List UnifiedPaperAllocation} (h : Deployed base s taken)
    {e : CanonicalPortfolioEvent} (htype : e.eventType = .skip) (hrealized : e.realizedPnlDeltaUsd = 0) :
    Deployed base (Durable.commit s (eventWrite R s e)) taken := by
  rcases commit_eventWrite R s s e with heq | heq
  · exact ⟨by rw [heq]; exact h.items, by rw [heq]; exact h.realized⟩
  · have hstep : (replay (s.events ++ [e])).openItems = (replay s.events).openItems
        ∧ (replay (s.events ++ [e])).realized = (replay s.events).realized := by
      rw [replay_append]
      unfold Replay.step
      rw [htype]
      exact ⟨rfl, by simp [Replay.book, hrealized]⟩
    exact ⟨by rw [heq, hstep.1]; exact h.items, by rw [heq, hstep.2]; exact h.realized⟩

/-- An opening deploys its allocation, unless its row is already stored. -/
theorem Deployed.record_open {taken : List UnifiedPaperAllocation} (h : Deployed base s taken)
    (hworking : Working R n k s) {i : ℕ} {allocation : UnifiedPaperAllocation}
    {trial : PaperAllocationTrial} {e : CanonicalPortfolioEvent}
    (he : OpenedBy R n i allocation trial e) (hi : k ≤ i) :
    ∃ taken', taken'.Sublist (taken ++ [allocation])
      ∧ Deployed base (Durable.commit s (eventWrite R s e)) taken' := by
  rcases commit_eventWrite R s s e with heq | heq
  · exact ⟨taken, List.sublist_append_left _ _, by rw [heq]; exact h.items,
      by rw [heq]; exact h.realized⟩
  · obtain ⟨items, hitems, hopens⟩ := h.items
    have hfresh := hworking.fresh i hi
    refine ⟨taken ++ [allocation], List.Sublist.refl _, ⟨items ++ [(R.uuid4 n (.position i), e)], ?_,
      ?_⟩, ?_⟩
    · rw [heq, replay_append, Replay.openItems_step_open he.eventType he.positionId hfresh
        (hworking.ledger.balanced.closedOpened _ hfresh), hitems, List.append_assoc]
    · refine List.rel_append hopens (List.Forall₂.cons ?_ List.Forall₂.nil)
      exact ⟨he.amounts.2.2, he.exposure.1, he.exposure.2⟩
    · rw [heq, replay_append, ← h.realized]
      unfold Replay.step
      rw [he.eventType, he.positionId]
      simp [Replay.book, he.amounts.2.1]

/-- After an opening the later ids of the cycle are still unused. -/
theorem Working.record_open (h : Working R n k s) {allocation : UnifiedPaperAllocation}
    {trial : PaperAllocationTrial} {e : CanonicalPortfolioEvent}
    (he : OpenedBy R n k allocation trial e)
    (hsound : Sound R (n + 1) (Durable.commit s (eventWrite R s e))) :
    Working R n (k + 1) (Durable.commit s (eventWrite R s e)) := by
  rcases commit_eventWrite R s s e with heq | heq
  · exact ⟨by rw [heq]; exact h.ledger, fun j hj => by rw [heq]; exact h.fresh j (by omega)⟩
  · refine ⟨hsound.resolve_left (by rw [heq]; simp), fun j hj => ?_⟩
    have hne : R.uuid4 n (.position k) ≠ R.uuid4 n (.position j) := by
      intro hid
      have hdraw := (R.uuid4_injective hid).2
      injection hdraw with hkj
      omega
    rw [heq, replay_append, ((replay s.events).step_opened_closed e).1, he.eventType, he.positionId]
    exact (Dict.get?_set_of_ne _ _ hne).trans (h.fresh j (by omega))

/-- What the deployment loop maintains over the allocations seen. -/
def DeployedAt (R : Runtime) (n : ℕ) (base : PortfolioStore) (seen : List UnifiedPaperAllocation)
    (d : Deployment) (s : PortfolioStore) : Prop :=
  Working R n d.index s ∧ ∃ taken, taken.Sublist seen ∧ Deployed base s taken

section Deployment

variable {plan : UnifiedPaperAllocationPlan} {seen rest : List UnifiedPaperAllocation}
  {allocation : UnifiedPaperAllocation} {d : Deployment}

/-- Skipping an allocation. The event forms a block of its own, and the allocation counts as
    dealt with. -/
theorem spec_recordSkip {e : CanonicalPortfolioEvent} (htype : e.eventType = .skip)
    (hcash : e.cashDeltaUsd = 0) (hrealized : e.realizedPnlDeltaUsd = 0)
    (hid : e.portfolioId = canonicalPortfolioId) :
    Spec (DeployedAt R n base seen d) (recordSkip R d e) (CycleBlock R n input base)
      (DeployedAt R n base (seen ++ [allocation])) := by
  have hblock : ∀ s, DeployedAt R n base seen d s →
      CycleBlock R n input base s [eventWrite R s e] := fun s hs =>
    .neutral hs.1.events_ne_nil e (Or.inr htype) hcash hrealized
  refine spec_bind (spec_block (fun s hs => ?_) (fun s _ hs _ => ?_)) (fun _ => spec_pure _)
  · rw [recordEvent_run hid]
    exact hblock s hs
  · obtain ⟨taken, hsub, hdeployed⟩ := hs.2
    rw [Prog.final, recordEvent_run hid]
    have hsound := (hblock s hs).sound (Or.inr hs.1.ledger) 1
    have hworking := hs.1.record hsound (by rw [htype]; decide)
    exact ⟨⟨hworking.ledger, fun j hj => hworking.fresh j (Nat.le_of_succ_le hj)⟩, taken,
      hsub.trans (List.sublist_append_left _ _), hdeployed.record_skip htype hrealized⟩

/-- Opening an allocation. The event and the trial form one block, and with it the list of the
    allocations taken grows by one. -/
theorem spec_recordOpening
    (hplan : input.boundedAllocationPlan (max 0 (replay base.events).cash) = .ok plan)
    (hallocations : plan.allocations = seen ++ allocation :: rest) {eventId : Uuid}
    {observedAt : Instant} {trial : PaperAllocationTrial}
    (htrial : trialFromAllocation R.upper (R.uuid4 n (.trial d.index)) allocation observedAt
      = .ok trial) (hsupported : trial.settlementSupported = true) :
    Spec (DeployedAt R n base seen d)
      (recordOpening R eventId (R.uuid4 n (.position d.index)) observedAt d allocation trial)
      (CycleBlock R n input base) (DeployedAt R n base (seen ++ [allocation])) := by
  have hopened := OpenedBy.intro eventId observedAt htrial hsupported
  -- the run itself: the event, then the trial, and the tally of the loop moves on
  have hrun : ∀ s, recordOpening R eventId (R.uuid4 n (.position d.index)) observedAt d allocation
      trial s = ([eventWrite R s (openFromAllocation eventId (R.uuid4 n (.position d.index))
        allocation trial observedAt), .trial trial],
        .ok (d.open allocation trial (R.uuid4 n (.position d.index)) observedAt)) := by
    intro s
    rw [recordOpening, run_bind_of_ok (recordEvent_run hopened.portfolioId)]
    rfl
  -- the block is an opening, as the allocation is one of the plan that is not taken yet
  have hblock : ∀ s, DeployedAt R n base seen d s → CycleBlock R n input base s
      [eventWrite R s (openFromAllocation eventId (R.uuid4 n (.position d.index)) allocation trial
        observedAt), .trial trial] := by
    rintro s ⟨hworking, taken, hsub, hdeployed⟩
    exact .opening hworking.events_ne_nil d.index plan hplan seen rest taken allocation
      hallocations hsub hdeployed trial _ hopened (hworking.fresh d.index le_rfl)
  refine spec_block (fun s hs => ?_) (fun s d' hs hd' => ?_)
  · rw [hrun]
    exact hblock s hs
  · rw [hrun] at hd'
    injection hd' with hd'
    subst hd'
    rw [Prog.final, hrun]
    -- what the working store keeps is carried over by the soundness of the block
    have hsound := (hblock s hs).sound (Or.inr hs.1.ledger) 1
    obtain ⟨hworking, taken, hsub, hdeployed⟩ := hs
    obtain ⟨taken', hsub', hdeployed'⟩ := hdeployed.record_open hworking hopened le_rfl
    exact ⟨hworking.record_open hopened hsound, taken',
      hsub'.trans (hsub.append (List.Sublist.refl _)), hdeployed'⟩

/-- **One allocation.** It is opened or skipped, and with it the allocations dealt with grow by
    one. -/
theorem spec_deployAllocation
    (hplan : input.boundedAllocationPlan (max 0 (replay base.events).cash) = .ok plan)
    (hallocations : plan.allocations = seen ++ allocation :: rest) :
    Spec (DeployedAt R n base seen d) (deployAllocation R n plan.observedAt d allocation)
      (CycleBlock R n input base) (DeployedAt R n base (seen ++ [allocation])) := by
  refine spec_bind (spec_lift _) (fun trial => spec_of_fact (fun htrial => ?_))
  cases hsupported : trial.settlementSupported with
  | false => exact spec_recordSkip rfl rfl rfl rfl
  | true =>
    cases hrefusal : d.refusal allocation trial with
    | some reason =>
      simp only [Bool.not_true, Bool.false_eq_true, if_false]
      exact spec_recordSkip rfl rfl rfl rfl
    | none =>
      simp only [Bool.not_true, Bool.false_eq_true, if_false]
      exact spec_recordOpening hplan hallocations htrial hsupported

end Deployment

/-- **Allocation half.** The allocations are dealt with one by one, each under the tally of
    those before it. -/
theorem spec_allocationHalf (half : SettlementHalf) :
    Spec (fun s => s = base ∧ Settled R n half base) (allocationHalf R n input half)
      (CycleBlock R n input base) (fun _ s => ∃ k, Working R n k s) := by
  refine spec_of_fact (fun hsettled => ?_)
  have hcash : half.afterClose.cashUsd = (replay base.events).cash :=
    hsettled.working.ledger.cash_eq hsettled.afterClose
  have hskip : ∀ a : AllocationHalf, Spec (fun s => s = base) (pure a : PortfolioProg AllocationHalf)
      (CycleBlock R n input base) (fun _ s => ∃ k, Working R n k s) := fun a =>
    (spec_pure (Q := fun _ s => ∃ k, Working R n k s) a).pre
      (fun s hs => ⟨0, hs ▸ hsettled.working⟩)
  unfold allocationHalf
  dsimp only
  split
  · cases hplan : input.boundedAllocationPlan (max 0 half.afterClose.cashUsd) with
    | error error => exact hskip _
    | ok plan =>
      rw [hcash] at hplan
      refine spec_bind (Spec.pre (spec_foldlM (J := DeployedAt R n base)
        (fun seen x rest d hxs => spec_deployAllocation hplan hxs) (Deployment.start half)) ?_)
        (fun d => (spec_pure (Q := fun _ s => ∃ k, Working R n k s) _).pre ?_)
      · rintro s rfl
        exact ⟨hsettled.working, [], List.Sublist.refl _, Deployed.start s⟩
      · exact fun s hs => ⟨d.index, hs.1⟩
  · exact hskip _

/-- **Conclusion.** The end of a cycle records the account and its integrity. -/
theorem spec_concludeCycle (half : SettlementHalf) (allocation : AllocationHalf) :
    Spec (Working R n k) (concludeCycle R n half allocation) (CycleBlock R n input base)
      (fun _ => Working R n k) := by
  refine spec_bind (spec_currentState _ _) (fun finalState => ?_)
  refine spec_bind (Q := fun _ => Working R n k) ((spec_write _).pre ?_) (fun _ => ?_)
  · exact fun s hs => ⟨.snapshot _, hs.1.of_events rfl⟩
  · refine spec_bind (Q := fun _ => Working R n k) ((spec_write _).pre ?_)
      (fun _ => spec_pure (Q := fun _ => Working R n k) _)
    exact fun s hs => ⟨.integrity _, hs.of_events (commit_integrity s _).1⟩

/-- The store at the beginning of a cycle's allocation half. -/
def afterSettlement (R : Runtime) (n : ℕ) (input : CycleInput) (s : PortfolioStore) :
    PortfolioStore :=
  (settlementHalf R n input).final s

/-- **Cycle.** From a sound log, a cycle writes blocks of a cycle, and when it ends
    normally it leaves a sound log that has its genesis event. -/
theorem runCycle_spec (s₀ : PortfolioStore) :
    Spec (fun s => s = s₀ ∧ Sound R n s₀) (runCycle R n input)
      (CycleBlock R n input (afterSettlement R n input s₀)) (fun _ s => ∃ k, Working R n k s) := by
  refine spec_bind (spec_settlementHalf.from s₀) (fun half => ?_)
  refine spec_bind ((spec_allocationHalf half).pre ?_) (fun allocation => ?_)
  · rintro s ⟨hs, rfl⟩
    exact ⟨rfl, hs⟩
  · refine spec_of_forall (fun s hs => ?_)
    obtain ⟨k, hk⟩ := hs
    exact (spec_concludeCycle half allocation).weaken (fun _ hs => hs ▸ hk) (fun _ _ hb => hb)
      (fun _ _ hs => ⟨k, hs⟩)

end Cycle

/-! ### Runs -/

/-- The store before the first cycle. -/
def PortfolioStore.empty : PortfolioStore := ⟨[], [], []⟩

/-- The stores that `n` cycles can leave when every cycle is allowed in the store it starts
    from.  A cycle may be cut off after any number of its writes. -/
inductive Reachable (R : Runtime) (Allowed : ℕ → PortfolioStore → CycleInput → Prop) :
    ℕ → PortfolioStore → Prop
  | start : Reachable R Allowed 0 PortfolioStore.empty
  | cycle {n : ℕ} {s : PortfolioStore} (hs : Reachable R Allowed n s) (input : CycleInput)
      (hallowed : Allowed n s input) (k : ℕ) :
      Reachable R Allowed (n + 1) (commitAll s ((runCycle R n input s).1.take k))

/-- A cycle that makes all its writes. -/
theorem Reachable.complete {R : Runtime} {Allowed : ℕ → PortfolioStore → CycleInput → Prop} {n : ℕ}
    {s : PortfolioStore} (h : Reachable R Allowed n s) (input : CycleInput)
    (hallowed : Allowed n s input) :
    Reachable R Allowed (n + 1) (commitAll s (runCycle R n input s).1) := by
  have hcycle := h.cycle input hallowed (runCycle R n input s).1.length
  rwa [List.take_length] at hcycle

/-- The writes of a cycle, as blocks. -/
theorem runCycle_blocks {R : Runtime} {n : ℕ} {s : PortfolioStore} (h : Sound R n s)
    (input : CycleInput) :
    Along (CycleBlock R n input (afterSettlement R n input s)) s (runCycle R n input s).1 :=
  (runCycle_spec s).guarantee s ⟨rfl, h⟩

theorem Sound.mono {R : Runtime} {n m : ℕ} {s : PortfolioStore} (h : Sound R n s) (hnm : n ≤ m) :
    Sound R m s :=
  h.imp id (fun hledger => hledger.mono hnm)

/-- **Run invariant.** A property of sound logs that every prefix of a block keeps holds of
    every reachable store. -/
theorem Reachable.invariant {R : Runtime} {Allowed : ℕ → PortfolioStore → CycleInput → Prop}
    {I : PortfolioStore → Prop} (hstart : I PortfolioStore.empty)
    (hblock : ∀ {n base input s block}, (∃ s₀, Allowed n s₀ input) → Sound R (n + 1) s → I s →
      CycleBlock R n input base s block → ∀ k, I (commitAll s (block.take k)))
    {n : ℕ} {s : PortfolioStore} (h : Reachable R Allowed n s) : Sound R n s ∧ I s := by
  induction h with
  | start => exact ⟨Or.inl rfl, hstart⟩
  | @cycle n s hs input hallowed k ih =>
    have hstep : ∀ t block, Sound R (n + 1) t ∧ I t →
        CycleBlock R n input (afterSettlement R n input s) t block →
        ∀ j, Sound R (n + 1) (commitAll t (block.take j)) ∧ I (commitAll t (block.take j)) :=
      fun t block ht hb j => ⟨hb.sound ht.1 j, hblock ⟨s, hallowed⟩ ht.1 ht.2 hb j⟩
    exact (runCycle_blocks ih.1 input).invariant hstep ⟨ih.1.mono (Nat.le_succ n), ih.2⟩ k

/-- The log stays sound through the settlement half, however it ends. -/
theorem sound_afterSettlement {R : Runtime} {n : ℕ} {s : PortfolioStore} (h : Sound R n s)
    (input : CycleInput) : Sound R (n + 1) (afterSettlement R n input s) := by
  have hblocks : Along (CycleBlock R n input s) s (settlementHalf R n input s).1 :=
    spec_settlementHalf.guarantee s h
  have hsound := hblocks.invariant (I := Sound R (n + 1)) (fun _ _ ht hb k => hb.sound ht k)
    (h.mono (Nat.le_succ n)) (settlementHalf R n input s).1.length
  rwa [List.take_length] at hsound

/-- **Openings.** Every opening of a cycle is that of an allocation of the plan made from
    the cash after settlement, after a part of the plan before it was deployed. -/
theorem opening_of_journal {R : Runtime} {n : ℕ} {s : PortfolioStore} (h : Sound R n s)
    {input : CycleInput} {k : ℕ} {e : CanonicalPortfolioEvent}
    (hk : (runCycle R n input s).1[k]?.bind Write.event? = some e) (hopen : e.eventType = .open) :
    ∃ i plan seen rest taken allocation trial,
      input.boundedAllocationPlan (max 0 (replay (afterSettlement R n input s).events).cash)
        = .ok plan
      ∧ plan.allocations = seen ++ allocation :: rest ∧ taken.Sublist seen
      ∧ Deployed (afterSettlement R n input s) (commitAll s ((runCycle R n input s).1.take k)) taken
      ∧ OpenedBy R n i allocation trial e
      ∧ Ledger R (n + 1) (commitAll s ((runCycle R n input s).1.take k)).events := by
  obtain ⟨w, hw, he⟩ := Option.bind_eq_some_iff.mp hk
  have hblocks := runCycle_blocks h input
  have hsound := hblocks.invariant (I := Sound R (n + 1)) (fun _ _ ht hb k => hb.sound ht k)
    (h.mono (Nat.le_succ n)) k
  obtain ⟨i, j, block, -, hij, hblock, -, hj⟩ := hblocks.getElem? hw
  obtain ⟨rfl, i', plan, seen, rest, taken, allocation, trial, hne, hplan, hallocations, htaken,
    hdeployed, hopened⟩ := hblock.opening_cases hj he hopen
  obtain rfl : i = k := hij
  exact ⟨i', plan, seen, rest, taken, allocation, trial, hplan, hallocations, htaken, hdeployed,
    hopened, hsound.resolve_left hne⟩

/-- Every reachable log is sound. -/
theorem Reachable.sound {R : Runtime} {Allowed : ℕ → PortfolioStore → CycleInput → Prop} {n : ℕ}
    {s : PortfolioStore} (h : Reachable R Allowed n s) : Sound R n s :=
  (h.invariant (I := fun _ => True) trivial (fun _ _ _ _ _ => trivial)).1

end InefficiencyEngine.Portfolio
