import InefficiencyEngine.Portfolio.Runs

namespace InefficiencyEngine.Portfolio

open Prog

/-!
# The closes of a cycle

Which close events a cycle appends does not depend on the writes it makes along the way:
the accounting loop decides every position on data read before it starts, and nothing
after the loop closes a position.  `closesOf_runCycle` computes them.
-/

/-! ### The closes among some writes -/

/-- The close events a list of writes records, in order. -/
def closesOf (ws : List Write) : List CanonicalPortfolioEvent :=
  (ws.filterMap Write.event?).filter (fun e => e.eventType = .close)

@[simp] theorem closesOf_append (ws ws' : List Write) :
    closesOf (ws ++ ws') = closesOf ws ++ closesOf ws' := by
  simp only [closesOf, List.filterMap_append, List.filter_append]

/-- A write that records no close event. -/
def NoClose (w : Write) : Prop := ∀ e, w.event? = some e → e.eventType ≠ .close

theorem closesOf_eq_nil {ws : List Write} (h : ∀ w ∈ ws, NoClose w) : closesOf ws = [] := by
  refine List.filter_eq_nil_iff.mpr (fun e he => ?_)
  obtain ⟨w, hw, hwe⟩ := List.mem_filterMap.mp he
  simpa using h w hw e hwe

/-- The closes of a sequence of programs. -/
theorem closesOf_bind {α β : Type} (m : PortfolioProg α) (f : α → PortfolioProg β)
    (s : PortfolioStore) :
    closesOf ((m >>= f) s).1 = closesOf (m s).1 ++ (match (m s).2 with
      | .ok a => closesOf (f a (m.final s)).1
      | .error _ => []) := by
  rw [run_bind, closesOf_append]
  cases (m s).2 <;> rfl

/-- A program that records no close event. -/
theorem closesOf_of_emits {α : Type} {m : PortfolioProg α} (h : Emits NoClose m)
    (s : PortfolioStore) : closesOf (m s).1 = [] :=
  closesOf_eq_nil (h s)

/-! ### What the parts of a cycle record -/

/-- Every event a write records satisfies `ψ`. -/
def Records (ψ : CanonicalPortfolioEvent → Prop) (w : Write) : Prop :=
  ∀ e, w.event? = some e → ψ e

section Records

variable {ψ : CanonicalPortfolioEvent → Prop} (R : Runtime)

theorem emits_recordEvent {e : CanonicalPortfolioEvent} (h : ψ e) :
    Emits (Records ψ) (recordEvent R e) := by
  unfold recordEvent
  split
  · exact emits_lift _
  · refine emits_bind emits_get (fun s => emits_write ?_)
    intro f hf
    rw [← Option.some.inj hf]
    exact h

theorem emits_ensureGenesis {eventId : Uuid} {observedAt : Instant}
    (h : ψ (genesisEvent eventId observedAt)) :
    Emits (Records ψ) (ensureGenesis R eventId observedAt) := by
  refine emits_bind emits_get (fun s => ?_)
  split
  · exact emits_lift _
  · exact emits_recordEvent R h

theorem emits_currentState {genesisId : Uuid} {observedAt : Instant}
    (h : ψ (genesisEvent genesisId observedAt)) :
    Emits (Records ψ) (currentState R genesisId observedAt) :=
  emits_bind (emits_ensureGenesis R h) (fun _ => emits_bind emits_get (fun _ => emits_lift _))

/-- A write of another table records no event. -/
theorem records_of_event?_eq_none {w : Write} (h : w.event? = none) : Records ψ w := by
  intro e he
  rw [h] at he
  cases he

/-- The end of a cycle records no event but a missing genesis event. -/
theorem emits_concludeCycle {run : ℕ} (h : ∀ observedAt, ψ (genesisEvent (R.uuid4 run .genesis)
    observedAt)) (half : SettlementHalf) (allocation : AllocationHalf) :
    Emits (Records ψ) (concludeCycle R run half allocation) :=
  emits_bind (emits_currentState R (h _)) (fun _ =>
    emits_bind (emits_write (records_of_event?_eq_none rfl)) (fun _ =>
      emits_bind (emits_write (records_of_event?_eq_none rfl)) (fun _ => emits_pure _)))

end Records

section NoClose

variable (R : Runtime)

/-- An allocation is skipped or opened. -/
theorem emits_deployAllocation (run : ℕ) (observedAt : Instant) (d : Deployment)
    (allocation : UnifiedPaperAllocation) :
    Emits NoClose (deployAllocation R run observedAt d allocation) := by
  refine emits_bind (emits_lift _) (fun trial => ?_)
  have hskip : ∀ e : CanonicalPortfolioEvent, e.eventType = .skip →
      Emits NoClose (recordSkip R d e) := fun e he =>
    emits_bind (emits_recordEvent R (by rw [he]; decide)) (fun _ => emits_pure _)
  split
  · exact hskip _ rfl
  · split
    · exact hskip _ rfl
    · exact emits_bind (emits_recordEvent R (fun h => by cases h))
        (fun _ => emits_bind (emits_write (records_of_event?_eq_none rfl)) (fun _ => emits_pure _))

theorem emits_allocationHalf (run : ℕ) (input : CycleInput) (half : SettlementHalf) :
    Emits NoClose (allocationHalf R run input half) := by
  unfold allocationHalf
  dsimp only
  split
  · split
    · exact emits_pure _
    · exact emits_bind (emits_foldlM (emits_deployAllocation R run _) _ _) (fun _ => emits_pure _)
  · exact emits_pure _

end NoClose

/-! ### The accounting loop -/

namespace CycleContext

/-- The event a verdict records. -/
def Verdict.event? : Verdict → Option CanonicalPortfolioEvent
  | .close _ event => some event
  | .fresh mark _ => mark
  | .stale mark _ => mark

/-- The close event a verdict records. -/
def Verdict.close? : Verdict → Option CanonicalPortfolioEvent
  | .close _ event => some event
  | .fresh _ _ => none
  | .stale _ _ => none

/-- The close events the accounting loop records for a list of positions, from an index on:
    those of the verdicts up to the first that raises. -/
def closes (ctx : CycleContext) : ℕ → List CanonicalPaperPosition → List CanonicalPortfolioEvent
  | _, [] => []
  | i, position :: rest =>
    match ctx.verdict i position with
    | .error _ => []
    | .ok v => v.close?.toList ++ ctx.closes (i + 1) rest

variable (ctx : CycleContext)

/-- Performing a verdict raises nothing and records its close. -/
theorem performVerdict_run {i : ℕ} {position : CanonicalPaperPosition} {v : Verdict}
    (hv : ctx.verdict i position = .ok v) (s : PortfolioStore) :
    ∃ ws, performVerdict ctx.runtime v s = (ws, .ok ()) ∧ closesOf ws = v.close?.toList := by
  have hmark : ∀ mark, v.mark = mark → v.close? = none →
      ∃ ws, recordOptional ctx.runtime mark s = (ws, .ok ()) ∧ closesOf ws = v.close?.toList := by
    intro mark hm hnone
    rw [hnone]
    cases mark with
    | none => exact ⟨[], rfl, rfl⟩
    | some m =>
      obtain ⟨htype, -, -, hid⟩ := ctx.verdict_mark hv hm
      refine ⟨_, recordEvent_run hid, closesOf_eq_nil (fun w hw e he => ?_)⟩
      rw [List.mem_singleton.mp hw] at he
      obtain rfl : m = e := Option.some.inj he
      rw [htype]
      decide
  cases v with
  | close outcome e =>
    obtain ⟨htype, -, -, -, -, hid⟩ := ctx.verdict_close_event hv
    refine ⟨_, performVerdict_close_run hid, ?_⟩
    have houtcome : closesOf (outcome.map Write.outcome).toList = [] := by
      cases outcome <;> rfl
    rw [closesOf_append, houtcome]
    simp [closesOf, eventWrite, Write.event?, EventRow.link, htype, Verdict.close?]
  | fresh mark evidenceAt => exact hmark mark rfl rfl
  | stale mark blocked => exact hmark mark rfl rfl

/-- One iteration of the loop records the close of its verdict, and raises with it. -/
theorem accountPosition_run (t : Accounting) (position : CanonicalPaperPosition)
    (s : PortfolioStore) :
    match ctx.verdict t.index position with
    | .error raised => (ctx.accountPosition t position s).2 = .error raised
        ∧ closesOf (ctx.accountPosition t position s).1 = []
    | .ok v => (ctx.accountPosition t position s).2 = .ok (t.count position v)
        ∧ closesOf (ctx.accountPosition t position s).1 = v.close?.toList := by
  -- a trial written again closes nothing
  have hretrial : ∀ trial : Option PaperAllocationTrial,
      closesOf (trial.map Write.trial).toList = [] := by
    intro trial
    cases trial <;> rfl
  have hrun : ctx.accountPosition t position s = _ :=
    run_bind_of_ok (f := fun _ => Prog.lift (ctx.verdict t.index position) >>= fun v =>
      performVerdict ctx.runtime v >>= fun _ => pure (t.count position v))
      (rfl : writeOption ((ctx.positionTrial position).map Write.trial) s = (_, .ok ()))
  rw [hrun]
  dsimp only
  rw [closesOf_append, hretrial, List.nil_append]
  cases hv : ctx.verdict t.index position with
  | error raised => exact ⟨rfl, rfl⟩
  -- the close of the verdict is the only close event
  | ok v =>
    dsimp only
    rw [run_lift_ok_bind, closesOf_bind]
    obtain ⟨ws, hws, hcloses⟩ := ctx.performVerdict_run hv
      (commitAll s ((ctx.positionTrial position).map Write.trial).toList)
    rw [run_bind_of_ok hws, hws, hcloses]
    exact ⟨rfl, List.append_nil _⟩

/-- Every verdict moves the loop on by one. -/
theorem Accounting.index_count (t : Accounting) (position : CanonicalPaperPosition) (v : Verdict) :
    (t.count position v).index = t.index + 1 := by
  cases v <;> rfl

/-- **Accounting loop.** The loop records the closes of its verdicts. -/
theorem closesOf_loop (positions : List CanonicalPaperPosition) (t : Accounting)
    (s : PortfolioStore) :
    closesOf (positions.foldlM ctx.accountPosition t s).1 = ctx.closes t.index positions := by
  induction positions generalizing t s with
  | nil => rfl
  | cons position rest ih =>
    have hstep := ctx.accountPosition_run t position s
    rw [List.foldlM_cons, closesOf_bind, closes]
    cases hv : ctx.verdict t.index position with
    | error raised =>
      rw [hv] at hstep
      rw [hstep.1, hstep.2]
      rfl
    | ok v =>
      rw [hv] at hstep
      rw [hstep.1, hstep.2]
      dsimp only
      rw [ih, Accounting.index_count]

/-- An iteration of the loop records the event of its verdict. -/
theorem emits_accountPosition {ψ : CanonicalPortfolioEvent → Prop} {t : Accounting}
    {position : CanonicalPaperPosition}
    (h : ∀ v e, ctx.verdict t.index position = .ok v → v.event? = some e → ψ e) :
    Emits (Records ψ) (ctx.accountPosition t position) := by
  have hmark : ∀ mark : Option CanonicalPortfolioEvent, (∀ m, mark = some m → ψ m) →
      Emits (Records ψ) (recordOptional ctx.runtime mark) := by
    intro mark hmark
    cases mark with
    | none => exact emits_pure ()
    | some m => exact emits_recordEvent _ (hmark m rfl)
  have hwrite : ∀ w : Option Write, (∀ v, w = some v → v.event? = none) →
      Emits (Records ψ) (writeOption w : PortfolioProg Unit) := by
    intro w hw s v hv
    exact records_of_event?_eq_none (hw v (Option.mem_toList.mp hv))
  refine emits_bind (hwrite _ (fun v hv => ?_)) (fun _ => emits_lift_bind (fun v hv => ?_))
  · obtain ⟨trial, -, rfl⟩ := Option.map_eq_some_iff.mp hv
    rfl
  refine emits_bind ?_ (fun _ => emits_pure _)
  cases v with
  | close outcome e =>
    refine emits_bind (hwrite _ (fun w hw => ?_)) (fun _ => emits_recordEvent _ (h _ e hv rfl))
    obtain ⟨o, -, rfl⟩ := Option.map_eq_some_iff.mp hw
    rfl
  | fresh mark evidenceAt => exact hmark mark (fun m hm => h _ m hv hm)
  | stale mark blocked => exact hmark mark (fun m hm => h _ m hv hm)

end CycleContext

/-! ### The cycle -/

section Cycle

variable (R : Runtime) (n : ℕ) (input : CycleInput)

variable {R n input} in
/-- The settlement half records the genesis event and the events of verdicts. -/
theorem emits_settlementHalf {ψ : CanonicalPortfolioEvent → Prop}
    (hgenesis : ∀ observedAt, ψ (genesisEvent (R.uuid4 n .genesis) observedAt))
    (hverdict : ∀ ctx : CycleContext, ctx.runtime = R → ctx.run = n → ∀ i position v e,
      ctx.verdict i position = .ok v → v.event? = some e → ψ e) :
    Emits (Records ψ) (settlementHalf R n input) := by
  refine emits_bind (emits_ensureGenesis R (hgenesis _)) (fun _ => emits_bind emits_get
    (fun _ => emits_bind (emits_lift _) (fun snapshot => emits_bind ?_ (fun t => ?_))))
  · exact emits_bind (emits_currentState R (hgenesis _)) (fun state => emits_bind emits_get
      (fun _ => emits_foldlM (fun _ _ => CycleContext.emits_accountPosition _
        (hverdict _ rfl rfl _ _)) _ _))
  · exact emits_bind (emits_currentState R (hgenesis _)) (fun _ => emits_bind emits_get (fun _ =>
      emits_bind (emits_write (records_of_event?_eq_none rfl)) (fun _ => emits_pure _)))

/-- The log a cycle accounts for: the stored one, or the genesis event of a first cycle. -/
def accountedEvents (s : PortfolioStore) : List CanonicalPortfolioEvent :=
  match s.events with
  | [] => [genesisEvent (R.uuid4 n .genesis) input.now]
  | first :: rest => first :: rest

/-- What the accounting loop of a cycle works on: its context and the listed positions. -/
def accountingContext (s : PortfolioStore) :
    Except Raised (CycleContext × List CanonicalPaperPosition) := do
  let snapshot ← input.collected
  let state ← accountState (accountedEvents R n input s) s.snapshots snapshot.completedAt
  return (CycleContext.start R n input snapshot (accountedEvents R n input s), state.positions)

variable {R n input} {s : PortfolioStore}

/-- A cycle first makes sure of the genesis event. -/
theorem ensureGenesis_sound (input : CycleInput) (h : Sound R n s) :
    ∃ ws, ensureGenesis R (R.uuid4 n .genesis) input.now s = (ws, .ok ()) ∧ closesOf ws = []
      ∧ (commitAll s ws).events = accountedEvents R n input s
      ∧ (commitAll s ws).snapshots = s.snapshots
      ∧ Ledger R n (accountedEvents R n input s) := by
  rcases h with hempty | hledger
  · refine ⟨_, ensureGenesis_run_nil hempty _ _, rfl, ?_, rfl, ?_⟩
    · rw [accountedEvents, hempty]
      exact commit_eventWrite_nil R _ hempty
    · rw [accountedEvents, hempty]
      exact Ledger.start _ _
  · have hsame : accountedEvents R n input s = s.events := by
      obtain ⟨eventId, observedAt, rest, hevents⟩ := hledger.genesis
      rw [accountedEvents, hevents]
    exact ⟨[], ensureGenesis_run hledger _ _, rfl, hsame.symm, rfl, hsame ▸ hledger⟩

/-- The loop runs over the positions of the account. -/
theorem closesOf_accountPositions {snapshot : ScanSnapshot} (h : Ledger R n s.events)
    {state : CanonicalPaperPortfolioSnapshot}
    (hstate : accountState s.events s.snapshots snapshot.completedAt = .ok state) :
    closesOf (accountPositions R n input snapshot s).1
      = (CycleContext.start R n input snapshot s.events).closes 0 state.positions := by
  obtain ⟨state', hstate', hrun⟩ := currentState_run h (R.uuid4 n .genesis) snapshot.completedAt
  rw [hstate] at hstate'
  injection hstate' with hstate'
  rw [← hstate'] at hrun
  rw [accountPositions, run_bind_of_silent hrun, run_get_bind]
  exact CycleContext.closesOf_loop _ _ _ _

/-- **Closes of a cycle.** They are the close events of the verdicts on the positions listed at
    the start, in their order. -/
theorem closesOf_runCycle (input : CycleInput) (h : Sound R n s) :
    closesOf (runCycle R n input s).1 = match accountingContext R n input s with
      | .ok (ctx, positions) => ctx.closes 0 positions
      | .error _ => [] := by
  obtain ⟨ws, hrun, hws, hevents, hsnapshots, hledger⟩ := ensureGenesis_sound input h
  -- After the loop nothing closes.
  have htail : ∀ m : PortfolioProg SettlementHalf,
      closesOf ((m >>= fun half => allocationHalf R n input half >>= fun allocation =>
        concludeCycle R n half allocation) s).1 = closesOf (m s).1 := by
    intro m
    rw [closesOf_bind]
    cases (m s).2 with
    | error raised => exact List.append_nil _
    | ok half =>
      dsimp only
      rw [closesOf_of_emits (emits_bind (emits_allocationHalf R n input half)
        (fun allocation => emits_concludeCycle R (fun _ h => by cases h) half allocation)),
        List.append_nil]
  rw [runCycle, htail, settlementHalf, run_bind_of_ok hrun, run_get_bind]
  dsimp only
  rw [closesOf_append, hws, List.nil_append]
  cases hcollected : input.collected with
  | error raised =>
    have hctx : accountingContext R n input s = .error raised := by
      rw [accountingContext, hcollected]
      rfl
    rw [hctx]
    rfl
  | ok snapshot =>
    obtain ⟨state, -, hstate, -⟩ := hledger.balanced.account s.snapshots snapshot.completedAt
    have hctx : accountingContext R n input s
        = .ok (CycleContext.start R n input snapshot (accountedEvents R n input s),
          state.positions) := by
      rw [accountingContext, hcollected]
      show (accountState _ _ _ >>= fun state => _) = _
      rw [hstate]
      rfl
    rw [hctx, run_lift_ok_bind, closesOf_bind, closesOf_accountPositions (hevents ▸ hledger)
      (by rw [hevents, hsnapshots]; exact hstate), hevents]
    cases (accountPositions R n input snapshot (commitAll s ws)).2 with
    | error raised => exact List.append_nil _
    | ok t =>
      dsimp only
      rw [closesOf_of_emits (emits_bind (emits_currentState R (fun h => by cases h)) (fun _ =>
        emits_bind emits_get (fun _ => emits_bind (emits_write (records_of_event?_eq_none rfl))
          (fun _ => emits_pure _))))]
      exact List.append_nil _

end Cycle

end InefficiencyEngine.Portfolio
