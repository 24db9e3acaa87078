import InefficiencyEngine.Portfolio.Deployment
import InefficiencyEngine.Portfolio.Horizon
import InefficiencyEngine.Portfolio.RiskBudget

namespace InefficiencyEngine.Portfolio

open Prog

/-!
# The opening discipline of a cycle

A cycle opens nothing while an open position could not be valued, spends no more than the
cash it has after its closes, and opens no position that shares a conflict key with
another one.  The first two are facts about the journal of one cycle; the third is an
invariant of every reachable ledger (`Reachable.listed`).
-/

section Cycle

variable {R : Runtime} {n : ℕ} {input : CycleInput} {s : PortfolioStore}

/-! ### The parts of a cycle that open nothing -/

/-- No genesis event opens a position. -/
theorem genesisEvent_ne_open (eventId : Uuid) (observedAt : Instant) :
    (genesisEvent eventId observedAt).eventType ≠ .open := fun h => by cases h

/-- The accounting loop marks and closes. -/
theorem emits_settlementHalf_ne_open :
    Emits (Records (fun e => e.eventType ≠ .open)) (settlementHalf R n input) := by
  refine emits_settlementHalf (genesisEvent_ne_open _) (fun ctx _ _ i position v e hv he => ?_)
  cases v with
  | close outcome f =>
    obtain rfl : f = e := Option.some.inj he
    rw [(ctx.verdict_close_event hv).1]
    decide
  | fresh mark evidenceAt =>
    rw [(ctx.verdict_mark hv he).1]
    decide
  | stale mark blocked =>
    rw [(ctx.verdict_mark hv he).1]
    decide

/-- The openings of a cycle are those of its allocation half. The settlement half and the end of
    a cycle record no opening, so up to a cut inside the first half there is none, and behind it
    those of the allocation half. -/
theorem opensOf_runCycle (k : ℕ) :
    opensOf ((runCycle R n input s).1.take k) = [] ∨ ∃ half j,
      (settlementHalf R n input s).2 = .ok half
        ∧ k = (settlementHalf R n input s).1.length + j
        ∧ opensOf ((runCycle R n input s).1.take k)
          = opensOf ((allocationHalf R n input half (afterSettlement R n input s)).1.take j) := by
  have hsettle : ∀ i, opensOf ((settlementHalf R n input s).1.take i) = [] := fun i =>
    opensOf_eq_nil (fun w hw => emits_settlementHalf_ne_open s w (List.mem_of_mem_take hw))
  rw [runCycle, run_bind, List.take_append, opensOf_append, hsettle, List.nil_append]
  -- the cut lies in the settlement half
  rcases Nat.lt_or_ge k (settlementHalf R n input s).1.length with hlt | hge
  · left
    rw [Nat.sub_eq_zero_of_le hlt.le, List.take_zero]
    rfl
  -- behind it: the half raised, or the allocation half has begun
  cases hhalf : (settlementHalf R n input s).2 with
  | error raised =>
    left
    rw [List.take_nil]
    rfl
  | ok half =>
    right
    refine ⟨half, k - (settlementHalf R n input s).1.length, rfl, by omega, ?_⟩
    dsimp only
    rw [run_bind, List.take_append, opensOf_append]
    have hconclude : ∀ (allocation : AllocationHalf) (t : PortfolioStore) (j : ℕ),
        opensOf ((concludeCycle R n half allocation t).1.take j) = [] := fun allocation t j =>
      opensOf_eq_nil (fun w hw =>
        emits_concludeCycle R (genesisEvent_ne_open _) half allocation t w (List.mem_of_mem_take hw))
    cases (allocationHalf R n input half (final (settlementHalf R n input) s)).2 with
    | error raised =>
      rw [List.take_nil]
      exact List.append_nil _
    | ok allocation =>
      dsimp only
      rw [hconclude]
      exact List.append_nil _

/-! ### The allocation half -/

/-- What the allocation half does: nothing, or the deployment loop over a plan, which it
    only runs when no position is stale. -/
theorem allocationHalf_cases (half : SettlementHalf) (t : PortfolioStore) :
    (allocationHalf R n input half t).1 = []
      ∨ half.accounting.stalePositions = 0 ∧ ∃ plan,
        input.boundedAllocationPlan (max 0 half.afterClose.cashUsd) = .ok plan
        ∧ (allocationHalf R n input half t).1 = (plan.allocations.foldlM
          (deployAllocation R n plan.observedAt) (Deployment.start half) t).1 := by
  unfold allocationHalf
  split
  · rename_i hready
    cases hplan : input.boundedAllocationPlan (max 0 half.afterClose.cashUsd) with
    | error error => exact Or.inl rfl
    | ok plan =>
      refine Or.inr ⟨hready.2, plan, rfl, ?_⟩
      show ((plan.allocations.foldlM (deployAllocation R n plan.observedAt)
        (Deployment.start half) >>= _ : PortfolioProg AllocationHalf) t).1 = _
      rw [run_bind]
      cases (plan.allocations.foldlM (deployAllocation R n plan.observedAt)
        (Deployment.start half) t).2 with
      | error raised => exact List.append_nil _
      | ok d => exact List.append_nil _
  · exact Or.inl rfl

/-- An entry of `_open_event_map` for a listed position is its opening. -/
theorem Ledger.listed_position {k : ℕ} {t : PortfolioStore} (h : Ledger R k t.events)
    {observedAt : Instant} {state : CanonicalPaperPortfolioSnapshot}
    (hstate : accountState t.events t.snapshots observedAt = .ok state)
    {item : Uuid × CanonicalPortfolioEvent} (hitem : item ∈ (replay t.events).listedItems) :
    ∃ position ∈ state.positions, position.positionId = item.1
      ∧ (openEventMap t.events).get? position.positionId = some item.2 := by
  obtain ⟨state', positions, hstate', hperm, hdescribes, -⟩ := h.balanced.account t.snapshots observedAt
  rw [hstate, Except.ok.injEq] at hstate'
  subst hstate'
  obtain ⟨position, hposition, hdescribed⟩ := exists_described hdescribes hitem
  refine ⟨position, hperm.mem_iff.mpr hposition, hdescribed.positionId, ?_⟩
  rw [hdescribed.positionId, get?_openEventMap]
  exact Replay.mem_openItems.mp (List.mem_of_mem_filter hitem)

/-- A position of the account is listed in the log. -/
theorem Ledger.position_listed {k : ℕ} {t : PortfolioStore} (h : Ledger R k t.events)
    {observedAt : Instant} {state : CanonicalPaperPortfolioSnapshot}
    (hstate : accountState t.events t.snapshots observedAt = .ok state)
    {position : CanonicalPaperPosition} (hposition : position ∈ state.positions) :
    ∃ e, (position.positionId, e) ∈ (replay t.events).listedItems := by
  obtain ⟨state', positions, hstate', hperm, hdescribes, -⟩ := h.balanced.account t.snapshots observedAt
  rw [hstate, Except.ok.injEq] at hstate'
  subst hstate'
  obtain ⟨⟨id, e⟩, hitem, hdescribed⟩ := exists_describes hdescribes (hperm.mem_iff.mp hposition)
  obtain rfl : position.positionId = id := hdescribed.positionId
  exact ⟨e, hitem⟩

/-- The loop starts with the keys of all listed positions in use. -/
theorem Settled.covers {half : SettlementHalf} {t : PortfolioStore} (h : Settled R n half t) :
    Covers (Deployment.start half) t := by
  intro item hitem trial htrial key hkey
  obtain ⟨position, hposition, -, hget⟩ := h.working.ledger.listed_position h.afterClose hitem
  refine List.mem_flatMap.mpr ⟨position, hposition, ?_⟩
  rw [h.openEvents, hget, htrial]
  exact hkey

/-- **Allocation half.** It writes deployments of its plan. -/
theorem spec_allocationHalf_deploys (half : SettlementHalf) :
    Spec (fun t => Settled R n half t) (allocationHalf R n input half)
      (fun t block => ∃ plan,
        input.boundedAllocationPlan (max 0 half.afterClose.cashUsd) = .ok plan
          ∧ DeploymentBlock R n plan t block) (fun _ _ => True) := by
  refine ⟨fun t ht => ?_, fun _ _ _ _ => trivial⟩
  rcases allocationHalf_cases half t with hnil | ⟨-, plan, hplan, hws⟩
  · rw [hnil]
    exact Along.nil t
  · rw [hws]
    exact ((spec_deployLoop (Deployment.start half)).guarantee t ⟨ht.working, ht.covers, rfl⟩).mono
      (fun _ _ hblock => ⟨plan, hplan, hblock⟩)

/-! ### Relations between the listed positions -/

/-- **Cycle.** What relates the listed positions before a cycle, and every opening of the
    cycle to the positions listed then, relates the listed positions after any part of it. -/
theorem runCycle_listed
    {Apart : Uuid × CanonicalPortfolioEvent → Uuid × CanonicalPortfolioEvent → Prop}
    {Offered : ℕ → Prop} (h : Sound R n s) (hs : ListedPairwise Apart s)
    (hapart : ∀ half plan, (settlementHalf R n input s).2 = .ok half →
      input.boundedAllocationPlan (max 0 half.afterClose.cashUsd) = .ok plan →
      ∀ t, ListedWithin R n Apart Offered (afterSettlement R n input s) t →
      ∀ i allocation trial e, FreeOpening R n plan t i allocation trial e → Offered i ∧
      ∀ item ∈ (replay t.events).listedItems, Apart item (R.uuid4 n (.position i), e)) (k : ℕ) :
    ListedWithin R n Apart Offered s (commitAll s ((runCycle R n input s).1.take k)) := by
  have hsettle : Spec (Sound R n) (settlementHalf R n input) (CycleBlock R n input s)
    (fun half => Settled R n half) := spec_settlementHalf
  -- The settlement half lists nothing new.
  have hfirst : ∀ j, ListedWithin R n Apart Offered s
      (commitAll s ((settlementHalf R n input s).1.take j)) := by
    have hkeeps := (hsettle.emits emits_settlementHalf_ne_open).guarantee s h
    exact (hkeeps.mono (fun _ _ hblock => CycleBlock.keeps_listed hblock)).keeps
      (.refl (h.mono (Nat.le_succ n)) hs)
  have hafter : ListedWithin R n Apart Offered s (afterSettlement R n input s) := by
    have hall := hfirst (settlementHalf R n input s).1.length
    rwa [List.take_length] at hall
  rw [runCycle, run_bind, List.take_append, commitAll_append]
  cases hhalf : (settlementHalf R n input s).2 with
  | error raised =>
    rw [List.take_nil]
    exact hfirst k
  | ok half =>
    rcases Nat.lt_or_ge k (settlementHalf R n input s).1.length with hlt | hge
    · rw [Nat.sub_eq_zero_of_le hlt.le, List.take_zero]
      exact hfirst k
    rw [List.take_of_length_le hge]
    -- The rest of the cycle starts from what the settlement half left.
    have hconclude : ∀ allocation j, Spec (Working R n j) (concludeCycle R n half allocation)
        (CycleBlock R n input s) (fun _ => Working R n j) :=
      fun allocation _ => spec_concludeCycle half allocation
    have hrest : Spec (fun t => t = afterSettlement R n input s ∧ Settled R n half t)
        (allocationHalf R n input half >>= fun allocation => concludeCycle R n half allocation)
        (Along.Keeps (ListedWithin R n Apart Offered (afterSettlement R n input s)))
        (fun _ _ => True) := by
      refine spec_of_forall (fun t ht => ?_)
      refine spec_bind (((spec_allocationHalf half).and (spec_allocationHalf_deploys half)).weaken
        (fun _ he => ⟨⟨he, ht.2⟩, he ▸ ht.2⟩) ?_ (fun _ _ hk => hk.1))
        (fun allocation => spec_of_forall ?_)
      · rintro u block ⟨plan, hplan, hblock⟩
        exact hblock.keeps_listed (hapart half plan hhalf hplan u)
      · rintro u ⟨j, hj⟩
        exact ((hconclude allocation j).emits (emits_concludeCycle R (genesisEvent_ne_open _) half
          allocation)).weaken (fun _ he => he ▸ hj)
          (fun _ _ hblock => CycleBlock.keeps_listed hblock) (fun _ _ _ => trivial)
    exact hafter.trans ((hrest.guarantee _ ⟨rfl, hsettle.post s half h hhalf⟩).keeps
      (.refl hafter.sound hafter.pairwise) _)

/-! ### What a cycle opens -/

/-- `fresh_position_evidence` after the accounting loop: when each position that stayed open
    was valued. -/
def freshEvidence (R : Runtime) (n : ℕ) (input : CycleInput) (s : PortfolioStore) :
    Dict Uuid Instant :=
  match (settlementHalf R n input s).2 with
  | .ok half => half.accounting.freshPositionEvidence
  | .error _ => Dict.empty

/-- The positions of an account do not depend on its time. -/
theorem accountState_positions {events : List CanonicalPortfolioEvent}
    {snapshots : List CanonicalPaperPortfolioSnapshot} {observedAt : Instant}
    {state : CanonicalPaperPortfolioSnapshot}
    (h : accountState events snapshots observedAt = .ok state) :
    ∃ v, (replay events).valuation = .ok v
      ∧ state.positions = v.positions.insertionSort positionBefore := by
  obtain ⟨v, hv, h⟩ := bind_eq_ok h
  obtain ⟨-, -, -, -, -, -, hpositions, -⟩ := accountSnapshot_eq_ok h
  exact ⟨v, hv, hpositions⟩

/-- The positions a cycle accounts for are those open at its start. -/
theorem mem_accountingContext {ctx : CycleContext} {positions : List CanonicalPaperPosition}
    (hctx : accountingContext R n input s = .ok (ctx, positions)) {observedAt : Instant}
    {state : CanonicalPaperPortfolioSnapshot}
    (hstate : accountState s.events s.snapshots observedAt = .ok state)
    {position : CanonicalPaperPosition} (hmem : position ∈ state.positions) :
    position ∈ positions := by
  obtain ⟨v, hv, hpositions⟩ := accountState_positions hstate
  obtain ⟨snapshot, -, hctx⟩ := bind_eq_ok hctx
  obtain ⟨state', hstate', hctx⟩ := bind_eq_ok hctx
  injection hctx with hctx
  injection hctx with _ hctx
  obtain ⟨v', hv', hpositions'⟩ := accountState_positions hstate'
  rw [← hctx, hpositions']
  rw [hpositions] at hmem
  cases hevents : s.events with
  | nil =>
    rw [hevents] at hv
    injection hv with hv
    rw [← hv] at hmem
    cases hmem
  | cons first rest =>
    rw [accountedEvents, hevents] at hv'
    rw [hevents] at hv
    dsimp only at hv'
    rw [hv, Except.ok.injEq] at hv'
    rwa [← hv']

/-- The closes of a cycle are those of its settlement half. -/
theorem closesOf_settlementHalf :
    closesOf (runCycle R n input s).1 = closesOf (settlementHalf R n input s).1 := by
  rw [runCycle, closesOf_bind]
  cases (settlementHalf R n input s).2 with
  | error raised => exact List.append_nil _
  | ok half =>
    dsimp only
    rw [closesOf_of_emits (emits_bind (emits_allocationHalf R n input half)
      (fun allocation => emits_concludeCycle R (fun _ h => by cases h) half allocation)), List.append_nil]

/-- **Valuation first.** When a part of a cycle opens something, that part closed every position
    open at the start, or valued it on fresh evidence. The allocation half runs only if no
    position is stale, and every position that is not stale was closed or has its evidence noted
    in the accounting before. -/
theorem valued_of_opens (h : Sound R n s) {k : ℕ}
    (hopens : opensOf ((runCycle R n input s).1.take k) ≠ []) {observedAt : Instant}
    {state : CanonicalPaperPortfolioSnapshot}
    (hstate : accountState s.events s.snapshots observedAt = .ok state)
    {position : CanonicalPaperPosition} (hmem : position ∈ state.positions) :
    (∃ e ∈ closesOf ((runCycle R n input s).1.take k), e.positionId = some position.positionId)
      ∨ ∃ evidenceAt, (freshEvidence R n input s).get? position.positionId = some evidenceAt := by
  obtain ⟨half, j, hhalf, hk, hloop⟩ := (opensOf_runCycle k).resolve_left hopens
  -- something was opened, so no position was stale
  have hstale : half.accounting.stalePositions = 0 := by
    rcases allocationHalf_cases half (afterSettlement R n input s) with hnil | ⟨hstale, -⟩
    · rw [hnil, List.take_nil] at hloop
      exact absurd hloop hopens
    · exact hstale
  obtain ⟨-, ctx, positions, hctx, haccount⟩ := settlementHalf_account h hhalf
  have hover := CycleContext.account_over (lists_of_accountingContext h hctx).1 haccount
  obtain ⟨i, hi⟩ := List.getElem?_of_mem (mem_accountingContext hctx hstate hmem)
  obtain ⟨v, hv, hfresh, hstale'⟩ := hover.decided i position hi
  -- the verdict on the position: it closed, it has fresh evidence, or it is stale
  cases v with
  | close outcome e =>
    refine Or.inl ⟨e, ?_, (ctx.verdict_close_event hv).2.1⟩
    have hcloses : e ∈ closesOf (runCycle R n input s).1 := by
      rw [closesOf_runCycle input h, hctx]
      have hv' : ctx.verdict (CycleContext.Accounting.start.index + i) position
          = .ok (.close outcome e) := by
        rw [show CycleContext.Accounting.start.index = 0 from rfl, Nat.zero_add]
        exact hv
      exact CycleContext.mem_closes_of_account haccount hi hv'
    rw [closesOf_settlementHalf] at hcloses
    rw [hk, runCycle, run_bind, List.take_length_add_append, closesOf_append]
    exact List.mem_append_left _ hcloses
  | fresh mark evidenceAt =>
    refine Or.inr ⟨evidenceAt, ?_⟩
    rw [freshEvidence, hhalf]
    exact hfresh mark evidenceAt rfl
  | stale mark blocked =>
    have hpos := hstale' mark blocked rfl
    omega

/-- **Spending.** What a part of a cycle opens is paid from the cash there is after the
    closes. -/
theorem capitalOpened_runCycle (h : Sound R n s) (k : ℕ) {observedAt : Instant}
    {state : CanonicalPaperPortfolioSnapshot}
    (hstate : accountState (afterSettlement R n input s).events
      (afterSettlement R n input s).snapshots observedAt = .ok state) :
    capitalOpened ((runCycle R n input s).1.take k) ≤ max 0 state.cashUsd + budgetTolerance := by
  have htolerance : 0 < budgetTolerance := by
    rw [budgetTolerance]
    norm_num
  -- a part without an open event spends nothing
  have hzero : ∀ ws, opensOf ws = [] →
      capitalOpened ws ≤ max 0 state.cashUsd + budgetTolerance := by
    intro ws hws
    rw [capitalOpened, hws]
    have hmax : 0 ≤ max 0 state.cashUsd := le_max_left _ _
    show 0 ≤ _
    linarith
  -- the open events of a part are those of a part of the allocation loop
  rcases opensOf_runCycle k with hnil | ⟨half, j, hhalf, -, hloop⟩
  · exact hzero _ hnil
  -- the loop runs only if the allocation half made a plan
  rcases allocationHalf_cases half (afterSettlement R n input s) with hnil | ⟨-, plan, -, hws⟩
  · rw [hnil, List.take_nil] at hloop
    exact hzero _ hloop
  have hspec : Spec (Sound R n) (settlementHalf R n input) (CycleBlock R n input s)
    (fun half => Settled R n half) := spec_settlementHalf
  have hsettled : Settled R n half (afterSettlement R n input s) := hspec.post s half h hhalf
  -- the cash the loop starts from is that of the account after the closes
  have hcash : half.afterClose.cashUsd = state.cashUsd := by
    rw [hsettled.working.ledger.cash_eq hsettled.afterClose, hsettled.working.ledger.cash_eq hstate]
  have hmax : 0 ≤ max 0 half.afterClose.cashUsd := le_max_left _ _
  have hstart : 0 ≤ (Deployment.start half).remainingCash + budgetTolerance := by
    show 0 ≤ max 0 half.afterClose.cashUsd + budgetTolerance
    linarith
  rw [capitalOpened, hloop, hws, ← hcash]
  exact capitalOpened_loop plan.allocations (Deployment.start half) hstart _ j

end Cycle

/-! ### Separated positions -/

/-- The openings embed trials without a common conflict key. -/
def ConflictFree (item other : Uuid × CanonicalPortfolioEvent) : Prop :=
  ∀ t u, eventTrial (some item.2) = some t → eventTrial (some other.2) = some u →
    (trialConflicts t).Disjoint (trialConflicts u)

instance : Std.Symm ConflictFree := ⟨fun _ _ h t u ht hu => (h u t hu ht).symm⟩

/-- Two different positions of the account hold no common conflict key. -/
def Separated (s : PortfolioStore) : Prop :=
  ∀ observedAt state, accountState s.events s.snapshots observedAt = .ok state →
    ∀ p ∈ state.positions, ∀ q ∈ state.positions, p.positionId ≠ q.positionId →
      (openConflicts (openEventMap s.events) [p]).Disjoint (openConflicts (openEventMap s.events) [q])

/-- The conflict keys of a position are those of the trial its opening embeds. -/
theorem openConflicts_singleton {openEvents : Dict Uuid CanonicalPortfolioEvent}
    {position : CanonicalPaperPosition} {e : CanonicalPortfolioEvent}
    {trial : PaperAllocationTrial} (hget : openEvents.get? position.positionId = some e)
    (htrial : eventTrial (some e) = some trial) :
    openConflicts openEvents [position] = trialConflicts trial := by
  rw [openConflicts, List.flatMap_singleton, hget, htrial]

/-- Pairwise free openings separate the positions of the account. -/
theorem separated_of_listed {R : Runtime} {n : ℕ} {s : PortfolioStore} (hsound : Sound R n s)
    (h : ListedPairwise ConflictFree s) : Separated s := by
  intro observedAt state hstate p hp q hq hne
  rcases hsound with hempty | hledger
  · obtain ⟨v, hv, hpositions⟩ := accountState_positions hstate
    rw [hempty] at hv
    injection hv with hv
    rw [hpositions, ← hv] at hp
    cases hp
  -- Each position has its opening among the listed items, and that embeds a trial.
  have hitem : ∀ r ∈ state.positions, ∃ e trial, (r.positionId, e) ∈ (replay s.events).listedItems
      ∧ eventTrial (some e) = some trial
      ∧ openConflicts (openEventMap s.events) [r] = trialConflicts trial := by
    intro r hr
    obtain ⟨e, hmem⟩ := hledger.position_listed hstate hr
    have hopen : (replay s.events).IsOpen r.positionId e :=
      Replay.mem_openItems.mp (List.mem_of_mem_filter hmem)
    obtain ⟨run, -, i, allocation, trial, -, hby⟩ := hledger.opened _ e hopen.1
    exact ⟨e, trial, hmem, hby.eventTrial_eq,
      openConflicts_singleton ((get?_openEventMap _ _ _).mpr hopen) hby.eventTrial_eq⟩
  obtain ⟨e, t, hpe, ht, hpkeys⟩ := hitem p hp
  obtain ⟨f, u, hqf, hu, hqkeys⟩ := hitem q hq
  rw [hpkeys, hqkeys]
  exact h.forall hpe hqf (fun heq => hne (congrArg Prod.fst heq)) t u ht hu

/-- **Step.** A cycle keeps the listed positions free of conflicts, cut off anywhere. -/
theorem runCycle_conflictFree {R : Runtime} {n : ℕ} {s : PortfolioStore} (h : Sound R n s)
    (hs : ListedPairwise ConflictFree s) (input : CycleInput) (k : ℕ) :
    ListedWithin R n ConflictFree (fun _ => True) s
      (commitAll s ((runCycle R n input s).1.take k)) := by
  refine runCycle_listed h hs ?_ k
  refine fun _ plan _ _ t _ i allocation trial e hopening => ⟨trivial, ?_⟩
  intro item hitem u w hu hw key hkey hmem
  rw [hopening.opened.eventTrial_eq, Option.some.injEq] at hw
  subst hw
  exact hopening.free item hitem u hu key hmem hkey

/-- **Run.** The listed positions of a reachable ledger are free of conflicts. -/
theorem Reachable.conflictFree {R : Runtime} {Allowed : ℕ → PortfolioStore → CycleInput → Prop}
    {n : ℕ} {s : PortfolioStore} (h : Reachable R Allowed n s) : ListedPairwise ConflictFree s := by
  induction h with
  | start => exact List.Pairwise.nil
  | cycle hs input _ k ih => exact (runCycle_conflictFree hs.sound ih input k).pairwise

/-! ### The discipline -/

/-- The discipline of the first `k` writes of a cycle. -/
structure OpeningDiscipline (R : Runtime) (n : ℕ) (input : CycleInput) (s : PortfolioStore)
    (k : ℕ) : Prop where
  /-- They open something only when every position open at the start of the cycle was closed
      or valued on fresh evidence. -/
  valued : opensOf ((runCycle R n input s).1.take k) ≠ [] →
    ∀ observedAt state, accountState s.events s.snapshots observedAt = .ok state →
    ∀ position ∈ state.positions,
      (∃ e ∈ closesOf ((runCycle R n input s).1.take k), e.positionId = some position.positionId)
        ∨ ∃ evidenceAt, (freshEvidence R n input s).get? position.positionId = some evidenceAt
  /-- What they open reserves at most the cash after the closes. -/
  budget : ∀ observedAt state, accountState (afterSettlement R n input s).events
      (afterSettlement R n input s).snapshots observedAt = .ok state →
    capitalOpened ((runCycle R n input s).1.take k) ≤ max 0 state.cashUsd + budgetTolerance
  /-- They leave separated positions. -/
  separated : Separated (commitAll s ((runCycle R n input s).1.take k))

end InefficiencyEngine.Portfolio
