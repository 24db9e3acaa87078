import InefficiencyEngine.Portfolio.Valuation

namespace InefficiencyEngine.Portfolio

open Prog

/-!
# When the account is reported as fresh

The specifications below follow `run_cycle` and say of each of its parts that every write
keeps the evidence of the log in order (`KeepsEvidence`) and what it leaves noted
(`Valued`).  The first makes the order an invariant of reachable ledgers; the second gives
the meaning of a `fresh` integrity snapshot (`freshlyValued_of_reachable`).
-/

section Cycle

variable {R : Runtime} {n : ℕ} {input : CycleInput} {s₀ : PortfolioStore}

/-- The condition on a cycle: no position is quoted by older evidence than it was last
    valued on, and the plans name what they allocate to. -/
structure Orderly (R : Runtime) (n : ℕ) (input : CycleInput) (s : PortfolioStore) : Prop where
  forward : ∀ ctx positions, accountingContext R n input s = .ok (ctx, positions) →
    ∀ position ∈ positions, ctx.Forward position
  named : input.Plans UnifiedPaperAllocation.Named

/-! ### The settlement half -/

/-- The log has its evidence in order once it has its genesis event. -/
theorem ensureGenesis_evidence (input : CycleInput) (h : Sound R n s₀)
    (hids : IdsDrawn R n (fun _ => False) s₀) (hlog : EvidenceLog s₀.events) :
    ∃ ws, ensureGenesis R (R.uuid4 n .genesis) input.now s₀ = (ws, .ok ())
      ∧ KeepsEvidence s₀ ws ∧ (commitAll s₀ ws).events = accountedEvents R n input s₀
      ∧ (commitAll s₀ ws).snapshots = s₀.snapshots ∧ Working R n 0 (commitAll s₀ ws)
      ∧ EvidenceLog (commitAll s₀ ws).events ∧ IdsDrawn R n (UsedBy 0 0) (commitAll s₀ ws) := by
  obtain ⟨ws, hrun, -, hevents, hsnapshots, hledger⟩ := ensureGenesis_sound input h
  have hworking : Working R n 0 (commitAll s₀ ws) := by
    rw [← hevents] at hledger
    exact hledger.working
  refine ⟨ws, hrun, ?_⟩
  -- an empty log: the genesis event starts the evidence in order
  rcases h with hempty | hledger₀
  · rw [ensureGenesis_run_nil hempty, Prod.mk.injEq] at hrun
    obtain ⟨rfl, -⟩ := hrun
    have hnil : Quiet [] := fun w hw => by cases hw
    have hrecord : (Durable.commit s₀ (eventWrite R s₀
          (genesisEvent (R.uuid4 n .genesis) input.now))).events = s₀.events ++ [_]
        ∧ IdsDrawn R n (UsedBy 0 0) (Durable.commit s₀ (eventWrite R s₀ _)) :=
      hids.record rfl id (fun _ hfalse => hfalse.elim) trivial
    obtain ⟨hrecorded, hdrawn⟩ := hrecord
    have hstarted : EvidenceLog (Durable.commit s₀ (eventWrite R s₀
        (genesisEvent (R.uuid4 n .genesis) input.now))).events := by
      rw [hrecorded]
      exact hlog.append (.other (Or.inl rfl))
    exact ⟨keepsEvidence_event hnil hnil hstarted, hevents, hsnapshots, hworking, hstarted, hdrawn⟩
  -- a log that has its genesis event is left alone
  · rw [ensureGenesis_run hledger₀, Prod.mk.injEq] at hrun
    obtain ⟨rfl, -⟩ := hrun
    exact ⟨Quiet.keepsEvidence (fun w hw => by cases hw) s₀, hevents, hsnapshots, hworking, hlog,
      hids.mono (fun _ hfalse => hfalse.elim)⟩

/-- Nothing is noted at first, and every listed position is still to be dealt with. -/
theorem Valued.start {orderly : Prop} {s : PortfolioStore} {k : ℕ} (h : Ledger R k s.events)
    (hlog : EvidenceLog s.events) {observedAt : Instant} {state : CanonicalPaperPortfolioSnapshot}
    (hstate : accountState s.events s.snapshots observedAt = .ok state) :
    Valued orderly (latestPositionEvidenceTimes s.events)
      (state.positions.map (fun position => position.positionId)) 0 Dict.empty s.events := by
  refine ⟨hlog, fun _ _ => rfl, fun _ _ => rfl, ?_, fun _ _ _ hnoted => (by cases hnoted), ?_,
    fun _ _ _ hnoted => (by cases hnoted)⟩
  · intro p hp
    obtain ⟨position, hposition, rfl⟩ := List.mem_map.mp hp
    exact h.position_listed hstate hposition
  · intro item hitem
    obtain ⟨position, hposition, hid, -⟩ := h.listed_position hstate hitem
    exact Or.inl (hid ▸ List.mem_map_of_mem hposition)

/-- **Accounting loop.** The loop runs over the positions open in the state it read, and every
    position seen has evidence noted or a mark in the log. -/
theorem spec_accountPositions_valued {snapshot : ScanSnapshot} {s : PortfolioStore}
    (hcollected : input.collected = .ok snapshot) (hworking : Working R n 0 s)
    (hevents : s.events = accountedEvents R n input s₀) (hsnapshots : s.snapshots = s₀.snapshots)
    (hlog : EvidenceLog s.events) (hids : IdsDrawn R n (UsedBy 0 0) s) :
    Spec (fun t => t = s) (accountPositions R n input snapshot) KeepsEvidence
      (fun t u => IdsDrawn R n (UsedBy t.index 0) u ∧ ∃ prior, Valued (Orderly R n input s₀) prior []
        t.stalePositions t.freshPositionEvidence u.events) := by
  obtain ⟨state, hstate, hcurrent⟩ :=
    currentState_run hworking.ledger (R.uuid4 n .genesis) snapshot.completedAt
  have hctx : accountingContext R n input s₀
      = .ok (CycleContext.start R n input snapshot s.events, state.positions) := by
    rw [accountingContext, hcollected, ← hevents, ← hsnapshots]
    show (accountState _ _ _ >>= fun state => _) = _
    rw [hstate]
    rfl
  -- the positions are distinct, so none is accounted twice
  have hnodup := (hworking.ledger.stillOpen hstate n input snapshot).1
  have hrun : accountPositions R n input snapshot s = state.positions.foldlM
      (CycleContext.start R n input snapshot s.events).accountPosition
        CycleContext.Accounting.start s := by
    rw [accountPositions, run_bind_of_silent hcurrent, run_get_bind]
  have hstart : Valued (Orderly R n input s₀) (latestPositionEvidenceTimes s.events)
      (state.positions.map (fun position => position.positionId)) 0 Dict.empty s.events :=
    .start hworking.ledger hlog hstate
  -- The invariant of the loop: what is noted about the positions seen, with the rest pending.
  have hloop : Spec (fun u => u = s) (state.positions.foldlM
      (CycleContext.start R n input snapshot s.events).accountPosition CycleContext.Accounting.start)
      KeepsEvidence (fun t u => ∀ rest, state.positions = state.positions ++ rest →
        IdsDrawn R n (UsedBy t.index 0) u ∧ Valued (Orderly R n input s₀)
          (latestPositionEvidenceTimes s.events) (rest.map (fun position => position.positionId))
          t.stalePositions t.freshPositionEvidence u.events) := by
    refine Spec.pre (spec_foldlM (J := fun seen (t : CycleContext.Accounting) u => ∀ rest,
      state.positions = seen ++ rest → IdsDrawn R n (UsedBy t.index 0) u
        ∧ Valued (Orderly R n input s₀) (latestPositionEvidenceTimes s.events)
          (rest.map (fun position => position.positionId)) t.stalePositions t.freshPositionEvidence
          u.events) ?_ _) ?_
    -- one position moves from the pending to the seen ones
    · intro seen position rest t hpositions
      have hp : position.positionId ∉ rest.map (fun position => position.positionId) := by
        rw [hpositions, List.map_append, List.nodup_append, List.map_cons, List.nodup_cons] at hnodup
        exact hnodup.2.1.1
      have hmem : position ∈ state.positions := by
        rw [hpositions]
        exact List.mem_append_right _ List.mem_cons_self
      refine Spec.weaken (spec_accountPosition_valued rfl rfl t hp
        (fun horderly : Orderly R n input s₀ => horderly.forward _ _ hctx position hmem)) ?_
        (fun _ _ hb => hb) ?_
      · exact fun u hu => hu (position :: rest) hpositions
      · intro t' u hu rest' hrest'
        rw [hpositions, List.append_assoc, List.singleton_append] at hrest'
        rw [← (List.cons.inj (List.append_cancel_left hrest')).2]
        exact hu
    · rintro u rfl rest hrest
      rw [← List.nil_append rest, ← hrest]
      exact ⟨hids, hstart⟩
  refine ⟨fun u hu => ?_, fun u t hu ht => ?_⟩
  · rw [hu, hrun]
    exact hloop.guarantee s rfl
  · rw [hu, hrun] at ht
    obtain ⟨hdrawn, hvalued⟩ := hloop.post s t rfl ht [] (List.append_nil _).symm
    rw [hu, Prog.final, hrun]
    exact ⟨hdrawn, _, hvalued⟩

/-- The account of the log is read without a write. -/
theorem spec_currentState_silent {P : PortfolioStore → Prop} (hP : ∀ s, P s → ∃ k, Working R n k s)
    (eventId : Uuid) (observedAt : Instant) :
    Spec P (currentState R eventId observedAt) KeepsEvidence
      (fun state s => P s ∧ accountState s.events s.snapshots observedAt = .ok state) := by
  refine spec_silent (fun s hs => ?_) (fun s state hs hres => ?_)
  · obtain ⟨k, hworking⟩ := hP s hs
    obtain ⟨state, -, hrun⟩ := currentState_run hworking.ledger eventId observedAt
    rw [hrun]
  · obtain ⟨k, hworking⟩ := hP s hs
    obtain ⟨state', hstate, hrun⟩ := currentState_run hworking.ledger eventId observedAt
    rw [hrun, Except.ok.injEq] at hres
    exact ⟨hs, hres ▸ hstate⟩

/-- What the settlement half leaves noted. -/
structure SettledValued (R : Runtime) (n : ℕ) (input : CycleInput) (s₀ : PortfolioStore)
    (half : SettlementHalf) (s : PortfolioStore) : Prop where
  settled : Settled R n half s
  drawn : IdsDrawn R n (UsedBy half.accounting.index 0) s
  valued : ∃ prior, Valued (Orderly R n input s₀) prior [] half.accounting.stalePositions
    half.accounting.freshPositionEvidence s.events

/-- **Settlement half.** It is the genesis, the accounting loop and the integrity snapshot, of
    which only the loop notes evidence. -/
theorem spec_settlementHalf_valued (h : Sound R n s₀) (hids : IdsDrawn R n (fun _ => False) s₀)
    (hlog : EvidenceLog s₀.events) :
    Spec (fun s => s = s₀) (settlementHalf R n input) KeepsEvidence
      (fun half s => SettledValued R n input s₀ half s) := by
  obtain ⟨ws, hgenesis, hkeeps, hevents, hsnapshots, hworking, hlog', hdrawn⟩ :=
    ensureGenesis_evidence input h hids hlog
  refine spec_bind (Q := fun _ s => s = commitAll s₀ ws) (spec_block ?_ ?_)
    (fun _ => spec_bind spec_get (fun s₁ => ?_))
  · rintro _ rfl
    rw [hgenesis]
    exact hkeeps
  · rintro _ _ rfl -
    rw [Prog.final, hgenesis]
  refine spec_bind (spec_lift input.collected) (fun snapshot => spec_of_fact (fun hcollected => ?_))
  have hsound : Spec (Working R n 0) (accountPositions R n input snapshot) (CycleBlock R n input s₀)
    (fun _ => Working R n 0) := spec_accountPositions hcollected
  refine spec_bind (Spec.pre (hsound.and
    (spec_accountPositions_valued hcollected hworking hevents hsnapshots hlog' hdrawn)) ?_)
    (fun t => ?_)
  · rintro s ⟨rfl, -⟩
    exact ⟨hworking, rfl⟩
  refine spec_bind (spec_currentState_silent (fun s hs => ⟨0, hs.1⟩) _ _) (fun afterClose =>
    spec_bind spec_get (fun s₂ => ?_))
  refine spec_bind (Q := fun _ s => (Working R n 0 s ∧ openEventMap s₂.events = openEventMap s.events
      ∧ accountState s.events s.snapshots snapshot.completedAt = .ok afterClose)
      ∧ IdsDrawn R n (UsedBy t.index 0) s ∧ ∃ prior, Valued (Orderly R n input s₀) prior []
        t.stalePositions t.freshPositionEvidence s.events)
    ((spec_write _).pre ?_) (fun _ => (spec_pure
      (Q := fun half s => SettledValued R n input s₀ half s) _).pre ?_)
  -- the integrity snapshot records no event
  · rintro s ⟨⟨⟨hworking', hdrawn', hvalued⟩, hstate⟩, rfl⟩
    obtain ⟨hsame, hsnapshots'⟩ := commit_integrity s₂ _
    refine ⟨(quiet_integrity _).keepsEvidence s₂, ⟨hworking'.of_events hsame, by rw [hsame],
      by rw [hsame, hsnapshots', hstate]⟩, ?_, by rw [hsame]; exact hvalued⟩
    rw [IdsDrawn, hsame]
    exact hdrawn'
  · rintro s ⟨⟨hworking', hopen, hstate⟩, hdrawn', hvalued⟩
    exact ⟨⟨hworking', hopen, hstate⟩, hdrawn', hvalued⟩

/-! ### The allocation half -/

/-- **One allocation.** Like the loop over the positions, with the openings as the writes: a
    skip changes nothing that is noted, and an opening notes the evidence of its allocation. -/
theorem spec_deployAllocation_valued {orderly : Prop} {prior : Dict Uuid Instant} {stale i : ℕ}
    {plan : UnifiedPaperAllocationPlan} {seen : List UnifiedPaperAllocation} {d : Deployment}
    {allocation : UnifiedPaperAllocation} (hnamed : orderly → allocation.Named) :
    Spec (fun s => Deploying R n seen d s ∧ IdsDrawn R n (UsedBy i d.index) s
        ∧ Valued orderly prior [] stale d.freshPositionEvidence s.events)
      (deployAllocation R n plan.observedAt d allocation) KeepsEvidence
      (fun d' s => IdsDrawn R n (UsedBy i d'.index) s
        ∧ Valued orderly prior [] stale d'.freshPositionEvidence s.events) := by
  refine spec_of_forall (fun s hs => ?_)
  obtain ⟨hdeploying, hids, hvalued⟩ := hs
  have hnil : Quiet [] := fun w hw => by cases hw
  -- the event of this index has an id that no earlier one drew
  have hrecord : ∀ e : CanonicalPortfolioEvent, e.eventId = R.uuid4 n (.allocationEvent d.index) →
      (Durable.commit s (eventWrite R s e)).events = s.events ++ [e]
        ∧ IdsDrawn R n (UsedBy i (d.index + 1)) (Durable.commit s (eventWrite R s e)) :=
    fun e hid => hids.record hid (lt_irrefl d.index)
      (fun draw hdraw => hdraw.mono le_rfl (Nat.le_succ _)) (Nat.lt_succ_self d.index)
  have hstep : Deploys R n plan.observedAt d allocation s _ := deployAllocation_deploys
  generalize hres : deployAllocation R n plan.observedAt d allocation s = res at hstep
  cases hstep with
  | raises raised =>
    refine spec_silent (fun u hu => ?_) (fun u d' hu hd' => ?_)
    · rw [hu, hres]
    · rw [hu, hres] at hd'
      cases hd'
  | skips e hid htype =>
    obtain ⟨hevents, hdrawn⟩ := hrecord e hid
    have hskipped := hvalued.skip htype
    rw [← hevents] at hskipped
    refine spec_block (fun u hu => ?_) (fun u d' hu hd' => ?_)
    · rw [hu, hres]
      exact keepsEvidence_event hnil hnil hskipped.log
    · rw [hu, hres, Except.ok.injEq] at hd'
      rw [hu, Prog.final, hres, ← hd']
      exact ⟨hdrawn, hskipped⟩
  | opens trial htrial hsupported hrefusal =>
    have hopened := OpenedBy.intro (R.uuid4 n (.allocationEvent d.index)) plan.observedAt htrial
      hsupported
    obtain ⟨hevents, hdrawn⟩ := hrecord (openFromAllocation (R.uuid4 n (.allocationEvent d.index))
      (R.uuid4 n (.position d.index)) allocation trial plan.observedAt) rfl
    have hnoted := hvalued.opening hdeploying.working.ledger hopened.positionId hopened.eventType
      (hdeploying.working.fresh d.index le_rfl)
      (rfl : _ = some (allocation.sourceObservedAt.getD plan.observedAt))
      (fun horderly => hopened.hasTexts (hnamed horderly))
    rw [← hevents] at hnoted
    refine spec_block (fun u hu => ?_) (fun u d' hu hd' => ?_)
    · rw [hu, hres]
      exact keepsEvidence_event hnil (quiet_trial trial) hnoted.log
    · rw [hu, hres, Except.ok.injEq] at hd'
      rw [hu, Prog.final, hres, ← hd']
      exact ⟨hdrawn, hnoted⟩

/-- What the allocation half leaves noted. -/
structure AllocatedValued (R : Runtime) (n : ℕ) (input : CycleInput) (s₀ : PortfolioStore)
    (half : SettlementHalf) (allocation : AllocationHalf) (s : PortfolioStore) : Prop where
  working : ∃ k, Working R n k s
  valued : ∃ prior, Valued (Orderly R n input s₀) prior [] half.accounting.stalePositions
    allocation.deployment.freshPositionEvidence s.events

/-- **Allocation half.** The loop over the allocations starts from the positions accounted
    before, and a plan that fails or is not asked for leaves what was noted as it is. -/
theorem spec_allocationHalf_valued (half : SettlementHalf) :
    Spec (fun s => SettledValued R n input s₀ half s) (allocationHalf R n input half) KeepsEvidence
      (fun allocation s => AllocatedValued R n input s₀ half allocation s) := by
  -- without a plan the half writes nothing
  have hskip : ∀ a : AllocationHalf, a.deployment = Deployment.start half →
      Spec (fun s => SettledValued R n input s₀ half s) (pure a : PortfolioProg AllocationHalf)
        KeepsEvidence (fun allocation s => AllocatedValued R n input s₀ half allocation s) := by
    intro a ha
    refine (spec_pure (Q := fun allocation s => AllocatedValued R n input s₀ half allocation s) a).pre
      (fun s hs => ⟨⟨0, hs.settled.working⟩, ?_⟩)
    rw [ha]
    exact hs.valued
  unfold allocationHalf
  dsimp only
  split
  · cases hplan : input.boundedAllocationPlan (max 0 half.afterClose.cashUsd) with
    | error error => exact hskip _ rfl
    | ok plan =>
      refine spec_bind (Spec.pre (spec_foldlM (J := fun seen d s => Deploying R n seen d s
          ∧ IdsDrawn R n (UsedBy half.accounting.index d.index) s
          ∧ ∃ prior, Valued (Orderly R n input s₀) prior [] half.accounting.stalePositions
            d.freshPositionEvidence s.events) ?_ (Deployment.start half)) ?_)
        (fun d => (spec_pure
          (Q := fun allocation s => AllocatedValued R n input s₀ half allocation s) _).pre ?_)
      -- one allocation extends what is seen and what is noted
      · intro seen allocation rest d hallocations
        have hplace : plan.allocations[seen.length]? = some allocation := by
          rw [hallocations, List.getElem?_append_right (Nat.le_refl _), Nat.sub_self]
          rfl
        refine spec_of_forall (fun s hs => ?_)
        obtain ⟨hdeploying, hdrawn, prior, hvalued⟩ := hs
        have hnoted : Spec (fun s => Deploying R n seen d s
              ∧ IdsDrawn R n (UsedBy half.accounting.index d.index) s
              ∧ Valued (Orderly R n input s₀) prior [] half.accounting.stalePositions
                d.freshPositionEvidence s.events)
            (deployAllocation R n plan.observedAt d allocation) KeepsEvidence _ :=
          spec_deployAllocation_valued (fun horderly =>
            horderly.named _ plan hplan allocation (List.mem_of_getElem? hplace))
        refine Spec.weaken ((spec_deployIteration hplace).and hnoted) ?_ (fun _ _ hb => hb) ?_
        · rintro u rfl
          exact ⟨hdeploying, hdeploying, hdrawn, hvalued⟩
        · rintro d' u ⟨hdeploying', hdrawn', hvalued'⟩
          exact ⟨hdeploying', hdrawn', prior, hvalued'⟩
      · intro s hs
        exact ⟨⟨hs.settled.working, hs.settled.covers, rfl⟩, hs.drawn, hs.valued⟩
      · rintro s ⟨hdeploying, -, hvalued⟩
        exact ⟨⟨_, hdeploying.working⟩, hvalued⟩
  · exact hskip _ rfl

/-! ### The cycle -/

/-- The end of a cycle records no event. -/
theorem spec_concludeCycle_evidence (half : SettlementHalf) (allocation : AllocationHalf) :
    Spec (fun s => ∃ k, Working R n k s) (concludeCycle R n half allocation) KeepsEvidence
      (fun _ _ => True) := by
  refine spec_bind (spec_currentState_silent (fun _ hs => hs) _ _) (fun state => ?_)
  refine spec_bind (Q := fun _ _ => True) ((spec_write _).pre
    (fun s _ => ⟨(quiet_snapshot _).keepsEvidence s, trivial⟩)) (fun _ => ?_)
  exact spec_bind (Q := fun _ _ => True) ((spec_write _).pre
    (fun s _ => ⟨(quiet_integrity _).keepsEvidence s, trivial⟩))
    (fun _ => spec_pure (Q := fun _ _ => True) _)

/-- **Step.** A cycle keeps the evidence of the log in order, cut off anywhere. -/
theorem evidenceLog_runCycle (h : Sound R n s₀) (hids : IdsDrawn R n (fun _ => False) s₀)
    (hlog : EvidenceLog s₀.events) (k : ℕ) :
    EvidenceLog (commitAll s₀ ((runCycle R n input s₀).1.take k)).events := by
  have hspec : Spec (fun s => s = s₀) (runCycle R n input) KeepsEvidence (fun _ _ => True) := by
    refine spec_bind (spec_settlementHalf_valued h hids hlog) (fun half => spec_bind
      (spec_allocationHalf_valued half) (fun allocation => ?_))
    exact (spec_concludeCycle_evidence half allocation).pre (fun _ hs => hs.working)
  exact (hspec.guarantee s₀ rfl).keeps hlog k

/-- **Run.** Reachable ledgers have their evidence in order. -/
theorem Reachable.evidenceLog {Allowed : ℕ → PortfolioStore → CycleInput → Prop} {s : PortfolioStore}
    (h : Reachable R Allowed n s) : EvidenceLog s.events := by
  induction h with
  | start =>
    exact ⟨fun _ _ hlatest => (by cases hlatest), fun _ _ hopen => (by cases hopen.1),
      fun _ _ => rfl⟩
  | cycle hs input _ k ih => exact evidenceLog_runCycle hs.sound hs.idsDrawn ih k

/-- `fresh_position_evidence` at the end of a cycle: the time of the evidence each open
    position was valued or opened on. -/
def cycleEvidence (R : Runtime) (n : ℕ) (input : CycleInput) (s : PortfolioStore) :
    Dict Uuid Instant :=
  match (settlementHalf R n input s).2 with
  | .ok half =>
    match (allocationHalf R n input half (afterSettlement R n input s)).2 with
    | .ok allocation => allocation.deployment.freshPositionEvidence
    | .error _ => Dict.empty
  | .error _ => Dict.empty

/-- The end of a cycle, from a log with the ledger invariant. -/
theorem concludeCycle_run {k : ℕ} {s : PortfolioStore} (h : Ledger R k s.events)
    (half : SettlementHalf) (allocation : AllocationHalf) :
    ∃ state snapshot, accountState s.events s.snapshots half.snapshot.completedAt = .ok state
      ∧ (concludeCycle R n half allocation s).1 = [.snapshot state, .integrity snapshot]
      ∧ (snapshot.valuationStatus, snapshot.marketEvidenceAt)
        = valuationOf state.openPositionCount half.accounting.stalePositions
          allocation.deployment.freshPositionEvidence half.previousIntegrity
          half.snapshot.completedAt := by
  obtain ⟨state, hstate, hcurrent⟩ := currentState_run h (R.uuid4 n .genesis) half.snapshot.completedAt
  refine ⟨state, ?snapshot, hstate, ?journal, ?valuation⟩
  case journal =>
    rw [concludeCycle, run_bind_of_silent hcurrent]
    rfl
  case valuation => rfl

/-- A completed cycle, part by part. -/
theorem runCycle_eq_ok (h : Sound R n s₀) {cycle : CanonicalPaperPortfolioCycle}
    (hok : (runCycle R n input s₀).2 = .ok cycle) :
    ∃ half allocation t state snapshot, (settlementHalf R n input s₀).2 = .ok half
      ∧ (allocationHalf R n input half (afterSettlement R n input s₀)).2 = .ok allocation
      ∧ t = final (allocationHalf R n input half) (afterSettlement R n input s₀)
      ∧ accountState t.events t.snapshots half.snapshot.completedAt = .ok state
      ∧ (runCycle R n input s₀).1.getLast? = some (.integrity snapshot)
      ∧ (final (runCycle R n input) s₀).events = t.events
      ∧ (snapshot.valuationStatus, snapshot.marketEvidenceAt)
        = valuationOf state.openPositionCount half.accounting.stalePositions
          allocation.deployment.freshPositionEvidence half.previousIntegrity
          half.snapshot.completedAt := by
  -- the three parts of a completed cycle, each of which ended normally
  obtain ⟨half, hhalf, hrest, hjournal⟩ := run_bind_eq_ok hok
  obtain ⟨allocation, hallocation, hrest, hjournal'⟩ := run_bind_eq_ok hrest
  have hsettle : Spec (Sound R n) (settlementHalf R n input) (CycleBlock R n input s₀)
    (fun half => Settled R n half) := spec_settlementHalf
  have hsettled := hsettle.post s₀ half h hhalf
  obtain ⟨k, hworking⟩ := (spec_allocationHalf half).post _ allocation ⟨rfl, hsettled⟩ hallocation
  obtain ⟨state, snapshot, hstate, hconclude, hvaluation⟩ :=
    concludeCycle_run (n := n) hworking.ledger half allocation
  -- its journal is that of the parts, with the two snapshots last
  have hws : (runCycle R n input s₀).1 = ((settlementHalf R n input s₀).1
      ++ (allocationHalf R n input half (afterSettlement R n input s₀)).1)
      ++ [.snapshot state, .integrity snapshot] := by
    rw [← hconclude, List.append_assoc]
    exact hjournal.trans (congrArg _ hjournal')
  refine ⟨half, allocation, _, state, snapshot, hhalf, hallocation, rfl, hstate, ?_, ?_, hvaluation⟩
  · rw [hws, List.getLast?_append]
    rfl
  · rw [Prog.final, hws, commitAll_append, commitAll_append]
    exact (commit_integrity _ snapshot).1

/-- What a completed cycle that reports its account as fresh promises: every open position
    was valued in it on evidence not older than any the log records for the position, and the
    reported time is the least of these. -/
def FreshlyValued (R : Runtime) (n : ℕ) (input : CycleInput) (s : PortfolioStore) : Prop :=
  ∀ cycle snapshot, (runCycle R n input s).2 = .ok cycle →
    (runCycle R n input s).1.getLast? = some (.integrity snapshot) →
    snapshot.valuationStatus = .fresh →
    ∀ t observedAt state, t = (runCycle R n input).final s →
      accountState t.events t.snapshots observedAt = .ok state →
      (∀ position ∈ state.positions, ∃ evidenceAt,
        (cycleEvidence R n input s).get? position.positionId = some evidenceAt
          ∧ ∀ x ∈ recordedEvidence t.events position.positionId, x ≤ evidenceAt)
      ∧ ∃ evidenceAt, snapshot.marketEvidenceAt = some evidenceAt
        ∧ IsLeast {x | ∃ position ∈ state.positions,
          (cycleEvidence R n input s).get? position.positionId = some x} evidenceAt

/-- The number of open positions of an account is that of its list, which does not depend on
    the time of the account. -/
theorem accountState_count {events : List CanonicalPortfolioEvent}
    {snapshots snapshots' : List CanonicalPaperPortfolioSnapshot} {observedAt observedAt' : Instant}
    {state state' : CanonicalPaperPortfolioSnapshot}
    (h : accountState events snapshots observedAt = .ok state)
    (h' : accountState events snapshots' observedAt' = .ok state') :
    state.openPositionCount = state'.positions.length := by
  obtain ⟨v, hv, h⟩ := bind_eq_ok h
  obtain ⟨-, -, -, -, -, -, -, hcount, -⟩ := accountSnapshot_eq_ok h
  obtain ⟨v', hv', hpositions⟩ := accountState_positions h'
  rw [hv, Except.ok.injEq] at hv'
  rw [hcount, hpositions, List.length_insertionSort, hv']

/-- A status is `fresh` when there are positions and none of them is stale. -/
theorem valuationOf_fresh {openPositionCount stalePositions : ℕ} {fresh : Dict Uuid Instant}
    {previous : Option PortfolioIntegritySnapshot} {completedAt : Instant}
    {marketEvidenceAt : Option Instant}
    (h : (ValuationStatus.fresh, marketEvidenceAt)
      = valuationOf openPositionCount stalePositions fresh previous completedAt) :
    openPositionCount ≠ 0 ∧ stalePositions = 0
      ∧ marketEvidenceAt = some (fresh.values.min?.getD completedAt) := by
  unfold valuationOf at h
  split at h
  · cases (Prod.mk.inj h).1
  · rename_i hcount
    split at h
    · rename_i hstale
      exact ⟨hcount, hstale, (Prod.mk.inj h).2⟩
    · split at h <;> cases (Prod.mk.inj h).1

/-- The least value of a dictionary that is not empty. -/
theorem isLeast_values {d : Dict Uuid Instant} {p : Uuid} {x : Instant} (h : d.get? p = some x)
    (default : Instant) : IsLeast {y | ∃ q, d.get? q = some y} (d.values.min?.getD default) := by
  have hvalues : ∀ y, y ∈ d.values ↔ ∃ q, d.get? q = some y := by
    intro y
    rw [Dict.values, List.mem_map]
    constructor
    · rintro ⟨⟨q, z⟩, hmem, rfl⟩
      exact ⟨q, d.mem_items_iff.mp hmem⟩
    · rintro ⟨q, hq⟩
      exact ⟨(q, y), d.mem_items_iff.mpr hq, rfl⟩
  cases hmin : d.values.min? with
  | none =>
    have hmem : x ∈ d.values := (hvalues x).mpr ⟨p, h⟩
    rw [List.min?_eq_none_iff.mp hmin] at hmem
    cases hmem
  | some least =>
    obtain ⟨hmem, hle⟩ := List.min?_eq_some_iff.mp hmin
    exact ⟨(hvalues least).mp hmem, fun y hy => hle y ((hvalues y).mpr hy)⟩

/-- **Fresh status.** On a reachable ledger, an orderly cycle reports as fresh only what it
    valued on evidence that does not move backwards. -/
theorem freshlyValued_of_reachable {Allowed : ℕ → PortfolioStore → CycleInput → Prop}
    (h : Reachable R Allowed n s₀) (hinput : Orderly R n input s₀) :
    FreshlyValued R n input s₀ := by
  rintro cycle snapshot hok hlast hstatus u observedAt account rfl haccount
  obtain ⟨half, allocation, t, state, snapshot', hhalf, hallocation, ht, hstate, hlast', hevents,
    hvaluation⟩ := runCycle_eq_ok h.sound hok
  rw [hlast', Option.some.injEq, Write.integrity.injEq] at hlast
  rw [hlast, hstatus] at hvaluation
  obtain ⟨hcount, hstale, hreported⟩ := valuationOf_fresh hvaluation
  -- The evidence noted at the end of the cycle.
  have hsettled := (spec_settlementHalf_valued h.sound h.idsDrawn h.evidenceLog).post s₀ half rfl hhalf
  obtain ⟨⟨k, hworking⟩, prior, hvalued⟩ :=
    (spec_allocationHalf_valued half).post _ allocation hsettled hallocation
  have hnoted : cycleEvidence R n input s₀ = allocation.deployment.freshPositionEvidence := by
    rw [cycleEvidence, hhalf]
    show (match (allocationHalf R n input half (afterSettlement R n input s₀)).2 with
      | .ok allocation => allocation.deployment.freshPositionEvidence
      | .error _ => Dict.empty) = _
    rw [hallocation]
  rw [hevents] at haccount
  rw [hnoted, hevents]
  change Working R n k (Prog.final _ (afterSettlement R n input s₀)) at hworking
  change Valued _ prior [] _ _ (Prog.final _ (afterSettlement R n input s₀)).events at hvalued
  rw [← ht] at hworking hvalued
  -- The positions of the account are those the log lists.
  obtain ⟨state', positions, hstate', hperm, hdescribes, -⟩ := 
    hworking.ledger.balanced.account ((runCycle R n input).final s₀).snapshots observedAt
  rw [haccount, Except.ok.injEq] at hstate'
  subst hstate'
  have hlisted : ∀ position ∈ account.positions, ∃ evidenceAt,
      allocation.deployment.freshPositionEvidence.get? position.positionId = some evidenceAt := by
    intro position hposition
    obtain ⟨⟨id, e⟩, hitem, hdescribed⟩ := exists_describes hdescribes (hperm.mem_iff.mp hposition)
    obtain rfl : position.positionId = id := hdescribed.positionId
    rcases hvalued.decided _ hitem with hpending | hnoted | hpos
    · cases hpending
    · exact hnoted
    · omega
  refine ⟨fun position hposition => ?_, _, hreported, ?_⟩
  · obtain ⟨evidenceAt, hevidence⟩ := hlisted position hposition
    exact ⟨evidenceAt, hevidence, hvalued.newest hinput _ _ hevidence⟩
  · have hset : {x | ∃ position ∈ account.positions,
          allocation.deployment.freshPositionEvidence.get? position.positionId = some x}
        = {x | ∃ p, allocation.deployment.freshPositionEvidence.get? p = some x} := by
      ext x
      refine ⟨fun ⟨position, _, hx⟩ => ⟨_, hx⟩, fun ⟨p, hx⟩ => ?_⟩
      obtain ⟨e, hitem⟩ := hvalued.listed hinput p x hx
      obtain ⟨position, hposition, hdescribed⟩ := exists_described hdescribes hitem
      exact ⟨position, hperm.mem_iff.mpr hposition, hdescribed.positionId ▸ hx⟩
    -- There is an open position, so something was noted.
    rw [accountState_count hstate haccount] at hcount
    obtain ⟨position, hposition⟩ := List.exists_mem_of_length_pos (Nat.pos_of_ne_zero hcount)
    obtain ⟨evidenceAt, hevidence⟩ := hlisted position hposition
    rw [hset]
    exact isLeast_values hevidence _

end Cycle

/-! ### A perpetual short whose quotes go back in time -/

/-- A cycle after `afterOneShort` that marks the short at one quote and opens nothing. -/
def markShort (completedAt observedAt : Instant) : CycleInput :=
  Sample.input completedAt [shortQuote 90 observedAt]
    [⟨"kraken", "BTC", 0, ⟨8, interval_eight⟩, none, some 7200000000, 0⟩] (fun _ => .error "TimeoutError")

/-- The ledger after a mark at 20 minutes. -/
def afterMark : PortfolioStore :=
  commitAll afterOneShort
    (runCycle Runtime.sample 1 (markShort 1200000000 1200000000) afterOneShort).1

theorem afterMark_reachable : Reachable Runtime.sample (fun _ _ _ => True) 2 afterMark :=
  afterOneShort_reachable.complete (markShort 1200000000 1200000000) trivial

/-- What a cycle reports of its account: the valuation status and the time of the evidence. -/
def reportedValuation (R : Runtime) (n : ℕ) (input : CycleInput) (s : PortfolioStore) :
    Option (ValuationStatus × Option Instant) :=
  match (runCycle R n input s).2, (runCycle R n input s).1.getLast? with
  | .ok _, some (.integrity snapshot) =>
    some (snapshot.valuationStatus, snapshot.marketEvidenceAt)
  | _, _ => none

/-- The evidence of the listed positions at the end of a cycle, and what the log records. -/
def evidenceFigures (R : Runtime) (n : ℕ) (input : CycleInput) (s : PortfolioStore) :
    Option (List (Option Instant × List Instant)) :=
  (accountState ((runCycle R n input).final s).events ((runCycle R n input).final s).snapshots
    0).toOption.map (fun state => state.positions.map (fun position =>
      ((cycleEvidence R n input s).get? position.positionId,
        recordedEvidence ((runCycle R n input).final s).events position.positionId)))

/-- A cycle that reports as fresh an account with newer evidence for a position than it was
    valued on. -/
theorem not_freshlyValued_of_figures {R : Runtime} {n : ℕ} {input : CycleInput}
    {s : PortfolioStore} {reportedAt : Option Instant} {figures : List (Option Instant × List Instant)}
    {evidenceAt x : Instant} {recorded : List Instant}
    (hreported : reportedValuation R n input s = some (.fresh, reportedAt))
    (hfigures : evidenceFigures R n input s = some figures)
    (hmem : (some evidenceAt, recorded) ∈ figures) (hx : x ∈ recorded) (hlt : evidenceAt < x) :
    ¬ FreshlyValued R n input s := by
  -- the cycle completed and its last write is the snapshot reported
  intro hfresh
  unfold reportedValuation at hreported
  split at hreported
  · rename_i cycle snapshot hok hlast
    rw [Option.some.injEq, Prod.mk.injEq] at hreported
    rw [evidenceFigures, Option.map_eq_some_iff] at hfigures
    obtain ⟨state, hstate, rfl⟩ := hfigures
    obtain ⟨position, hposition, hevidence⟩ := List.mem_map.mp hmem
    obtain ⟨hevidence, hrecorded⟩ := Prod.mk.inj hevidence
    -- the account is the one whose figures were taken
    cases haccount : accountState ((runCycle R n input).final s).events
        ((runCycle R n input).final s).snapshots 0 with
    | error raised =>
      rw [haccount] at hstate
      cases hstate
    | ok account =>
      rw [haccount] at hstate
      obtain rfl : account = state := Option.some.inj hstate
      -- a fresh report would have valued the position on the newest evidence
      obtain ⟨noted, hget, hle⟩ :=
        (hfresh cycle snapshot hok hlast hreported.1 _ 0 account rfl haccount).1 position hposition
      rw [hevidence, Option.some.injEq] at hget
      rw [← hrecorded] at hx
      exact absurd (hle x hx) (not_le.mpr (hget ▸ hlt))
  · cases hreported

/-- The quotes of the first mark are newer than the opening. -/
theorem orderly_markShort :
    Orderly Runtime.sample 1 (markShort 1200000000 1200000000) afterOneShort where
  forward := by
    intro ctx positions hctx position hposition trial sourceAt evidenceAt htrial _ _ _ hquoted _
    have hfigures : (accountingContext Runtime.sample 1 (markShort 1200000000 1200000000)
        afterOneShort).toOption.map (fun p => p.2.map (fun position =>
          (p.1.priorEvidenceAt position, (p.1.positionTrial position).map p.1.legsQuotedAt)))
        = some [(0, some (some 1200000000))] := by
      decide +kernel
    rw [hctx] at hfigures
    have hmem := List.mem_map_of_mem (f := fun position => (ctx.priorEvidenceAt position,
      (ctx.positionTrial position).map ctx.legsQuotedAt)) hposition
    rw [show positions.map _ = _ from Option.some.inj hfigures, List.mem_singleton, htrial,
      Prod.mk.injEq, Option.map_some, Option.some.injEq, hquoted, Option.some.injEq] at hmem
    rw [hmem.1, hmem.2]
    decide
  named _ _ hplan := by cases hplan

/-- The first mark is reported as fresh, with the time of its quote. -/
theorem freshlyValued_markShort :
    reportedValuation Runtime.sample 1 (markShort 1200000000 1200000000) afterOneShort
        = some (.fresh, some 1200000000)
      ∧ FreshlyValued Runtime.sample 1 (markShort 1200000000 1200000000) afterOneShort :=
  ⟨by decide +kernel, freshlyValued_of_reachable afterOneShort_reachable orderly_markShort⟩

/-- A second mark at a quote ten minutes older is reported as fresh too. -/
theorem not_freshlyValued :
    ¬ ∀ (R : Runtime) (n : ℕ) (s : PortfolioStore), Reachable R (fun _ _ _ => True) n s →
      ∀ input : CycleInput, FreshlyValued R n input s := by
  intro h
  have hreported : reportedValuation Runtime.sample 2 (markShort 1800000000 600000000) afterMark
      = some (.fresh, some 600000000) := by
    decide +kernel
  have hfigures : evidenceFigures Runtime.sample 2 (markShort 1800000000 600000000) afterMark
      = some [(some 600000000, [0, 1200000000])] := by
    decide +kernel
  refine not_freshlyValued_of_figures hreported hfigures List.mem_cons_self
    (List.mem_cons_of_mem _ List.mem_cons_self) ?_ (h _ 2 _ afterMark_reachable _)
  decide

end InefficiencyEngine.Portfolio
