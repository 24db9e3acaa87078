import InefficiencyEngine.Portfolio.Findings

namespace InefficiencyEngine.Portfolio

open Prog

/-!
# The deployment loop, allocation by allocation

`deployAllocation_deploys` derives once from the code what one iteration of the deployment
loop does.  What the loop opens stays within the cash it started with
(`capitalOpened_loop`), and each opening has conflict keys that no listed position holds
(`spec_deployLoop`), since the keys in use cover those of the listed positions.
-/

/-! ### Openings among some writes -/

/-- The open events a list of writes records, in order. -/
def opensOf (ws : List Write) : List CanonicalPortfolioEvent :=
  (ws.filterMap Write.event?).filter (fun e => e.eventType = .open)

/-- The capital the openings among some writes reserve. -/
def capitalOpened (ws : List Write) : ℚ :=
  ((opensOf ws).map (fun e => e.capitalReservedUsd)).sum

theorem opensOf_append (ws ws' : List Write) : opensOf (ws ++ ws') = opensOf ws ++ opensOf ws' := by
  simp only [opensOf, List.filterMap_append, List.filter_append]

theorem capitalOpened_append (ws ws' : List Write) :
    capitalOpened (ws ++ ws') = capitalOpened ws + capitalOpened ws' := by
  simp only [capitalOpened, opensOf_append, List.map_append, List.sum_append]

theorem opensOf_eq_nil {ws : List Write} 
    (h : ∀ w ∈ ws, Records (fun e => e.eventType ≠ .open) w) : opensOf ws = [] := by
  refine List.filter_eq_nil_iff.mpr (fun e he => ?_)
  obtain ⟨w, hw, hwe⟩ := List.mem_filterMap.mp he
  simpa using h w hw e hwe

/-! ### One iteration -/

section Iteration

variable {R : Runtime} {run : ℕ} {observedAt : Instant} {d : Deployment}
  {allocation : UnifiedPaperAllocation} {trial : PaperAllocationTrial} {s : PortfolioStore}

/-- A supported allocation is opened when its keys are free and the cash left covers it. -/
theorem Deployment.refusal_eq_none : d.refusal allocation trial = none ↔
    (∀ key ∈ trialConflicts trial, key ∉ d.usedConflicts)
      ∧ allocation.capitalRequiredUsd ≤ d.remainingCash + budgetTolerance := by
  unfold Deployment.refusal
  split
  · rename_i hused
    obtain ⟨key, hkey, hmem⟩ := hused
    exact ⟨fun h => (by cases h), fun h => absurd hmem (h.1 key hkey)⟩
  · rename_i hfree
    have hfree' : ∀ key ∈ trialConflicts trial, key ∉ d.usedConflicts :=
      fun key hkey hmem => hfree ⟨key, hkey, hmem⟩
    split
    · rename_i hlt
      exact ⟨fun h => (by cases h), fun h => absurd h.2 (not_le.mpr hlt)⟩
    · rename_i hle
      exact ⟨fun _ => ⟨hfree', not_lt.mp hle⟩, fun _ => rfl⟩

/-- What an iteration of the deployment loop does from a store: it raises while it builds
    the trial, records a skip, or records an opening and its trial. -/
inductive Deploys (R : Runtime) (run : ℕ) (observedAt : Instant) (d : Deployment)
    (allocation : UnifiedPaperAllocation) (s : PortfolioStore) :
    List Write × Except Raised Deployment → Prop
  | raises (raised : Raised) : Deploys R run observedAt d allocation s ([], .error raised)
  | skips (e : CanonicalPortfolioEvent) (hid : e.eventId = R.uuid4 run (.allocationEvent d.index))
      (htype : e.eventType = .skip) (hcash : e.cashDeltaUsd = 0)
      (hrealized : e.realizedPnlDeltaUsd = 0) :
      Deploys R run observedAt d allocation s ([eventWrite R s e], .ok d.skip)
  | opens (trial : PaperAllocationTrial)
      (htrial : trialFromAllocation R.upper (R.uuid4 run (.trial d.index)) allocation observedAt
        = .ok trial) (hsupported : trial.settlementSupported = true)
      (hrefusal : d.refusal allocation trial = none) :
      Deploys R run observedAt d allocation s
        ([eventWrite R s (openFromAllocation (R.uuid4 run (.allocationEvent d.index))
          (R.uuid4 run (.position d.index)) allocation trial observedAt), .trial trial],
          .ok (d.open allocation trial (R.uuid4 run (.position d.index)) observedAt))

/-- **One iteration.** The iteration raises, or the allocation is skipped for a reason, or it is
    opened. -/
theorem deployAllocation_deploys :
    Deploys R run observedAt d allocation s (deployAllocation R run observedAt d allocation s) := by
  have hskip : ∀ e : CanonicalPortfolioEvent, e.eventId = R.uuid4 run (.allocationEvent d.index) →
      e.eventType = .skip → e.cashDeltaUsd = 0 → e.realizedPnlDeltaUsd = 0 →
      e.portfolioId = canonicalPortfolioId →
      Deploys R run observedAt d allocation s (recordSkip R d e s) := by
    intro e hid htype hcash hrealized hportfolio
    rw [recordSkip, run_bind_of_ok (recordEvent_run hportfolio)]
    exact .skips e hid htype hcash hrealized
  unfold deployAllocation
  cases htrial : trialFromAllocation R.upper (R.uuid4 run (.trial d.index)) allocation observedAt with
  | error raised => exact .raises raised
  | ok trial =>
    rw [run_lift_ok_bind]
    cases hsupported : trial.settlementSupported with
    | false => exact hskip _ rfl rfl rfl rfl rfl
    | true =>
      cases hrefusal : d.refusal allocation trial with
      | some reason => exact hskip _ rfl rfl rfl rfl rfl
      | none =>
        show Deploys R run observedAt d allocation s (recordOpening R _ _ observedAt d allocation
          trial s)
        rw [recordOpening, run_bind_of_ok (recordEvent_run rfl)]
        exact .opens trial htrial hsupported hrefusal

end Iteration

/-! ### The cash the loop spends -/

section Budget

variable {R : Runtime} {run : ℕ} {observedAt : Instant}

/-- Recording a skip opens nothing. -/
theorem opensOf_skip {s : PortfolioStore} {e : CanonicalPortfolioEvent} (h : e.eventType = .skip) :
    opensOf [eventWrite R s e] = [] := by
  simp [opensOf, eventWrite, Write.event?, EventRow.link, h]

/-- Recording an opening and its trial opens one position. -/
theorem capitalOpened_open {s : PortfolioStore} {e : CanonicalPortfolioEvent}
    (h : e.eventType = .open) (trial : PaperAllocationTrial) (ws : List Write) :
    capitalOpened (eventWrite R s e :: .trial trial :: ws)
      = e.capitalReservedUsd + capitalOpened ws := by
  have hopens : opensOf [eventWrite R s e, .trial trial] = [e] := by
    simp [opensOf, eventWrite, Write.event?, EventRow.link, h]
  show capitalOpened ([eventWrite R s e, .trial trial] ++ ws) = _
  rw [capitalOpened_append, capitalOpened, hopens, List.map_singleton, List.sum_singleton]

/-- **Budget.** What the deployment loop opens, cut off anywhere, reserves at most the cash
    it starts with and the tolerance. -/
theorem capitalOpened_loop (allocations : List UnifiedPaperAllocation) (d : Deployment)
    (hd : 0 ≤ d.remainingCash + budgetTolerance) (s : PortfolioStore) (k : ℕ) :
    capitalOpened (((allocations.foldlM (deployAllocation R run observedAt) d) s).1.take k)
      ≤ d.remainingCash + budgetTolerance := by
  induction allocations generalizing d s k with
  | nil =>
    show capitalOpened (([] : List Write).take k) ≤ _
    rw [List.take_nil]
    exact hd
  | cons allocation rest ih =>
    have hstep : Deploys R run observedAt d allocation s _ := deployAllocation_deploys
    rw [List.foldlM_cons]
    generalize hres : deployAllocation R run observedAt d allocation s = res at hstep
    cases hstep with
    | raises raised =>
      rw [run_bind, hres, List.nil_append, List.take_nil]
      exact hd
    | skips e _ htype =>
      rw [run_bind_of_ok hres, List.take_append, capitalOpened_append]
      have hskip : capitalOpened ([eventWrite R s e].take k) = 0 := by
        cases k with
        | zero => rfl
        | succ k => rw [List.take_succ_cons, List.take_nil, capitalOpened, opensOf_skip htype]; rfl
      rw [hskip, zero_add]
      exact ih d.skip hd _ _
    | opens trial htrial hsupported hrefusal =>
      rw [run_bind_of_ok hres]
      have hfits := (Deployment.refusal_eq_none.mp hrefusal).2
      have hrest : 0 ≤ (d.remainingCash - allocation.capitalRequiredUsd) + budgetTolerance := by
        linarith
      -- A prefix stops before the opening, between it and its trial, or in the rest of the loop.
      match k with
      | 0 => exact hd
      | 1 =>
        show capitalOpened [eventWrite R s _] ≤ _
        simpa [capitalOpened, opensOf, eventWrite, Write.event?, EventRow.link, openFromAllocation]
          using hfits
      | k + 2 =>
        rw [List.cons_append, List.cons_append, List.nil_append, List.take_succ_cons,
          List.take_succ_cons, capitalOpened_open rfl]
        calc allocation.capitalRequiredUsd + capitalOpened _
            ≤ allocation.capitalRequiredUsd
              + ((d.remainingCash - allocation.capitalRequiredUsd) + budgetTolerance) :=
            add_le_add le_rfl (ih (d.open allocation trial _ observedAt) hrest _ k)
          _ = d.remainingCash + budgetTolerance := by ring

end Budget

/-! ### Listed positions over the events of a cycle -/

/-- Opening a fresh position lists it last, if it has its texts. -/
theorem listedItems_open {R : Runtime} {n : ℕ} {events : List CanonicalPortfolioEvent}
    {e : CanonicalPortfolioEvent} {p : Uuid} (h : Ledger R n events) (htype : e.eventType = .open)
    (hid : e.positionId = some p) (hfresh : (replay events).opened.get? p = none) :
    (replay (events ++ [e])).listedItems
      = (replay events).listedItems ++ (if e.hasTexts then [(p, e)] else []) := by
  rw [replay_append, Replay.listedItems,
    Replay.openItems_step_open htype hid hfresh (h.balanced.closedOpened p hfresh),
    List.filter_append, Replay.listedItems, List.filter_singleton]
  cases e.hasTexts <;> rfl

/-- An event that does not open lists no further position. -/
theorem listedItems_append {events : List CanonicalPortfolioEvent} {e : CanonicalPortfolioEvent}
    (h : e.eventType ≠ .open) :
    (replay (events ++ [e])).listedItems.Sublist (replay events).listedItems := by
  refine List.Sublist.filter _ ?_
  rw [Replay.openItems, opened_append h, Replay.openItems]
  refine List.monotone_filter_right _ (fun item hitem => ?_)
  rw [replay_append, ((replay events).step_opened_closed e).2] at hitem
  split at hitem
  · rename_i q _ _
    by_cases hq : q = item.1
    · rw [hq, Dict.get?_set_self] at hitem
      cases hitem
    · rwa [Dict.get?_set_of_ne _ _ hq] at hitem
  · exact hitem

/-- The positions of the log are pairwise related, earlier ones to later ones. -/
def ListedPairwise (Apart : Uuid × CanonicalPortfolioEvent → Uuid × CanonicalPortfolioEvent → Prop)
    (s : PortfolioStore) : Prop :=
  (replay s.events).listedItems.Pairwise Apart

/-- The log within the `n`-th cycle, since the log of `base`: its listed positions are
    pairwise related, and each was listed then or opened by the cycle at one of the places
    `Offered`. -/
structure ListedWithin (R : Runtime) (n : ℕ)
    (Apart : Uuid × CanonicalPortfolioEvent → Uuid × CanonicalPortfolioEvent → Prop)
    (Offered : ℕ → Prop) (base s : PortfolioStore) : Prop where
  sound : Sound R (n + 1) s
  pairwise : ListedPairwise Apart s
  since : ∀ item ∈ (replay s.events).listedItems, item ∈ (replay base.events).listedItems
    ∨ ∃ i, Offered i ∧ item.1 = R.uuid4 n (.position i)

section Pairwise

variable {R : Runtime} {n : ℕ} {input : CycleInput} {base start s : PortfolioStore}
  {Apart : Uuid × CanonicalPortfolioEvent → Uuid × CanonicalPortfolioEvent → Prop}
  {Offered : ℕ → Prop}

/-- At the start of the cycle, or of its second half. -/
theorem ListedWithin.refl (hsound : Sound R (n + 1) s) (h : ListedPairwise Apart s) :
    ListedWithin R n Apart Offered s s :=
  ⟨hsound, h, fun _ hitem => Or.inl hitem⟩

theorem ListedWithin.trans (h : ListedWithin R n Apart Offered start base)
    (h' : ListedWithin R n Apart Offered base s) : ListedWithin R n Apart Offered start s :=
  ⟨h'.sound, h'.pairwise, fun item hitem => (h'.since item hitem).elim (h.since item) Or.inr⟩

/-- A block that opens nothing keeps the listed positions related. -/
theorem CycleBlock.keeps_listed {block : List Write}
    (h : CycleBlock R n input base s block
      ∧ ∀ w ∈ block, Records (fun e => e.eventType ≠ .open) w) :
    Along.Keeps (ListedWithin R n Apart Offered start) s block := by
  intro hs k
  have hsub : (replay (commitAll s (block.take k)).events).listedItems.Sublist
      (replay s.events).listedItems := by
    rcases h.1.effect k with heq | ⟨e, heq, -, -, w, hw, hwe⟩
    · rw [heq]
    · rw [heq]
      exact listedItems_append (h.2 w hw e hwe)
  exact ⟨h.1.sound hs.sound k, hs.pairwise.sublist hsub,
    fun item hitem => hs.since item (hsub.subset hitem)⟩

end Pairwise

/-! ### The keys in use -/

/-- The keys in use cover those of every listed position. -/
def Covers (d : Deployment) (s : PortfolioStore) : Prop :=
  ∀ item ∈ (replay s.events).listedItems, ∀ trial, eventTrial (some item.2) = some trial →
    ∀ key ∈ trialConflicts trial, key ∈ d.usedConflicts

/-- An opening of the loop: of the allocation at its place in the plan, with conflict keys
    that no listed position holds. -/
structure FreeOpening (R : Runtime) (n : ℕ) (plan : UnifiedPaperAllocationPlan)
    (s : PortfolioStore) (i : ℕ) (allocation : UnifiedPaperAllocation)
    (trial : PaperAllocationTrial) (e : CanonicalPortfolioEvent) : Prop where
  nonempty : s.events ≠ []
  opened : OpenedBy R n i allocation trial e
  offered : plan.allocations[i]? = some allocation
  fresh : (replay s.events).opened.get? (R.uuid4 n (.position i)) = none
  free : ∀ item ∈ (replay s.events).listedItems, ∀ u, eventTrial (some item.2) = some u →
    ∀ key ∈ trialConflicts trial, key ∉ trialConflicts u

/-- What the deployment loop writes for an allocation. -/
inductive DeploymentBlock (R : Runtime) (n : ℕ) (plan : UnifiedPaperAllocationPlan)
    (s : PortfolioStore) : List Write → Prop
  | skip (e : CanonicalPortfolioEvent) (hne : s.events ≠ []) (htype : e.eventType = .skip)
      (hcash : e.cashDeltaUsd = 0) (hrealized : e.realizedPnlDeltaUsd = 0) :
      DeploymentBlock R n plan s [eventWrite R s e]
  | opening (i : ℕ) (allocation : UnifiedPaperAllocation) (trial : PaperAllocationTrial)
      (e : CanonicalPortfolioEvent) (h : FreeOpening R n plan s i allocation trial e) :
      DeploymentBlock R n plan s [eventWrite R s e, .trial trial]

section Loop

variable {R : Runtime} {n : ℕ} {plan : UnifiedPaperAllocationPlan} {s : PortfolioStore}
  {Apart : Uuid × CanonicalPortfolioEvent → Uuid × CanonicalPortfolioEvent → Prop}
  {Offered : ℕ → Prop}

/-- **Pairwise relations.** What relates every opening to the positions listed before it relates
    all listed positions. A block appends at most one event, so only an opening extends the list
    of the positions, by one whose relation to the others is the hypothesis. -/
theorem DeploymentBlock.keeps_listed {start : PortfolioStore} {block : List Write}
    (h : DeploymentBlock R n plan s block)
    (hapart : ListedWithin R n Apart Offered start s → ∀ i allocation trial e,
      FreeOpening R n plan s i allocation trial e → Offered i ∧
      ∀ item ∈ (replay s.events).listedItems, Apart item (R.uuid4 n (.position i), e)) :
    Along.Keeps (ListedWithin R n Apart Offered start) s block := by
  intro hs k
  have hne : s.events ≠ [] := by
    cases h with
    | skip _ hne => exact hne
    | opening _ _ _ _ h => exact h.nonempty
  have hledger := hs.sound.resolve_left hne
  -- The log gets at most one event; here is what that event does to it.
  have hevent : ∀ (w : List Write) (e : CanonicalPortfolioEvent), Quiet w →
      block = eventWrite R s e :: w → Admissible R (n + 1) s.events e →
      ((replay (s.events ++ [e])).listedItems.Pairwise Apart) →
      (∀ item ∈ (replay (s.events ++ [e])).listedItems,
        item ∈ (replay start.events).listedItems
          ∨ ∃ i, Offered i ∧ item.1 = R.uuid4 n (.position i)) →
      ListedWithin R n Apart Offered start (commitAll s (block.take k)) := by
    intro w e hw hblock hadmissible hpairwise hsince
    subst hblock
    have hnil : Quiet [] := fun w hw => by cases hw
    have hkeep : ∀ t : PortfolioStore, t.events = s.events →
        ListedWithin R n Apart Offered start t :=
      fun t ht => ⟨by rw [Sound, ht]; exact hs.sound, by rw [ListedPairwise, ht]; exact hs.pairwise,
        by rw [ht]; exact hs.since⟩
    rcases events_take hnil hw s s e k with hevents | hevents <;> rw [List.nil_append] at hevents
    · exact hkeep _ hevents
    · rcases commit_eventWrite R s s e with heq | heq <;> rw [heq] at hevents
      · exact hkeep _ hevents
      · exact ⟨by rw [Sound, hevents]; exact Or.inr (hledger.append hadmissible),
          by rw [ListedPairwise, hevents]; exact hpairwise, by rw [hevents]; exact hsince⟩
  cases h with
  -- a skip lists no new position
  | skip e _ htype hcash hrealized =>
    have hsub : (replay (s.events ++ [e])).listedItems.Sublist (replay s.events).listedItems :=
      listedItems_append (by rw [htype]; decide)
    exact hevent [] e (fun w hw => (by cases hw)) rfl (.neutral (Or.inr htype) hcash hrealized)
      (hs.pairwise.sublist hsub) (fun item hitem => hs.since item (hsub.subset hitem))
  -- an opening lists at most its own
  | opening i allocation trial e h =>
    have hlisted := listedItems_open hledger h.opened.eventType h.opened.positionId h.fresh
    have hnew : ∀ item ∈ (if e.hasTexts then [(R.uuid4 n (.position i), e)] else []),
        item = (R.uuid4 n (.position i), e) := by
      intro item hitem
      split at hitem
      · exact List.mem_singleton.mp hitem
      · cases hitem
    refine hevent _ e (quiet_trial trial) rfl (.opening _ h.opened.positionId
      ⟨n, Nat.lt_succ_self n, i, allocation, trial, rfl, h.opened⟩ h.fresh) ?_ ?_
    · rw [hlisted, List.pairwise_append]
      refine ⟨hs.pairwise, ?_, fun item hitem new hmem => ?_⟩
      · split
        · exact List.pairwise_singleton _ _
        · exact List.Pairwise.nil
      · rw [hnew new hmem]
        exact (hapart hs i allocation trial e h).2 item hitem
    · intro item hitem
      rw [hlisted, List.mem_append] at hitem
      rcases hitem with hitem | hitem
      · exact hs.since item hitem
      · exact Or.inr ⟨i, (hapart hs i allocation trial e h).1, by rw [hnew item hitem]⟩

/-- Recording an admissible event keeps the log sound. -/
theorem Working.sound_record {k : ℕ} (h : Working R n k s) {e : CanonicalPortfolioEvent}
    (he : Admissible R (n + 1) s.events e) :
    Sound R (n + 1) (Durable.commit s (eventWrite R s e)) := by
  right
  rcases commit_eventWrite R s s e with heq | heq
  · rw [heq]
    exact h.ledger
  · rw [heq]
    exact h.ledger.append he

/-- What the loop maintains over the allocations seen. -/
structure Deploying (R : Runtime) (n : ℕ) (seen : List UnifiedPaperAllocation) (d : Deployment)
    (s : PortfolioStore) : Prop where
  working : Working R n d.index s
  covers : Covers d s
  index : d.index = seen.length

/-- One iteration of the loop is a deployment of the plan. The cases are those of one iteration:
    it raises, skips the allocation with an event, or opens the trial that the conflict check
    let through. -/
theorem spec_deployIteration {d : Deployment} {seen : List UnifiedPaperAllocation}
    {allocation : UnifiedPaperAllocation} (hplace : plan.allocations[seen.length]? = some allocation) :
    Spec (Deploying R n seen d) (deployAllocation R n plan.observedAt d allocation)
      (DeploymentBlock R n plan) (fun d' s => Deploying R n (seen ++ [allocation]) d' s) := by
  refine spec_of_forall (fun s hs => ?_)
  have hstep : Deploys R n plan.observedAt d allocation s _ := deployAllocation_deploys
  generalize hres : deployAllocation R n plan.observedAt d allocation s = res at hstep
  cases hstep with
  -- nothing is written
  | raises raised =>
    refine spec_silent ?_ ?_
    · rintro _ rfl
      rw [hres]
    · rintro _ d' rfl hd'
      rw [hres] at hd'
      cases hd'
  -- a skip is one neutral event, which opens nothing
  | skips e _ htype hcash hrealized =>
    refine spec_block ?_ ?_
    · rintro _ rfl
      rw [hres]
      exact .skip e hs.working.events_ne_nil htype hcash hrealized
    · rintro _ d' rfl hd'
      rw [hres] at hd'
      injection hd' with hd'
      subst hd'
      rw [Prog.final, hres]
      have hopen : e.eventType ≠ .open := by
        rw [htype]
        decide
      have hworking := hs.working.record
        (hs.working.sound_record (.neutral (Or.inr htype) hcash hrealized)) hopen
      refine ⟨⟨hworking.ledger, fun j hj => hworking.fresh j (Nat.le_of_succ_le hj)⟩, ?_, ?_⟩
      · intro item hitem
        rcases commit_eventWrite R _ _ e with heq | heq
        · exact hs.covers item (heq ▸ hitem)
        · exact hs.covers item ((listedItems_append hopen).subset (heq ▸ hitem))
      · rw [List.length_append]
        exact congrArg (· + 1) hs.index
  -- an opening: the position is new, its keys are free, and they are used from here on
  | opens trial htrial hsupported hrefusal =>
    have hopened := OpenedBy.intro (R.uuid4 n (.allocationEvent d.index)) plan.observedAt htrial
      hsupported
    have hfresh := hs.working.fresh d.index le_rfl
    have hfree := (Deployment.refusal_eq_none.mp hrefusal).1
    refine spec_block ?_ ?_
    · rintro _ rfl
      rw [hres]
      refine .opening d.index allocation trial _ 
        ⟨hs.working.events_ne_nil, hopened, hs.index ▸ hplace, hfresh, ?_⟩
      exact fun item hitem u hu key hkey hmem => hfree key hkey (hs.covers item hitem u hu key hmem)
    · rintro _ d' rfl hd'
      rw [hres] at hd'
      injection hd' with hd'
      subst hd'
      rw [Prog.final, hres]
      have hadmissible : Admissible R (n + 1) _ _ := .opening _ hopened.positionId
        ⟨n, Nat.lt_succ_self n, _, allocation, trial, rfl, hopened⟩ hfresh
      refine ⟨hs.working.record_open hopened (hs.working.sound_record hadmissible), ?_, ?_⟩
      -- the keys of what was open were used before, those of the new trial are added
      · intro item hitem u hu key hkey
        show key ∈ d.usedConflicts ++ trialConflicts trial
        rw [List.mem_append]
        rcases commit_eventWrite R _ _ (openFromAllocation (R.uuid4 n (.allocationEvent d.index))
          (R.uuid4 n (.position d.index)) allocation trial plan.observedAt) with heq | heq
        · exact Or.inl (hs.covers item (heq ▸ hitem) u hu key hkey)
        · replace hitem := heq ▸ hitem
          rw [listedItems_open hs.working.ledger hopened.eventType hopened.positionId hfresh,
            List.mem_append] at hitem
          rcases hitem with hitem | hitem
          · exact Or.inl (hs.covers item hitem u hu key hkey)
          · split at hitem
            · rw [List.mem_singleton.mp hitem, hopened.eventTrial_eq, Option.some.injEq] at hu
              exact Or.inr (hu ▸ hkey)
            · cases hitem
      · rw [List.length_append]
        exact congrArg (· + 1) hs.index

/-- **Deployment loop.** Its openings are free of conflicts with the listed positions. -/
theorem spec_deployLoop (d : Deployment) :
    Spec (Deploying R n [] d) (plan.allocations.foldlM (deployAllocation R n plan.observedAt) d)
      (DeploymentBlock R n plan) (fun d' s => Deploying R n plan.allocations d' s) := by
  refine spec_foldlM (J := fun seen d s => Deploying R n seen d s) ?_ d
  intro seen allocation rest d hallocations
  refine spec_deployIteration ?_
  rw [hallocations, List.getElem?_append_right (Nat.le_refl _), Nat.sub_self]
  rfl

end Loop

end InefficiencyEngine.Portfolio
