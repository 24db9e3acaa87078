import InefficiencyEngine.Portfolio.Certification

namespace InefficiencyEngine.Research

open Portfolio Durable

/-!
# A cycle of the allocation certification

`AllocationForwardCertificationService.run_cycle` as one program over its two tables: it
settles the pending supported trials against the collected snapshot, then records a trial
for each allocation of the plan whose cohort has nothing unsettled.  The worker of
`Portfolio.Certification` takes the same steps between those of other services.

The outcomes a cycle adds are those of its pending trials (`outcomes_settlePending`).
-/

/-! ### The cycle -/

/-- A step of the certification service. -/
abbrev CertificationProg := Prog CertificationStore Write Raised

/-- `pending_supported_trials`. -/
def pendingSupportedTrials (s : CertificationStore) (now : Instant) : List PaperAllocationTrial :=
  (s.dueSupportedTrials now).filter (fun trial => trial.trialId ∉ s.completedTrialIds)

/-- `has_unsettled_supported_cohort`. -/
def hasUnsettledSupportedCohort (s : CertificationStore) (cohortKey : String) : Bool :=
  (s.supportedCohort cohortKey).any (fun trialId => trialId ∉ s.completedTrialIds)

/-- What a cycle obtains from outside its tables. -/
structure CertificationInput where
  /-- Which cycle this is. -/
  run : ℕ
  /-- `collect_live_executability`. -/
  collected : Except Raised ScanSnapshot
  /-- The observations stored when a trial is settled. -/
  evidence : PaperAllocationTrial → Evidence
  /-- `allocator.allocate`. -/
  allocated : Except Raised UnifiedPaperAllocationPlan

/-- `AllocationCertificationCycle`. What a cycle of the certification reports. -/
structure AllocationCertificationCycle where
  observedAt : Instant
  planAllocationCount : ℕ
  trialsRecorded : ℕ
  supportedTrialsRecorded : ℕ
  unsupportedTrialsRecorded : ℕ
  outcomesMatured : ℕ

variable (R : Runtime) (input : CertificationInput)

/-- `_settle_trial` of the `index`-th pending trial. -/
def settlement (snapshot : ScanSnapshot) (index : ℕ) (trial : PaperAllocationTrial) :
    Except Raised (Option PaperAllocationOutcome) :=
  settleTrial R.upper (input.evidence trial) (R.uuid4 input.run (.outcome index)) trial snapshot

/-- The loop over the pending trials from the `index`-th on; the result is the number of
    outcomes. -/
def settlePending (snapshot : ScanSnapshot) : ℕ → List PaperAllocationTrial → CertificationProg ℕ
  | _, [] => pure 0
  | index, trial :: rest => do
    match ← Prog.lift (settlement R input snapshot index trial) with
    | none => settlePending snapshot (index + 1) rest
    | some outcome =>
      Prog.write (.outcome outcome)
      let matured ← settlePending snapshot (index + 1) rest
      return matured + 1

/-- The loop over the allocations from the `index`-th on; the results are the numbers of
    supported and of unsupported trials recorded. -/
def recordTrials (observedAt : Instant) :
    ℕ → List UnifiedPaperAllocation → CertificationProg (ℕ × ℕ)
  | _, [] => pure (0, 0)
  | index, allocation :: rest => do
    let trial ← Prog.lift
      (trialFromAllocation R.upper (R.uuid4 input.run (.trial index)) allocation observedAt)
    let s ← Prog.get
    if trial.settlementSupported && hasUnsettledSupportedCohort s trial.cohortKey then
      recordTrials observedAt (index + 1) rest
    else
      Prog.write (.trial trial)
      let (supported, unsupported) ← recordTrials observedAt (index + 1) rest
      return if trial.settlementSupported then (supported + 1, unsupported)
        else (supported, unsupported + 1)

/-- What `run_cycle` does once the pending trials are settled. -/
def recordPlan (matured : ℕ) : CertificationProg AllocationCertificationCycle := do
  let plan ← Prog.lift input.allocated
  let (supported, unsupported) ← recordTrials R input plan.observedAt 0 plan.allocations
  return {
    observedAt := plan.observedAt
    planAllocationCount := plan.allocations.length
    trialsRecorded := supported + unsupported
    supportedTrialsRecorded := supported
    unsupportedTrialsRecorded := unsupported
    outcomesMatured := matured }

/-- `AllocationForwardCertificationService.run_cycle`. The trials due are settled first, and
    then those of a new plan are recorded. -/
def AllocationForwardCertificationService.runCycle (totalCapitalUsd : ℚ) :
    CertificationProg AllocationCertificationCycle := do
  if totalCapitalUsd ≤ 0 then
    Prog.lift (.error (.valueError "total_capital_usd must be positive"))
  else
    let snapshot ← Prog.lift input.collected
    let s ← Prog.get
    let matured ← settlePending R input snapshot 0 (pendingSupportedTrials s snapshot.completedAt)
    recordPlan R input matured

/-! ### The outcomes of a cycle -/

/-- Recording a plan records only trials. -/
theorem emits_recordPlan (matured : ℕ) :
    Prog.Emits (fun w => ∃ trial, w = Write.trial trial) (recordPlan R input matured) := by
  have htrials : ∀ (observedAt : Instant) (allocations : List UnifiedPaperAllocation) (index : ℕ),
      Prog.Emits (fun w => ∃ trial, w = Write.trial trial)
        (recordTrials R input observedAt index allocations) := by
    intro observedAt allocations
    induction allocations with
    | nil => exact fun _ => Prog.emits_pure _
    | cons allocation rest ih =>
      intro index
      refine Prog.emits_bind (Prog.emits_lift _) (fun trial => ?_)
      refine Prog.emits_bind Prog.emits_get (fun s => ?_)
      split
      · exact ih (index + 1)
      · refine Prog.emits_bind (Prog.emits_write ⟨trial, rfl⟩) (fun _ => ?_)
        exact Prog.emits_bind (ih (index + 1)) (fun _ => Prog.emits_pure _)
  exact Prog.emits_bind (Prog.emits_lift _) (fun plan =>
    Prog.emits_bind (htrials plan.observedAt plan.allocations 0) (fun _ => Prog.emits_pure _))

/-- Trials leave the outcomes as they are. -/
theorem outcomes_commitAll_trials {writes : List Write}
    (h : ∀ w ∈ writes, ∃ trial, w = Write.trial trial) (s : CertificationStore) :
    (commitAll s writes).outcomes = s.outcomes := by
  induction writes generalizing s with
  | nil => rfl
  | cons w rest ih =>
    obtain ⟨trial, rfl⟩ := h _ List.mem_cons_self
    rw [commitAll_cons, ih (fun v hv => h v (List.mem_cons_of_mem _ hv))]
    show (s.commit (.trial trial)).outcomes = s.outcomes
    rw [CertificationStore.commit]
    split <;> rfl

/-- An outcome of a trial without one is appended. -/
theorem outcomes_commit_outcome {s : CertificationStore} {o : PaperAllocationOutcome}
    (h : o.trialId ∉ s.completedTrialIds) :
    (Durable.commit s (Write.outcome o)).outcomes = s.outcomes ++ [o] := by
  show (s.commit (.outcome o)).outcomes = _
  have hnone : ¬ s.outcomes.any (fun x => x.trialId = o.trialId) = true := by
    rw [List.any_eq_true]
    rintro ⟨x, hx, heq⟩
    exact h (List.mem_map.mpr ⟨x, hx, of_decide_eq_true heq⟩)
  rw [CertificationStore.commit, if_neg hnone]

/-- **Settlement loop.** From tables in which none of the pending trials has an outcome, the
    loop ends normally and adds an outcome for exactly those the snapshot settles. The trials
    have different identities, so an outcome stored for one of them leaves the rest without one,
    which is what the induction over the pending trials carries. -/
theorem outcomes_settlePending (snapshot : ScanSnapshot) (pending : List PaperAllocationTrial)
    (index : ℕ) {s : CertificationStore}
    (hids : (pending.map PaperAllocationTrial.trialId).Nodup)
    (hnew : ∀ trial ∈ pending, trial.trialId ∉ s.completedTrialIds) :
    ∃ matured added, (settlePending R input snapshot index pending s).2 = .ok matured
      ∧ ((settlePending R input snapshot index pending).final s).outcomes = s.outcomes ++ added
      ∧ (∀ o ∈ added, ∃ trial ∈ pending, ∃ i, settlement R input snapshot i trial = .ok (some o))
      ∧ ∀ trial ∈ pending, ∃ i result, settlement R input snapshot i trial = .ok result
          ∧ ∀ o, result = some o → o ∈ added := by
  -- induction on the pending trials, with the index of the drawn ids and the store general
  induction pending generalizing index s with
  | nil => exact ⟨0, [], rfl, by simp [Prog.final, settlePending], by simp, by simp⟩
  | cons trial rest ih =>
    rw [List.map_cons, List.nodup_cons] at hids
    obtain ⟨result, hresult, hspec⟩ := settleTrial_total R.upper (input.evidence trial)
      (R.uuid4 input.run (.outcome index)) trial snapshot
    have hlift : (Prog.lift (settlement R input snapshot index trial) :
        CertificationProg (Option PaperAllocationOutcome)) s = ([], .ok result) := by
      rw [settlement, hresult]
      rfl
    cases result with
    -- the snapshot does not settle the trial: nothing is written
    | none =>
      obtain ⟨matured, added, hok, hfinal, hadded, hall⟩ :=
        ih (index + 1) hids.2 (fun t ht => hnew t (List.mem_cons_of_mem _ ht))
      have hrun : settlePending R input snapshot index (trial :: rest) s
          = settlePending R input snapshot (index + 1) rest s := by
        rw [settlePending, Prog.run_bind_of_silent hlift]
      refine ⟨matured, added, by rw [hrun, hok], ?_, ?_, ?_⟩
      · rw [Prog.final, hrun]
        exact hfinal
      · intro o ho
        obtain ⟨t, ht, i, hi⟩ := hadded o ho
        exact ⟨t, List.mem_cons_of_mem _ ht, i, hi⟩
      · intro t ht
        rcases List.mem_cons.mp ht with rfl | ht
        · exact ⟨index, none, hresult, fun o ho => by cases ho⟩
        · exact hall t ht
    -- it does: one outcome is written, which no later trial shares its identity with
    | some o =>
      have hid : o.trialId = trial.trialId := hspec o rfl
      have hcommit : (Durable.commit s (Write.outcome o)).outcomes = s.outcomes ++ [o] := by
        refine outcomes_commit_outcome ?_
        rw [hid]
        exact hnew trial List.mem_cons_self
      have hnew' : ∀ t ∈ rest,
          t.trialId ∉ (Durable.commit s (Write.outcome o)).completedTrialIds := by
        intro t ht hmem
        rw [CertificationStore.completedTrialIds, hcommit, List.map_append, List.mem_append] at hmem
        rcases hmem with hmem | hmem
        · exact hnew t (List.mem_cons_of_mem _ ht) hmem
        · have heq : t.trialId = trial.trialId := by
            rw [List.map_singleton, List.mem_singleton] at hmem
            exact hmem.trans hid
          exact hids.1 (heq ▸ List.mem_map_of_mem ht)
      obtain ⟨matured, added, hok, hfinal, hadded, hall⟩ := ih (index + 1) hids.2 hnew'
      have hwrite : (Prog.write (Write.outcome o) : CertificationProg Unit) s
          = ([Write.outcome o], .ok ()) := rfl
      have hrest : settlePending R input snapshot (index + 1) rest
          (commitAll s [Write.outcome o])
          = ((settlePending R input snapshot (index + 1) rest
              (commitAll s [Write.outcome o])).1, .ok matured) := Prod.ext rfl hok
      have hrun : settlePending R input snapshot index (trial :: rest) s
          = (Write.outcome o :: (settlePending R input snapshot (index + 1) rest
              (Durable.commit s (Write.outcome o))).1, .ok (matured + 1)) := by
        rw [settlePending, Prog.run_bind_of_silent hlift]
        show (Prog.write (Write.outcome o) >>= _) s = _
        rw [Prog.run_bind_of_ok hwrite, Prog.run_bind_of_ok hrest]
        simp
      refine ⟨matured + 1, o :: added, by rw [hrun], ?_, ?_, ?_⟩
      · rw [Prog.final, hrun, commitAll_cons]
        show ((settlePending R input snapshot (index + 1) rest).final _).outcomes = _
        rw [hfinal, hcommit, List.append_assoc, List.singleton_append]
      · intro o' ho'
        rcases List.mem_cons.mp ho' with rfl | ho'
        · exact ⟨trial, List.mem_cons_self, index, hresult⟩
        · obtain ⟨t, ht, i, hi⟩ := hadded o' ho'
          exact ⟨t, List.mem_cons_of_mem _ ht, i, hi⟩
      · intro t ht
        rcases List.mem_cons.mp ht with rfl | ht
        · refine ⟨index, some o, hresult, fun o' ho' => ?_⟩
          injection ho' with ho'
          rw [← ho']
          exact List.mem_cons_self
        · obtain ⟨i, result, hi, hmem⟩ := hall t ht
          exact ⟨i, result, hi, fun o' ho' => List.mem_cons_of_mem _ (hmem o' ho')⟩

end InefficiencyEngine.Research
