import InefficiencyEngine.Portfolio.Store

namespace InefficiencyEngine.Portfolio

/-!
# The allocation certification service

`AllocationForwardCertificationService.run_cycle` as the sequence of its reads and writes:
it settles the pending trials of the certification tables against one snapshot, then
records a trial for every allocation of a plan whose cohort has nothing unsettled.  Other
services write the same tables between any two of these steps.
-/

/-! ### The certification tables -/

namespace CertificationStore

variable (s : CertificationStore)

/-- `_completed_trial_ids`. -/
def completedTrialIds : List Uuid := s.outcomes.map PaperAllocationOutcome.trialId

/-- The rows of `pending_supported_trials` before the completed ones are dropped. -/
def dueSupportedTrials (now : Instant) : List PaperAllocationTrial :=
  s.trials.filter (fun trial => trial.settlementSupported && trial.dueAt.any (· ≤ now))

/-- The rows of `has_unsettled_supported_cohort`. -/
def supportedCohort (cohortKey : String) : List Uuid :=
  (s.trials.filter (fun trial => trial.cohortKey = cohortKey && trial.settlementSupported)).map
    PaperAllocationTrial.trialId

/-- The outcome stored for a trial. -/
def outcome? (trialId : Uuid) : Option PaperAllocationOutcome :=
  s.outcomes.find? (fun o => o.trialId = trialId)

variable {s}

/-- A stored outcome is never replaced. -/
theorem outcome?_commit {trialId : Uuid} {o : PaperAllocationOutcome}
    (h : s.outcome? trialId = some o) (w : Write) : (s.commit w).outcome? trialId = some o := by
  cases w with
  | outcome o' =>
    rw [commit]
    split
    · exact h
    · rw [outcome?, List.find?_append, show List.find? _ s.outcomes = _ from h]
      rfl
  | trial t =>
    rw [commit]
    split <;> exact h
  | event row => exact h
  | snapshot snapshot => exact h
  | integrity snapshot => exact h

/-- The first outcome of a trial is stored. -/
theorem outcome?_commit_outcome {o : PaperAllocationOutcome} (h : s.outcome? o.trialId = none) :
    (s.commit (.outcome o)).outcome? o.trialId = some o := by
  have hnone := List.find?_eq_none.mp h
  rw [commit, if_neg]
  · rw [outcome?, List.find?_append, show List.find? _ s.outcomes = _ from h]
    simp
  · rw [List.any_eq_true]
    rintro ⟨x, hx, heq⟩
    exact hnone x hx heq

/-- No write stores a second outcome of a trial. -/
theorem oneOutcome_commit (h : (s.outcomes.map PaperAllocationOutcome.trialId).Nodup)
    (w : Write) : ((s.commit w).outcomes.map PaperAllocationOutcome.trialId).Nodup := by
  cases w with
  | outcome o =>
    rw [commit]
    split
    · exact h
    · rename_i hnone
      rw [List.map_append, List.nodup_append]
      refine ⟨h, List.nodup_singleton _, ?_⟩
      rintro _ hx _ hy rfl
      obtain ⟨x, hx, heq⟩ := List.mem_map.mp hx
      rw [List.map_singleton, List.mem_singleton] at hy
      exact hnone (List.any_eq_true.mpr ⟨x, hx, decide_eq_true (heq.trans hy)⟩)
  | trial t =>
    rw [commit]
    split <;> exact h
  | event row => exact h
  | snapshot snapshot => exact h
  | integrity snapshot => exact h

end CertificationStore

/-! ### The worker -/

/-- Where a worker is in `run_cycle`. -/
inductive CertificationWorker
  | idle
  /-- The snapshot is collected and the completed trials are read. -/
  | collected (run : ℕ) (snapshot : ScanSnapshot) (completed : List Uuid)
  /-- Settling the pending trials. -/
  | settling (run index : ℕ) (snapshot : ScanSnapshot) (pending : List PaperAllocationTrial)
  /-- Recording the trials of a plan. -/
  | allocating (run index : ℕ) (observedAt : Instant) (allocations : List UnifiedPaperAllocation)
  /-- The completed trials are read to decide about a supported trial. -/
  | checking (run index : ℕ) (observedAt : Instant) (trial : PaperAllocationTrial)
      (completed : List Uuid) (allocations : List UnifiedPaperAllocation)

/-- One step of a worker, with what it obtains from outside the tables. -/
inductive CertificationAction
  /-- Start a run on a collected snapshot. -/
  | collect (snapshot : ScanSnapshot)
  /-- Read the pending trials. -/
  | readPending
  /-- Settle the next pending trial on the stored observations. -/
  | settle (evidence : Evidence)
  /-- Receive the allocator's plan. -/
  | allocate (plan : UnifiedPaperAllocationPlan)
  /-- Build the trial of the next allocation. -/
  | build
  /-- Decide about the trial whose cohort was read. -/
  | record
  /-- A run ends, after its last allocation or before. -/
  | stop

/-- What a step does: the worker's next place, and the write it makes, if any. The worker reads
    the completed trials before it checks the cohort of a supported trial against the store, and
    records the trial together with that check. -/
def CertificationWorker.step (R : Runtime) (started : ℕ) (s : CertificationStore)
    (worker : CertificationWorker) (action : CertificationAction) :
    CertificationWorker × Option Write :=
  match worker, action with
  | .idle, .collect snapshot => (.collected started snapshot s.completedTrialIds, none)
  | .collected run snapshot completed, .readPending =>
    (.settling run 0 snapshot ((s.dueSupportedTrials snapshot.completedAt).filter
      (fun trial => trial.trialId ∉ completed)), none)
  -- the settlement raises and the run is over, or it returns and the next trial follows
  | .settling run index snapshot (trial :: pending), .settle evidence =>
    match settleTrial R.upper evidence (R.uuid4 run (.outcome index)) trial snapshot with
    | .error _ => (.idle, none)
    | .ok outcome => (.settling run (index + 1) snapshot pending, outcome.map Write.outcome)
  | .settling run _ _ [], .allocate plan =>
    (.allocating run 0 plan.observedAt plan.allocations, none)
  | .allocating run index observedAt (allocation :: allocations), .build =>
    match trialFromAllocation R.upper (R.uuid4 run (.trial index)) allocation observedAt with
    | .error _ => (.idle, none)
    | .ok trial =>
      -- a trial without support is recorded without the check of its cohort
      if trial.settlementSupported then
        (.checking run index observedAt trial s.completedTrialIds allocations, none)
      else (.allocating run (index + 1) observedAt allocations, some (.trial trial))
  -- an open cohort drops the trial
  | .checking run index observedAt trial completed allocations, .record =>
    (.allocating run (index + 1) observedAt allocations,
      if (s.supportedCohort trial.cohortKey).any (fun trialId => trialId ∉ completed) then none
      else some (.trial trial))
  | _, .stop => (.idle, none)
  | worker, _ => (worker, none)

/-- A worker writes only its own two tables. -/
theorem CertificationWorker.step_write {R : Runtime} {started : ℕ} {s : CertificationStore}
    {worker : CertificationWorker} {action : CertificationAction} {w : Write}
    (h : (worker.step R started s action).2 = some w) :
    (∃ trial, w = .trial trial) ∨ ∃ outcome, w = .outcome outcome := by
  unfold CertificationWorker.step at h
  split at h
  · cases h
  · cases h
  · split at h
    · cases h
    · obtain ⟨o, -, rfl⟩ := Option.map_eq_some_iff.mp h
      exact Or.inr ⟨o, rfl⟩
  · cases h
  · split at h
    · cases h
    · split at h
      · cases h
      · injection h with h
        exact Or.inl ⟨_, h.symm⟩
  · dsimp only at h
    split at h
    · cases h
    · injection h with h
      exact Or.inl ⟨_, h.symm⟩
  · cases h
  · cases h

end InefficiencyEngine.Portfolio
