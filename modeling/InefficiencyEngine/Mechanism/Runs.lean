import InefficiencyEngine.Mechanism.Cycle

namespace InefficiencyEngine.Mechanism

open Portfolio Durable Prog

/-!
# Runs of evidence cycles

A process runs evidence cycles one after the other over one ledger; each sees its own
snapshot and evidence, and may stop after any of its writes.  The state is the ledger and the
number of cycles started, which tells the ids of the cycles apart.

`cycle_invariant` is the rule for what holds in every reachable state: it is enough that each
of the three kinds of writes a cycle makes keeps it.
-/

/-- The number of cycles started and what they recorded. -/
structure MechanismWorld where
  started : ℕ
  ledger : MechanismLedger

/-- Nothing has run. -/
def MechanismWorld.initial : MechanismWorld := ⟨0, .empty⟩

/-- A cycle: what it obtains, and how many of its writes it lives to make. -/
structure CycleAction where
  input : MechanismInput
  writes : ℕ

/-- What a cycle leaves, when it stops after some of its writes. -/
def cycleStep {α : Type} (cycle : ℕ → MechanismInput → MechanismProg α) (world : MechanismWorld)
    (action : CycleAction) : MechanismWorld where
  started := world.started + 1
  ledger := commitAll world.ledger
    ((cycle world.started action.input world.ledger).1.take action.writes)

section Rule

variable {R : MechanismRuntime} {S : MechanismService} {runIndex : ℕ} {input : MechanismInput}
variable {I : MechanismLedger → Prop}

/-- The settlement loop keeps what the outcomes of recorded trials keep. -/
theorem spec_settlePending {pending : List MechanismForwardTrial}
    (hkeep : ∀ trial ∈ pending, ∀ settlement,
      S.settleTrial input.evidence trial = .ok (some settlement) →
      ∀ s, I s → I (commit s (MechanismWrite.outcome (S.outcome trial settlement)))) :
    Spec I (settlePending S input.evidence pending) (Along.Keeps I) (fun _ => I) := by
  induction pending with
  | nil => exact spec_pure (Q := fun _ => I) 0
  | cons trial rest ih =>
    have ih := ih (fun trial htrial => hkeep trial (List.mem_cons_of_mem _ htrial))
    rw [settlePending]
    refine spec_bind (spec_lift _) (fun result => ?_)
    refine spec_of_fact (fun hresult => ?_)
    cases result with
    | none => exact ih
    | some settlement =>
      refine spec_bind (spec_write_keeps (hkeep trial List.mem_cons_self settlement hresult))
        (fun _ => ?_)
      exact spec_bind ih (fun matured => spec_pure (Q := fun _ => I) (matured + 1))

/-- The recording loop keeps what the trials and candidates of its specs keep. -/
theorem spec_recordSpecs {specs : List MechanismTrialSpec} (index : ℕ)
    (htrial : ∀ spec ∈ specs, ∀ i s, I s →
      I (commit s (MechanismWrite.trial (spec.trial (R.uuid4 runIndex i)))))
    (hcandidate : ∀ spec ∈ specs, ∀ s₀, I s₀ → ∀ candidate,
      S.candidateFromSpec? input s₀ spec = some candidate →
      ∀ s, I s → I (commit s (MechanismWrite.candidate candidate))) :
    Spec I (recordSpecs R S runIndex input index specs) (Along.Keeps I) (fun _ => I) := by
  -- the induction is on the specs, each of which writes a trial and a candidate at most
  induction specs generalizing index with
  | nil => exact spec_pure (Q := fun _ => I) (0, 0)
  | cons spec rest ih =>
    have ih := ih (index + 1) (fun spec hspec => htrial spec (List.mem_cons_of_mem _ hspec))
      (fun spec hspec => hcandidate spec (List.mem_cons_of_mem _ hspec))
    rw [recordSpecs]
    refine spec_get_bind (fun ledger hledger => ?_)
    have htrialWrite : ∀ w ∈ (trialFromSpec? R runIndex index ledger spec).map MechanismWrite.trial,
        ∀ s, I s → I (commit s w) := by
      intro w hw s hs
      obtain ⟨trial, hmem, rfl⟩ := Option.map_eq_some_iff.mp hw
      obtain ⟨-, rfl⟩ := of_mem_trialFromSpec? (Option.mem_toList.mpr hmem)
      exact htrial spec List.mem_cons_self index s hs
    -- the candidate was judged by the ledger before the trial
    have hcandidateWrite : ∀ w ∈ (S.candidateFromSpec? input ledger spec).map
        MechanismWrite.candidate, ∀ s, I s → I (commit s w) := by
      intro w hw s hs
      obtain ⟨candidate, hmem, rfl⟩ := Option.map_eq_some_iff.mp hw
      exact hcandidate spec List.mem_cons_self ledger hledger candidate hmem s hs
    refine Spec.pre ?_ (fun s hs => hs ▸ hledger)
    refine spec_bind (spec_writeOption_keeps htrialWrite) (fun _ => ?_)
    refine spec_bind (spec_writeOption_keeps hcandidateWrite) (fun _ => ?_)
    exact spec_bind ih (fun counts => spec_pure (Q := fun _ => I) _)

/-- **Cycle rule.** What each write of a cycle keeps holds wherever the cycle stops: the
    outcome of a recorded trial, the trial of a discovered spec, and the candidate a spec gets
    from a ledger where it holds. -/
theorem cycle_invariant
    (houtcome : ∀ s, I s → ∀ trial ∈ s.trials, ∀ settlement,
      S.settleTrial input.evidence trial = .ok (some settlement) →
      I (commit s (MechanismWrite.outcome (S.outcome trial settlement))))
    (htrial : ∀ snapshot, input.collected = .ok snapshot → ∀ spec ∈ S.discoverSpecs input snapshot,
      ∀ i s, I s → I (commit s (MechanismWrite.trial (spec.trial (R.uuid4 runIndex i)))))
    (hcandidate : ∀ snapshot, input.collected = .ok snapshot →
      ∀ spec ∈ S.discoverSpecs input snapshot, ∀ s₀, I s₀ → ∀ candidate,
      S.candidateFromSpec? input s₀ spec = some candidate →
      ∀ s, I s → I (commit s (MechanismWrite.candidate candidate)))
    {ledger : MechanismLedger} (hledger : I ledger) (n : ℕ) :
    I (commitAll ledger ((runEvidenceCycle R S runIndex input ledger).1.take n)) := by
  cases hcollected : input.collected with
  | error e =>
    have hrun : (runEvidenceCycle R S runIndex input ledger).1 = [] := by
      rw [runEvidenceCycle, run_bind, hcollected]
      rfl
    rw [hrun]
    simpa using hledger
  | ok snapshot =>
    -- the pending trials stay in the table while their outcomes are recorded
    generalize hpending : ledger.pending snapshot.completedAt = pending
    have hkept : ∀ s w, (∀ trial ∈ pending, trial ∈ s.trials) →
        ∀ trial ∈ pending, trial ∈ (commit s w : MechanismLedger).trials :=
      fun s w hs trial hmem => MechanismLedger.mem_trials_commit (hs trial hmem) w
    have hsettle : Spec (fun s => I s ∧ ∀ trial ∈ pending, trial ∈ s.trials)
        (settlePending S input.evidence pending)
        (Along.Keeps fun s => I s ∧ ∀ trial ∈ pending, trial ∈ s.trials)
        (fun _ s => I s ∧ ∀ trial ∈ pending, trial ∈ s.trials) :=
      spec_settlePending (fun trial hmem settlement hsettled s hs =>
        ⟨houtcome s hs.1 trial (hs.2 trial hmem) settlement hsettled, hkept s _ hs.2⟩)
    have hrecord : ∀ matured, Spec (fun s => I s ∧ ∀ trial ∈ pending, trial ∈ s.trials)
        (recordCycle R S runIndex input snapshot matured)
        (Along.Keeps fun s => I s ∧ ∀ trial ∈ pending, trial ∈ s.trials)
        (fun _ s => I s ∧ ∀ trial ∈ pending, trial ∈ s.trials) := by
      intro matured
      refine spec_bind (spec_recordSpecs 0 ?_ ?_) (fun counts => ?_)
      · exact fun spec hspec i s hs =>
          ⟨htrial snapshot hcollected spec hspec i s hs.1, hkept s _ hs.2⟩
      · exact fun spec hspec s₀ hs₀ candidate hsome s hs =>
          ⟨hcandidate snapshot hcollected spec hspec s₀ hs₀.1 candidate hsome s hs.1,
            hkept s _ hs.2⟩
      · exact spec_get_bind (fun s hs => (spec_pure
          (Q := fun _ s => I s ∧ ∀ trial ∈ pending, trial ∈ s.trials) _).pre (fun t ht => ht ▸ hs))
    have hstart : I ledger ∧ ∀ trial ∈ pending, trial ∈ ledger.trials := by
      refine ⟨hledger, fun trial hmem => ?_⟩
      rw [← hpending] at hmem
      exact (MechanismLedger.of_mem_pending hmem).1
    have hrun : (runEvidenceCycle R S runIndex input ledger).1
        = ((settlePending S input.evidence pending
            >>= recordCycle R S runIndex input snapshot) ledger).1 := by
      have hlift : (lift input.collected : MechanismProg ScanSnapshot) ledger
          = ([], .ok snapshot) := by
        rw [hcollected]
        rfl
      rw [runEvidenceCycle, run_bind_of_silent hlift, run_get_bind, hpending]
    rw [hrun]
    exact ((((spec_bind hsettle hrecord).guarantee ledger hstart).keeps hstart) n).1

/-! ### The ids of the trials -/

/-- The trials have ids of the cycles started, and only trials have outcomes. -/
structure IdsBelow (R : MechanismRuntime) (started : ℕ) (ledger : MechanismLedger) : Prop where
  trials : ∀ trial ∈ ledger.trials, ∃ k < started, ∃ i, trial.trialId = R.uuid4 k i
  completed : ∀ trialId ∈ ledger.completed, ∃ trial ∈ ledger.trials, trial.trialId = trialId

/-- An outcome of a trial keeps the ids. -/
theorem IdsBelow.outcome {started : ℕ} {ledger : MechanismLedger} (h : IdsBelow R started ledger)
    {trial : MechanismForwardTrial} (htrial : trial ∈ ledger.trials)
    {o : MechanismForwardOutcome} (ho : o.trialId = trial.trialId) :
    IdsBelow R started (commit ledger (MechanismWrite.outcome o)) where
  trials row hrow := by
    rcases (MechanismLedger.of_mem_commit _).1 row hrow with hrow | hrow
    · exact h.trials row hrow
    · cases hrow
  completed trialId hid := by
    obtain ⟨row, hrow, rfl⟩ := List.mem_map.mp hid
    rcases (MechanismLedger.of_mem_commit _).2.1 row hrow with hrow | hrow
    · obtain ⟨trial', hmem, hid'⟩ := h.completed row.trialId (List.mem_map_of_mem hrow)
      exact ⟨trial', MechanismLedger.mem_trials_commit hmem _, hid'⟩
    · injection hrow with hrow
      subst hrow
      exact ⟨trial, MechanismLedger.mem_trials_commit htrial _, ho.symm⟩

/-- A trial of a started cycle, or a candidate, keeps the ids. -/
theorem IdsBelow.other {started : ℕ} {ledger : MechanismLedger} (h : IdsBelow R started ledger)
    {w : MechanismWrite} (htrial : ∀ row, w = .trial row → ∃ k < started, ∃ i,
      row.trialId = R.uuid4 k i) (houtcome : ∀ o, w ≠ .outcome o) :
    IdsBelow R started (commit ledger w) where
  trials row hrow := by
    rcases (MechanismLedger.of_mem_commit _).1 row hrow with hrow | hrow
    · exact h.trials row hrow
    · exact htrial row hrow
  completed trialId hid := by
    obtain ⟨row, hrow, rfl⟩ := List.mem_map.mp hid
    rcases (MechanismLedger.of_mem_commit _).2.1 row hrow with hrow | hrow
    · obtain ⟨trial', hmem, hid'⟩ := h.completed row.trialId (List.mem_map_of_mem hrow)
      exact ⟨trial', MechanismLedger.mem_trials_commit hmem _, hid'⟩
    · exact absurd hrow (houtcome row)

/-- A cycle, wherever it stops, leaves ids of the cycles started so far and of its own. -/
theorem IdsBelow.cycle {ledger : MechanismLedger} (h : IdsBelow R runIndex ledger) (n : ℕ) :
    IdsBelow R (runIndex + 1)
      (commitAll ledger ((runEvidenceCycle R S runIndex input ledger).1.take n)) := by
  refine cycle_invariant (I := IdsBelow R (runIndex + 1)) ?_ ?_ ?_ ?_ n
  · exact fun s hs trial htrial settlement _ =>
      hs.outcome htrial (S.outcome_trialId trial settlement)
  · intro snapshot _ spec _ i s hs
    refine hs.other (fun row hrow => ?_) (fun o => by simp)
    injection hrow with hrow
    subst hrow
    exact ⟨runIndex, Nat.lt_succ_self _, i, rfl⟩
  · exact fun snapshot _ spec _ s₀ _ candidate _ s hs => hs.other (by simp) (by simp)
  · refine ⟨fun trial htrial => ?_, h.completed⟩
    obtain ⟨k, hk, i, hid⟩ := h.trials trial htrial
    exact ⟨k, by omega, i, hid⟩

/-- The ids a cycle may take are new before it, and no trial of such an id has an outcome. -/
theorem IdsBelow.fresh {ledger : MechanismLedger} (h : IdsBelow R runIndex ledger) :
    (∀ trial ∈ ledger.trials, ∀ i, 0 ≤ i → trial.trialId ≠ R.uuid4 runIndex i)
      ∧ ∀ i, 0 ≤ i → R.uuid4 runIndex i ∉ ledger.completed := by
  have hnew : ∀ trial ∈ ledger.trials, ∀ i, trial.trialId ≠ R.uuid4 runIndex i := by
    intro trial htrial i hid
    obtain ⟨k, hk, j, hid'⟩ := h.trials trial htrial
    have hrun := (R.uuid4_injective (hid'.symm.trans hid)).1
    omega
  refine ⟨fun trial htrial i _ => hnew trial htrial i, fun i _ hmem => ?_⟩
  obtain ⟨trial, htrial, hid⟩ := h.completed _ hmem
  exact hnew trial htrial i hid

/-- The settlements add no trial and complete only trials of the ledger. -/
theorem IdsBelow.afterSettlement {started : ℕ} {ledger : MechanismLedger}
    (h : IdsBelow R started ledger) (S : MechanismService) (evidence : StoredEvidence)
    (now : Instant) :
    IdsBelow R started (afterSettlement S evidence (ledger.pending now) ledger) where
  trials trial htrial := h.trials trial (by simpa using htrial)
  completed trialId hid := by
    rw [afterSettlement_trials]
    rcases mem_completed_afterSettlement.mp hid with hid | ⟨trial, htrial, -, rfl⟩
    · exact h.completed trialId hid
    · exact ⟨trial, (MechanismLedger.of_mem_pending htrial).1, rfl⟩

end Rule

end InefficiencyEngine.Mechanism
