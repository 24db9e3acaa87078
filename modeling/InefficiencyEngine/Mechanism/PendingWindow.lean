import InefficiencyEngine.Lib.BoundedRead
import InefficiencyEngine.Mechanism.Runs
import Mathlib.Data.List.Nodup

namespace InefficiencyEngine.Mechanism

open Portfolio Durable Prog

/-!
# The window of pending trials

`pending` reads the first thousand due rows of a table that only grows, completed rows included,
and drops the completed ones afterwards.  A trial is read exactly when fewer than a thousand due
rows stand before it, and the rows before it never change.

A trial with a thousand rows before it that are due no later than it is itself is `Starved`: it is
never read, at no time and after no further cycles.  Since a cohort has at most one open trial, a
starved trial closes its cohort for good: the cohort gets no further trial and no further outcome,
so that its qualification never changes again.
-/

/-! ### The rows ahead of a trial -/

/-- How many rows before a trial are due at an instant. -/
def MechanismLedger.ahead (ledger : MechanismLedger) (trial : MechanismForwardTrial)
    (now : Instant) : ℕ :=
  (beforeFirst (fun row => row.trialId = trial.trialId) ledger.trials).countP
    (fun row => row.dueAt ≤ now)

/-- The rows ahead of a trial fill the window from the time on at which the trial is due. -/
def MechanismLedger.Starved (ledger : MechanismLedger) (trial : MechanismForwardTrial) : Prop :=
  MechanismLedger.pendingLimit ≤ ledger.ahead trial trial.dueAt

namespace MechanismLedger

variable {ledger later : MechanismLedger} {trial : MechanismForwardTrial}

/-- More rows are due later. -/
theorem ahead_mono {now now' : Instant} (h : now ≤ now') :
    ledger.ahead trial now ≤ ledger.ahead trial now' := by
  refine List.countP_mono_left (fun row _ hrow => ?_)
  rw [decide_eq_true_eq] at hrow ⊢
  exact le_trans hrow h

/-- The rows of a ledger are the first ones of a later ledger. -/
structure Extends (ledger later : MechanismLedger) : Prop where
  trials : ledger.trials <+: later.trials
  outcomes : ledger.outcomes <+: later.outcomes

theorem Extends.refl (ledger : MechanismLedger) : Extends ledger ledger :=
  ⟨List.prefix_rfl, List.prefix_rfl⟩

theorem Extends.trans {last : MechanismLedger} (h : Extends ledger later)
    (h' : Extends later last) : Extends ledger last :=
  ⟨h.trials.trans h'.trials, h.outcomes.trans h'.outcomes⟩

/-- No write changes or moves a row. -/
theorem extends_commit (ledger : MechanismLedger) (w : MechanismWrite) :
    Extends ledger (commit ledger w) := by
  cases w with
  | trial row =>
    rw [commit]
    split
    · exact Extends.refl ledger
    · exact ⟨List.prefix_append _ _, List.prefix_rfl⟩
  | outcome row =>
    rw [commit]
    split
    · exact Extends.refl ledger
    · exact ⟨List.prefix_rfl, List.prefix_append _ _⟩
  | candidate row =>
    obtain ⟨htrials, houtcomes⟩ := ledger.commit_candidate row
    exact ⟨htrials ▸ List.prefix_rfl, houtcomes ▸ List.prefix_rfl⟩

/-- A completed trial stays completed. -/
theorem Extends.completed_subset (h : Extends ledger later) : ledger.completed ⊆ later.completed :=
  List.map_subset _ h.outcomes.subset

/-- Rows that are added come after the trial. -/
theorem ahead_of_longer (hpre : ledger.trials <+: later.trials) (hmem : trial ∈ ledger.trials)
    (now : Instant) : later.ahead trial now = ledger.ahead trial now := by
  obtain ⟨added, hadded⟩ := hpre
  have hbefore : beforeFirst (fun row : MechanismForwardTrial => row.trialId = trial.trialId)
      later.trials = beforeFirst (fun row => row.trialId = trial.trialId) ledger.trials := by
    rw [← hadded, beforeFirst, beforeFirst, List.takeWhile_append, if_neg]
    intro hlength
    have hall := List.takeWhile_eq_self_iff.mp (List.IsPrefix.eq_of_length
      (List.takeWhile_prefix _) hlength) trial hmem
    simp at hall
  rw [ahead, hbefore, ahead]

/-- Rows that are added starve no trial of the table, and feed none. -/
theorem starved_of_longer (hpre : ledger.trials <+: later.trials)
    (hmem : trial ∈ ledger.trials) : later.Starved trial ↔ ledger.Starved trial := by
  rw [Starved, Starved, ahead_of_longer hpre hmem]

/-- A row that is added has all rows of the table ahead of it. -/
theorem countP_le_ahead (hpre : ledger.trials <+: later.trials)
    (hnew : ∀ row ∈ ledger.trials, row.trialId ≠ trial.trialId) (now : Instant) :
    ledger.trials.countP (fun row => row.dueAt ≤ now) ≤ later.ahead trial now := by
  obtain ⟨added, hadded⟩ := hpre
  have hall : ∀ row ∈ ledger.trials, (!decide (row.trialId = trial.trialId)) = true := by
    intro row hrow
    simpa using hnew row hrow
  rw [ahead, ← hadded, beforeFirst, List.takeWhile_append_of_pos hall, List.countP_append]
  exact Nat.le_add_right _ _

/-- The row of an id is the first row of the id. -/
theorem find?_trialId (hnodup : (ledger.trials.map MechanismForwardTrial.trialId).Nodup)
    (hmem : trial ∈ ledger.trials) :
    ledger.trials.find? (fun row => row.trialId = trial.trialId) = some trial := by
  rcases hfind : ledger.trials.find? (fun row => row.trialId = trial.trialId) with _ | row
  · have hnone := List.find?_eq_none.mp hfind trial hmem
    simp at hnone
  · have hid : row.trialId = trial.trialId := of_decide_eq_true (List.find?_some
      (p := fun row : MechanismForwardTrial => row.trialId = trial.trialId) hfind)
    rw [hfind, List.inj_on_of_nodup_map hnodup (List.mem_of_find?_eq_some hfind) hmem hid]

/-- **The window.** A trial is pending exactly when it is due, has no outcome, and fewer than a
    thousand due rows stand before it. -/
theorem mem_pending_iff (hnodup : (ledger.trials.map MechanismForwardTrial.trialId).Nodup)
    (hmem : trial ∈ ledger.trials) (now : Instant) :
    trial ∈ ledger.pending now
      ↔ trial.dueAt ≤ now ∧ trial.trialId ∉ ledger.completed
        ∧ ledger.ahead trial now < pendingLimit := by
  rw [pending, List.mem_filter, dueTrials, mem_bounded_iff (find?_trialId hnodup hmem),
    decide_eq_true_eq, decide_eq_true_eq]
  show (trial.dueAt ≤ now ∧ ledger.ahead trial now < pendingLimit) ∧ _ ↔ _
  constructor
  · rintro ⟨⟨hdue, hahead⟩, hopen⟩
    exact ⟨hdue, hopen, hahead⟩
  · rintro ⟨hdue, hopen, hahead⟩
    exact ⟨⟨hdue, hahead⟩, hopen⟩

/-- A trial is in the window at some time exactly when it is open and not starved. -/
theorem exists_mem_pending_iff (hnodup : (ledger.trials.map MechanismForwardTrial.trialId).Nodup)
    (hmem : trial ∈ ledger.trials) :
    (∃ now, trial ∈ ledger.pending now)
      ↔ trial.trialId ∉ ledger.completed ∧ ¬ ledger.Starved trial := by
  constructor
  · rintro ⟨now, hnow⟩
    obtain ⟨hdue, hopen, hahead⟩ := (mem_pending_iff hnodup hmem now).mp hnow
    exact ⟨hopen, fun hstarved => absurd (hstarved.trans (ahead_mono hdue)) (not_le.mpr hahead)⟩
  · rintro ⟨hopen, hfed⟩
    exact ⟨trial.dueAt, (mem_pending_iff hnodup hmem _).mpr
      ⟨le_rfl, hopen, not_le.mp hfed⟩⟩

end MechanismLedger

/-! ### What a cycle keeps -/

/-- The cohorts are served one trial at a time: a trial is only recorded once those of its cohort
    have outcomes, and only trials that are not starved get one. -/
structure CohortsServed (ledger : MechanismLedger) : Prop where
  idNodup : (ledger.trials.map MechanismForwardTrial.trialId).Nodup
  completedNodup : ledger.completed.Nodup
  known : ∀ o ∈ ledger.outcomes, ∃ trial ∈ ledger.trials, trial.trialId = o.trialId
    ∧ trial.cohortKey = o.cohortKey
  serial : ledger.trials.Pairwise (fun earlier trial =>
    earlier.cohortKey = trial.cohortKey → earlier.trialId ∈ ledger.completed)
  fed : ∀ trial ∈ ledger.trials, trial.trialId ∈ ledger.completed → ¬ ledger.Starved trial

namespace CohortsServed

variable {ledger : MechanismLedger} (h : CohortsServed ledger)
include h

/-- Only trials have outcomes. An id that is completed is the id of a trial in the ledger. -/
theorem mem_of_completed {trialId : Uuid} (hid : trialId ∈ ledger.completed) :
    trialId ∈ ledger.trials.map MechanismForwardTrial.trialId := by
  obtain ⟨o, ho, rfl⟩ := List.mem_map.mp hid
  obtain ⟨trial, htrial, hid, -⟩ := h.known o ho
  exact List.mem_map.mpr ⟨trial, htrial, hid⟩

/-- A cohort has at most one open trial. -/
theorem eq_of_open {trial other : MechanismForwardTrial} (htrial : trial ∈ ledger.trials)
    (hother : other ∈ ledger.trials) (hcohort : trial.cohortKey = other.cohortKey)
    (hopen : trial.trialId ∉ ledger.completed) (hopen' : other.trialId ∉ ledger.completed) :
    trial = other := by
  have hserial := List.Pairwise.forall_of_forall_of_flip
    (R := fun a b : MechanismForwardTrial => a.cohortKey = b.cohortKey →
      a.trialId ∉ ledger.completed → b.trialId ∉ ledger.completed → a = b)
    (fun _ _ _ _ _ => rfl)
    (h.serial.imp fun hdone hsame hopen _ => absurd (hdone hsame) hopen)
    (h.serial.imp fun hdone hsame _ hopen => absurd (hdone hsame.symm) hopen)
  exact hserial htrial hother hcohort hopen hopen'

/-- An outcome of a trial that is not starved. -/
theorem outcome {trial : MechanismForwardTrial} (htrial : trial ∈ ledger.trials)
    (hfed : ¬ ledger.Starved trial) {o : MechanismForwardOutcome} (hid : o.trialId = trial.trialId)
    (hcohort : o.cohortKey = trial.cohortKey) :
    CohortsServed (ledger.commit (.outcome o)) := by
  by_cases hdone : o.trialId ∈ ledger.completed
  · rw [MechanismLedger.commit_outcome_of_completed hdone]
    exact h
  · rw [MechanismLedger.commit_outcome_of_open hdone]
    have hcompleted : ({ ledger with outcomes := ledger.outcomes ++ [o] } :
        MechanismLedger).completed = ledger.completed ++ [o.trialId] := by
      simp [MechanismLedger.completed]
    refine ⟨h.idNodup, ?_, fun row hrow => ?_, ?_, fun row hrow hmem => ?_⟩
    · rw [hcompleted]
      exact List.nodup_append.mpr ⟨h.completedNodup, List.nodup_singleton _, by
        intro a ha b hb
        rw [List.mem_singleton.mp hb]
        rintro rfl
        exact hdone ha⟩
    · rcases List.mem_append.mp hrow with hrow | hrow
      · exact h.known row hrow
      · rw [List.mem_singleton.mp hrow]
        exact ⟨trial, htrial, hid.symm, hcohort.symm⟩
    · rw [hcompleted]
      exact h.serial.imp (fun hdone hsame => List.mem_append_left _ (hdone hsame))
    · rw [hcompleted] at hmem
      rcases List.mem_append.mp hmem with hmem | hmem
      · exact h.fed row hrow hmem
      · -- the row is the trial of the outcome
        have hsame : row = trial := List.inj_on_of_nodup_map h.idNodup hrow htrial
          ((List.mem_singleton.mp hmem).trans hid)
        rw [hsame]
        exact hfed

/-- A candidate. -/
theorem candidate (row : MechanismPaperCandidate) :
    CohortsServed (ledger.commit (.candidate row)) := by
  obtain ⟨htrials, houtcomes⟩ := ledger.commit_candidate row
  generalize ledger.commit (.candidate row) = next at htrials houtcomes
  obtain ⟨trials, outcomes, candidates⟩ := next
  subst htrials houtcomes
  exact ⟨h.idNodup, h.completedNodup, h.known, h.serial, h.fed⟩

/-- A trial of a cohort without an open trial. -/
theorem trial {row : MechanismForwardTrial} (hclosed : ledger.hasOpenCohort row.cohortKey = false) :
    CohortsServed (ledger.commit (.trial row)) := by
  by_cases hknown : row.trialId ∈ ledger.trials.map MechanismForwardTrial.trialId
  · -- a row of a stored id is dropped
    obtain ⟨trial, htrial, hid⟩ := List.mem_map.mp hknown
    have hany : ledger.trials.any (fun t => t.trialId = row.trialId) = true :=
      List.any_eq_true.mpr ⟨trial, htrial, decide_eq_true hid⟩
    rw [MechanismLedger.commit, if_pos hany]
    exact h
  · have hnew : ∀ trial ∈ ledger.trials, trial.trialId ≠ row.trialId := fun trial htrial hid =>
      hknown (List.mem_map.mpr ⟨trial, htrial, hid⟩)
    rw [MechanismLedger.commit_trial hnew]
    refine ⟨?_, h.completedNodup, fun o ho => ?_, ?_, fun trial htrial hmem => ?_⟩
    · rw [List.map_append]
      exact List.nodup_append.mpr ⟨h.idNodup, List.nodup_singleton _, by
        intro a ha b hb
        rw [List.map_singleton, List.mem_singleton] at hb
        rw [hb]
        rintro rfl
        exact hknown ha⟩
    · obtain ⟨trial, htrial, hkeys⟩ := h.known o ho
      exact ⟨trial, List.mem_append_left _ htrial, hkeys⟩
    · refine List.pairwise_append.mpr ⟨h.serial, List.pairwise_singleton _ _, ?_⟩
      intro earlier hearlier later hlater hsame
      rw [List.mem_singleton.mp hlater] at hsame
      by_contra hopen
      rw [MechanismLedger.hasOpenCohort_iff.mpr ⟨earlier, hearlier, hsame, hopen⟩] at hclosed
      cases hclosed
    · rcases List.mem_append.mp htrial with htrial | htrial
      · have hstarved : MechanismLedger.Starved { ledger with trials := ledger.trials ++ [row] } trial
            ↔ ledger.Starved trial :=
          MechanismLedger.starved_of_longer (List.prefix_append _ _) htrial
        rw [hstarved]
        exact h.fed trial htrial hmem
      · rw [List.mem_singleton.mp htrial] at hmem
        exact absurd (h.mem_of_completed hmem) hknown

end CohortsServed

section Cycles

variable {R : MechanismRuntime} {S : MechanismService} {runIndex : ℕ} {input : MechanismInput}

/-- The recording loop keeps what the trial of a spec of a closed cohort keeps, and the candidate
    the service finds for a spec in the ledger before that trial. -/
theorem spec_recordSpecs_from {I : MechanismLedger → Prop} {specs : List MechanismTrialSpec}
    (index : ℕ)
    (htrial : ∀ spec ∈ specs, ∀ i s, I s → s.hasOpenCohort spec.cohortKey = false →
      I (commit s (MechanismWrite.trial (spec.trial (R.uuid4 runIndex i)))))
    (hcandidate : ∀ spec ∈ specs, ∀ s₀ candidate, S.candidateFromSpec? input s₀ spec = some candidate →
      ∀ s, I s → s₀.Extends s → I (commit s (MechanismWrite.candidate candidate))) :
    Spec I (recordSpecs R S runIndex input index specs) (Along.Keeps I) (fun _ => I) := by
  induction specs generalizing index with
  | nil => exact spec_pure (Q := fun _ => I) (0, 0)
  | cons spec rest ih =>
    have ih := ih (index + 1) (fun spec hspec => htrial spec (List.mem_cons_of_mem _ hspec))
      (fun spec hspec => hcandidate spec (List.mem_cons_of_mem _ hspec))
    rw [recordSpecs]
    refine spec_get_bind (fun ledger hledger => ?_)
    -- what the loop has read is still the ledger when the trial is written
    have hnext : ∀ w ∈ (trialFromSpec? R runIndex index ledger spec).map MechanismWrite.trial,
        ∀ s, s = ledger → I (commit s w) ∧ ledger.Extends (commit s w) := by
      rintro w hw s rfl
      obtain ⟨row, hrow, rfl⟩ := Option.map_eq_some_iff.mp hw
      obtain ⟨hclosed, rfl⟩ := of_mem_trialFromSpec? (Option.mem_toList.mpr hrow)
      exact ⟨htrial spec List.mem_cons_self index s hledger hclosed, s.extends_commit _⟩
    have hfirst : Spec (fun s => s = ledger)
        (writeOption ((trialFromSpec? R runIndex index ledger spec).map MechanismWrite.trial) :
          MechanismProg Unit) (Along.Keeps I) (fun _ s => I s ∧ ledger.Extends s) := by
      refine spec_writeOption_at (fun _ s hs => ?_) (fun w hw s hs => ?_)
      · rw [hs]
        exact ⟨hledger, .refl ledger⟩
      · exact ⟨(hnext w hw s hs).1, hnext w hw s hs⟩
    have hsecond : Spec (fun s => I s ∧ ledger.Extends s)
        (writeOption ((S.candidateFromSpec? input ledger spec).map MechanismWrite.candidate) :
          MechanismProg Unit) (Along.Keeps I) (fun _ => I) := by
      refine spec_writeOption_at (fun _ s hs => hs.1) (fun w hw s hs => ?_)
      obtain ⟨row, hrow, rfl⟩ := Option.map_eq_some_iff.mp hw
      have hkept := hcandidate spec List.mem_cons_self ledger row hrow s hs.1 hs.2
      exact ⟨hkept, hkept⟩
    exact spec_bind hfirst (fun _ => spec_bind hsecond (fun _ =>
      spec_bind ih (fun counts => spec_pure (Q := fun _ => I) _)))

/-- **Cycle rule.** What the three kinds of writes of a cycle keep holds wherever the cycle
    stops: the outcome of a trial that was pending when it began, the trial of a discovered spec
    whose cohort has no open trial, and the candidate a discovered spec has. The writes of a
    cycle come in three groups, the outcomes before the trials and candidates, so the rule is
    the composition of the rules of the two loops. -/
theorem cycle_keeps {I : MechanismLedger → Prop} {ledger : MechanismLedger}
    (houtcome : ∀ snapshot, input.collected = .ok snapshot →
      ∀ trial ∈ ledger.pending snapshot.completedAt, ∀ settlement,
      S.settleTrial input.evidence trial = .ok (some settlement) → ∀ s, I s → ledger.Extends s →
      I (commit s (MechanismWrite.outcome (S.outcome trial settlement))))
    (htrial : ∀ snapshot, input.collected = .ok snapshot → ∀ spec ∈ S.discoverSpecs input snapshot,
      ∀ i s, I s → s.hasOpenCohort spec.cohortKey = false →
      I (commit s (MechanismWrite.trial (spec.trial (R.uuid4 runIndex i)))))
    (hcandidate : ∀ snapshot, input.collected = .ok snapshot →
      ∀ spec ∈ S.discoverSpecs input snapshot, ∀ s₀ candidate,
      S.candidateFromSpec? input s₀ spec = some candidate → ∀ s, I s → s₀.Extends s →
      I (commit s (MechanismWrite.candidate candidate)))
    (hledger : I ledger) (n : ℕ) :
    I (commitAll ledger ((runEvidenceCycle R S runIndex input ledger).1.take n))
      ∧ ledger.Extends (commitAll ledger ((runEvidenceCycle R S runIndex input ledger).1.take n)) := by
  -- without a snapshot the cycle writes nothing
  cases hcollected : input.collected with
  | error e =>
    have hrun : (runEvidenceCycle R S runIndex input ledger).1 = [] := by
      rw [runEvidenceCycle, run_bind, hcollected]
      rfl
    rw [hrun, List.take_nil]
    exact ⟨hledger, .refl ledger⟩
  | ok snapshot =>
    generalize hpending : ledger.pending snapshot.completedAt = pending
    have hkept : ∀ s w, ledger.Extends s → ledger.Extends (commit s w) :=
      fun s w hs => hs.trans (s.extends_commit w)
    have hsettle : Spec (fun s => I s ∧ ledger.Extends s) (settlePending S input.evidence pending)
        (Along.Keeps fun s => I s ∧ ledger.Extends s) (fun _ s => I s ∧ ledger.Extends s) := by
      refine spec_settlePending (fun trial hmem settlement hsettled s hs => ?_)
      rw [← hpending] at hmem
      exact ⟨houtcome snapshot hcollected trial hmem settlement hsettled s hs.1 hs.2,
        hkept s _ hs.2⟩
    have hrecord : ∀ matured, Spec (fun s => I s ∧ ledger.Extends s)
        (recordCycle R S runIndex input snapshot matured)
        (Along.Keeps fun s => I s ∧ ledger.Extends s) (fun _ s => I s ∧ ledger.Extends s) := by
      intro matured
      refine spec_bind (spec_recordSpecs_from 0 ?_ ?_) (fun counts => ?_)
      · exact fun spec hspec i s hs hclosed =>
          ⟨htrial snapshot hcollected spec hspec i s hs.1 hclosed, hkept s _ hs.2⟩
      · exact fun spec hspec s₀ candidate hfound s hs hextends =>
          ⟨hcandidate snapshot hcollected spec hspec s₀ candidate hfound s hs.1 hextends,
            hkept s _ hs.2⟩
      · exact spec_get_bind (fun s hs => (spec_pure
          (Q := fun _ s => I s ∧ ledger.Extends s) _).pre (fun t ht => ht ▸ hs))
    -- a cycle with a snapshot is the settlement loop followed by the recording loop
    have hrun : (runEvidenceCycle R S runIndex input ledger).1
        = ((settlePending S input.evidence pending
            >>= recordCycle R S runIndex input snapshot) ledger).1 := by
      have hlift : (lift input.collected : MechanismProg ScanSnapshot) ledger
          = ([], .ok snapshot) := by
        rw [hcollected]
        rfl
      rw [runEvidenceCycle, run_bind_of_silent hlift, run_get_bind, hpending]
    have hstart : I ledger ∧ ledger.Extends ledger := ⟨hledger, .refl ledger⟩
    rw [hrun]
    exact ((spec_bind hsettle hrecord).guarantee ledger hstart).keeps hstart n

/-- The rows of a ledger are kept, and the cohorts are served. -/
def ServedAfter (ledger : MechanismLedger) (s : MechanismLedger) : Prop :=
  CohortsServed s ∧ ledger.Extends s

/-- A cycle serves the cohorts, wherever it stops. -/
theorem ServedAfter.cycle {start ledger : MechanismLedger} (h : ServedAfter start ledger)
    (n : ℕ) : ServedAfter start
      (commitAll ledger ((runEvidenceCycle R S runIndex input ledger).1.take n)) := by
  have hcycle := @cycle_keeps R S runIndex input CohortsServed ledger ?_
    (fun _ _ _ _ _ _ hs hclosed => hs.trial hclosed)
    (fun _ _ _ _ _ row _ _ hs _ => hs.candidate row) h.1 n
  · exact ⟨hcycle.1, h.2.trans hcycle.2⟩
  · intro snapshot _ trial hmem settlement _ s hs hextends
    -- a pending trial is not starved, and the rows that are added leave it so
    have htrial := (MechanismLedger.of_mem_pending hmem).1
    have hfed := ((MechanismLedger.exists_mem_pending_iff h.1.idNodup htrial).mp ⟨_, hmem⟩).2
    rw [← MechanismLedger.starved_of_longer hextends.trials htrial] at hfed
    exact hs.outcome (hextends.trials.subset htrial) hfed (S.outcome_trialId trial settlement)
      (S.outcome_cohortKey trial settlement)

/-- Every run of cycles serves the cohorts, whatever it starts from. -/
theorem ServedAfter.run {world : MechanismWorld} (h : CohortsServed world.ledger)
    (schedule : List CycleAction) : ServedAfter world.ledger
      (run (cycleStep (runEvidenceCycle R S)) world schedule).ledger :=
  run_invariant (I := fun w : MechanismWorld => ServedAfter world.ledger w.ledger)
    (C := fun _ _ => True) (fun _ action hw _ => hw.cycle action.writes) ⟨h, .refl _⟩
    (Meets.of_forall (fun _ _ => trivial) _ _)

end Cycles

theorem CohortsServed.initial : CohortsServed MechanismWorld.initial.ledger := by
  refine ⟨List.nodup_nil, List.nodup_nil, fun o ho => ?_, List.Pairwise.nil, fun trial ht => ?_⟩
  · cases ho
  · cases ht

/-! ### What becomes of a starved trial -/

/-- A trial that is never settled: it stays in the table without an outcome, no time finds it
    pending, and its cohort stays as it is. -/
structure NeverServed (ledger later : MechanismLedger) (trial : MechanismForwardTrial) : Prop where
  stored : trial ∈ later.trials
  isOpen : trial.trialId ∉ later.completed
  unread : ∀ now, trial ∉ later.pending now
  cohortOpen : later.hasOpenCohort trial.cohortKey = true
  trials : later.trials.filter (fun row => row.cohortKey = trial.cohortKey)
    = ledger.trials.filter (fun row => row.cohortKey = trial.cohortKey)
  outcomes : later.cohortOutcomes trial.cohortKey = ledger.cohortOutcomes trial.cohortKey

/-- A starved trial is never served by what comes after it. -/
theorem CohortsServed.neverServed {ledger later : MechanismLedger} (h : CohortsServed ledger)
    (hlater : ServedAfter ledger later) {trial : MechanismForwardTrial}
    (htrial : trial ∈ ledger.trials) (hstarved : ledger.Starved trial) :
    NeverServed ledger later trial := by
  obtain ⟨hserved, hextends⟩ := hlater
  have hstored := hextends.trials.subset htrial
  have hstarved' := (MechanismLedger.starved_of_longer hextends.trials htrial).mpr hstarved
  have hopen : trial.trialId ∉ later.completed := fun hdone =>
    hserved.fed trial hstored hdone hstarved'
  have htrials : later.trials.filter (fun row => row.cohortKey = trial.cohortKey)
      = ledger.trials.filter (fun row => row.cohortKey = trial.cohortKey) := by
    -- a further row of the cohort would come after the trial, which has no outcome
    obtain ⟨added, hadded⟩ := hextends.trials
    have hnone : added.filter (fun row => row.cohortKey = trial.cohortKey) = [] := by
      refine List.filter_eq_nil_iff.mpr (fun row hrow hsame => hopen ?_)
      have hserial := hserved.serial
      rw [← hadded] at hserial
      exact (List.pairwise_append.mp hserial).2.2 trial htrial row hrow
        (of_decide_eq_true hsame).symm
    rw [← hadded, List.filter_append, hnone, List.append_nil]
  refine ⟨hstored, hopen, fun now hnow => ?_,
    MechanismLedger.hasOpenCohort_iff.mpr ⟨trial, hstored, rfl, hopen⟩, htrials, ?_⟩
  · exact ((MechanismLedger.exists_mem_pending_iff hserved.idNodup hstored).mp ⟨now, hnow⟩).2
      hstarved'
  · obtain ⟨added, hadded⟩ := hextends.outcomes
    have hnone : added.filter (fun o => o.cohortKey = trial.cohortKey) = [] := by
      -- a further outcome of the cohort would be that of its open trial
      refine List.filter_eq_nil_iff.mpr (fun o ho hsame => hopen ?_)
      obtain ⟨row, hrow, hid, hcohort⟩ := hserved.known o (hadded ▸ List.mem_append_right _ ho)
      have hsame : row.cohortKey = trial.cohortKey := hcohort.trans (of_decide_eq_true hsame)
      have hrow' : row ∈ ledger.trials := by
        have hfilter : row ∈ later.trials.filter (fun row => row.cohortKey = trial.cohortKey) :=
          List.mem_filter.mpr ⟨hrow, decide_eq_true hsame⟩
        rw [htrials] at hfilter
        exact (List.mem_filter.mp hfilter).1
      have hnew : row.trialId ∉ ledger.completed := by
        have hnodup := hserved.completedNodup
        rw [MechanismLedger.completed, ← hadded, List.map_append] at hnodup
        rw [hid]
        exact fun hold => List.disjoint_of_nodup_append hnodup hold (List.mem_map_of_mem ho)
      have heq : row = trial := h.eq_of_open hrow' htrial hsame hnew
        (fun hdone => hopen (hextends.completed_subset hdone))
      rw [← heq, hid]
      exact List.mem_map_of_mem (hadded ▸ List.mem_append_right _ ho)
    rw [MechanismLedger.cohortOutcomes, MechanismLedger.cohortOutcomes, ← hadded,
      List.filter_append, hnone, List.append_nil]

/-- A cycle whose settlements do not raise gives each trial of the window that settles its
    outcome. -/
theorem mem_completed_runEvidenceCycle {R : MechanismRuntime} {S : MechanismService}
    {runIndex : ℕ} {input : MechanismInput} {ledger : MechanismLedger} {snapshot : ScanSnapshot}
    (hcollected : input.collected = .ok snapshot)
    (hsettles : Settles S input.evidence (ledger.pending snapshot.completedAt))
    {trial : MechanismForwardTrial} (htrial : trial ∈ ledger.pending snapshot.completedAt)
    (hsettled : (settledOutcome? S input.evidence trial).isSome = true) :
    trial.trialId ∈ ((runEvidenceCycle R S runIndex input).final ledger).completed := by
  rw [(runEvidenceCycle_final R runIndex hcollected hsettles).1]
  generalize hafter : afterSettlement S input.evidence (ledger.pending snapshot.completedAt)
    ledger = after
  have hdone : trial.trialId ∈ after.completed := by
    rw [← hafter, mem_completed_afterSettlement]
    exact Or.inr ⟨trial, htrial, hsettled, rfl⟩
  -- recording specs loses no outcome
  have hrecord : Spec (fun s => after.Extends s)
      (recordSpecs R S runIndex input 0 (S.discoverSpecs input snapshot))
      (Along.Keeps fun s => after.Extends s) (fun _ s => after.Extends s) :=
    spec_recordSpecs_from 0 (fun _ _ _ s hs _ => hs.trans (s.extends_commit _))
      (fun _ _ _ _ _ s hs _ => hs.trans (s.extends_commit _))
  have hextends := leaves_invariant
    (fun n => (hrecord.guarantee after (.refl after)).keeps (.refl after) n) none
  exact MechanismLedger.Extends.completed_subset hextends hdone

/-! ### Every run -/

/-- What the window of pending trials means for a ledger and for a later one: which trials are
    attempted, which are never served, and when the window is used up. -/
structure PendingWindow (R : MechanismRuntime) (S : MechanismService) (world : MechanismWorld)
    (later : MechanismLedger) : Prop where
  oneOpen : ∀ trial ∈ world.ledger.trials, ∀ other ∈ world.ledger.trials,
    trial.cohortKey = other.cohortKey → trial.trialId ∉ world.ledger.completed →
      other.trialId ∉ world.ledger.completed → trial = other
  window : ∀ trial ∈ world.ledger.trials, ∀ now, trial ∈ world.ledger.pending now
    ↔ trial.dueAt ≤ now ∧ trial.trialId ∉ world.ledger.completed
      ∧ world.ledger.ahead trial now < MechanismLedger.pendingLimit
  attempted : ∀ input snapshot, input.collected = .ok snapshot →
    Settles S input.evidence (world.ledger.pending snapshot.completedAt) →
    ∀ trial ∈ world.ledger.pending snapshot.completedAt,
      (settledOutcome? S input.evidence trial).isSome = true →
        trial.trialId
          ∈ ((runEvidenceCycle R S world.started input).final world.ledger).completed
  starved : ∀ trial ∈ world.ledger.trials, world.ledger.Starved trial →
    NeverServed world.ledger later trial
  usedUp : ∀ due, MechanismLedger.pendingLimit
      ≤ world.ledger.trials.countP (fun row => row.dueAt ≤ due) →
    ∀ trial ∈ later.trials, trial ∉ world.ledger.trials → due ≤ trial.dueAt →
      trial.trialId ∉ later.completed

/-- **The pending window over whole runs.** After any cycles, each cut off anywhere, a cohort has
    at most one open trial; a due open trial is attempted exactly when fewer than a thousand due
    rows stand before it; a starved trial never gets an outcome and its cohort never changes again;
    and once a thousand rows are due, no trial that is recorded later and due no earlier is ever
    settled. -/
theorem pendingWindow_of_run (R : MechanismRuntime) (S : MechanismService)
    (schedule further : List CycleAction) :
    PendingWindow R S (run (cycleStep (runEvidenceCycle R S)) .initial schedule)
      (run (cycleStep (runEvidenceCycle R S)) .initial (schedule ++ further)).ledger := by
  -- what every run keeps: at most one open trial of a cohort, and distinct ids
  have hserved : CohortsServed
      (run (cycleStep (runEvidenceCycle R S)) .initial schedule).ledger :=
    (ServedAfter.run CohortsServed.initial schedule).1
  rw [run_append]
  generalize run (cycleStep (runEvidenceCycle R S)) .initial schedule = world at hserved ⊢
  have hlater : ServedAfter world.ledger
      (run (cycleStep (runEvidenceCycle R S)) world further).ledger := ServedAfter.run hserved further
  generalize (run (cycleStep (runEvidenceCycle R S)) world further).ledger = later at hlater ⊢
  refine ⟨fun trial htrial other hother => hserved.eq_of_open htrial hother,
    fun trial htrial => MechanismLedger.mem_pending_iff hserved.idNodup htrial,
    fun input snapshot hcollected hsettles trial htrial hsettled =>
      mem_completed_runEvidenceCycle hcollected hsettles htrial hsettled,
    fun trial htrial => hserved.neverServed hlater htrial, ?_⟩
  -- once so many rows are due, a new trial due no earlier has as many before it
  intro due hfull trial htrial hnew hdue hdone
  refine hlater.1.fed trial htrial hdone ?_
  have hids : ∀ row ∈ world.ledger.trials, row.trialId ≠ trial.trialId := by
    intro row hrow hid
    exact hnew (List.inj_on_of_nodup_map hlater.1.idNodup (hlater.2.trials.subset hrow) htrial hid
      ▸ hrow)
  calc MechanismLedger.pendingLimit
      ≤ world.ledger.trials.countP (fun row => row.dueAt ≤ due) := hfull
    _ ≤ later.ahead trial due := MechanismLedger.countP_le_ahead hlater.2.trials hids due
    _ ≤ later.ahead trial trial.dueAt := MechanismLedger.ahead_mono hdue

end InefficiencyEngine.Mechanism
