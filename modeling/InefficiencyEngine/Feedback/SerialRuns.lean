import InefficiencyEngine.Feedback.Settlements

namespace InefficiencyEngine.Feedback

open Portfolio

/-!
# Settlement runs that follow one another

A certification run drops the trials that were completed when it began, and of the pending trials
each comes up once.  These two filters keep it from settling a trial twice as long as no other run
is under way and none ended between an event and its outcome.  A portfolio cycle has no filter: it
settles every position that is open and due, also one whose trial the certification service has
settled.

`Serial` states this as a condition on the steps of a run, and under it every trial is counted once
(`countsOnce_of_serial`).
-/

/-! ### The condition and the invariant -/

/-- A run starts when no other is under way and ends when it holds no outcome, and a portfolio cycle
    settles no position whose trial has an outcome. -/
def Serial (s : FeedbackState) : FeedbackAction → Prop
  | .run i (.collect _) => ∀ j ≠ i, s.settlers j = .idle
  | .run i (.startCycle _) => ∀ j ≠ i, s.settlers j = .idle
  | .run i .stop => (s.settlers i).outcome? = none
  | .run i (.settle _) => ∀ snapshot position trial rest,
    s.settlers i = .accounting snapshot ((position, trial) :: rest) →
    s.certification.outcome? trial.trialId = none
  | _ => True

/-- The trials that a certification run still has before it are different and have no outcome, and
    the one it has just settled is none of them. -/
def Settler.Fresh (certification : CertificationStore) : Settler → Prop
  | .collected _ completed => ∀ outcome ∈ certification.outcomes, outcome.trialId ∈ completed
  | .settling _ pending => (pending.map PaperAllocationTrial.trialId).Nodup
    ∧ ∀ trial ∈ pending, certification.outcome? trial.trialId = none
  | .settled _ outcome pending =>
    (outcome.trialId :: pending.map PaperAllocationTrial.trialId).Nodup
    ∧ ∀ trial ∈ pending, certification.outcome? trial.trialId = none
  | _ => True

/-- A trial has an outcome, or a run is about to record one. -/
def FeedbackState.Decided (s : FeedbackState) (trialId : Uuid) : Prop :=
  s.certification.outcome? trialId ≠ none
    ∨ ∃ i outcome, (s.settlers i).outcome? = some outcome ∧ outcome.trialId = trialId

/-- One run at a time, and no event without an outcome. -/
structure SerialSound (s : FeedbackState) : Prop where
  distinct : (s.certification.trials.map PaperAllocationTrial.trialId).Nodup
  alone : ∀ i j, i ≠ j → s.settlers i = .idle ∨ s.settlers j = .idle
  fresh : ∀ i, (s.settlers i).Fresh s.certification
  decided : ∀ row ∈ s.history, ∀ trialId, row.trialId? = some trialId → s.Decided trialId

variable {R : FeedbackRuntime} {s : FeedbackState} {settler : Settler}

/-! ### What a step of a run does -/

/-- The outcome of one trial is not that of another. -/
theorem outcome?_commit_of_ne {certification : CertificationStore} {trialId : Uuid}
    {outcome : PaperAllocationOutcome} (h : outcome.trialId ≠ trialId) :
    (certification.commit (.outcome outcome)).outcome? trialId = certification.outcome? trialId := by
  rw [CertificationStore.commit]
  split
  · rfl
  · show List.find? _ (certification.outcomes ++ [outcome]) = _
    rw [List.find?_append, List.find?_singleton, if_neg (by simpa using h), Option.or_none]
    rfl

/-- A trial whose outcome is recorded has one. -/
theorem outcome?_commit_self (certification : CertificationStore)
    (outcome : PaperAllocationOutcome) :
    (certification.commit (.outcome outcome)).outcome? outcome.trialId ≠ none := by
  cases h : certification.outcome? outcome.trialId with
  | some stored => simp [CertificationStore.outcome?_commit h]
  | none => simp [CertificationStore.outcome?_commit_outcome h]

/-- The certification tables after a write of a run. -/
theorem certification_commitOption (s : FeedbackState) (write : Option FeedbackWrite) :
    (s.commitOption write).certification = s.certification
      ∨ ∃ outcome, write = some (.outcome outcome)
        ∧ (s.commitOption write).certification = s.certification.commit (.outcome outcome) := by
  cases write with
  | none => exact Or.inl rfl
  | some write =>
    cases write with
    | event row => exact Or.inl rfl
    | outcome outcome => exact Or.inr ⟨outcome, rfl, rfl⟩
    | close position => exact Or.inl rfl

/-- After the next pending trial was settled, or left pending. -/
theorem fresh_settleNext {input : SettlementInput} {trial : PaperAllocationTrial}
    {pending : List PaperAllocationTrial} {snapshot : ScanSnapshot}
    (h : (Settler.settling snapshot (trial :: pending)).Fresh s.certification) :
    (settleNext R s input trial snapshot (.settling snapshot pending)
        (fun outcome => .settled snapshot outcome pending)).1.Fresh
      (s.commitOption (settleNext R s input trial snapshot (.settling snapshot pending)
        (fun outcome => .settled snapshot outcome pending)).2).certification := by
  obtain ⟨hdistinct, hnone⟩ := h
  have hrest : ∀ other ∈ pending, s.certification.outcome? other.trialId = none :=
    fun other hother => hnone other (List.mem_cons_of_mem _ hother)
  unfold settleNext
  split
  · trivial
  · exact ⟨(List.nodup_cons.mp hdistinct).2, hrest⟩
  · rename_i outcome houtcome
    refine ⟨?_, hrest⟩
    rw [(laneOutcome_ids houtcome).1]
    exact hdistinct

/-- A step of a run keeps its trials fresh. -/
theorem fresh_step (hdistinct : (s.certification.trials.map PaperAllocationTrial.trialId).Nodup)
    (h : settler.Fresh s.certification) (action : SettlerAction) :
    (settler.step R s action).1.Fresh
      (s.commitOption (settler.step R s action).2).certification := by
  unfold Settler.step
  split
  · -- the completed trials are read
    exact fun outcome houtcome => List.mem_map_of_mem houtcome
  · -- the pending trials are read, without the completed ones
    rename_i snapshot completed
    refine ⟨?_, fun trial htrial => List.find?_eq_none.mpr (fun outcome houtcome => ?_)⟩
    · refine hdistinct.sublist (List.Sublist.map _ ?_)
      exact (List.filter_sublist).trans List.filter_sublist
    · have hopen : trial.trialId ∉ completed := by simpa using (List.mem_filter.mp htrial).2
      simp only [decide_eq_true_eq]
      exact fun heq => hopen (heq ▸ h outcome houtcome)
  · exact fresh_settleNext h
  · -- the outcome is recorded, which is of none of the pending trials
    rename_i snapshot outcome pending
    obtain ⟨hnot, hpending⟩ := List.nodup_cons.mp h.1
    refine ⟨hpending, fun trial htrial => ?_⟩
    show (s.certification.commit (.outcome outcome)).outcome? trial.trialId = none
    rw [outcome?_commit_of_ne (fun heq => hnot (heq ▸ List.mem_map_of_mem htrial))]
    exact h.2 trial htrial
  · trivial
  · split
    · unfold settleNext
      split <;> trivial
    · trivial
  · trivial
  · trivial
  · trivial
  · trivial
  · exact h

/-- The trial of an event is the next one of its run, which holds no outcome. -/
theorem trial_of_event {action : SettlerAction} {row : LaneOutcome}
    (h : (settler.step R s action).2 = some (.event row)) :
    ∃ input trial, action = .settle input ∧ row.trialId? = some trial.trialId
      ∧ settler.outcome? = none ∧ ((∃ snapshot pending, settler = .settling snapshot (trial :: pending))
        ∨ ∃ snapshot position rest, settler = .accounting snapshot ((position, trial) :: rest)) := by
  -- an event is built from the trial it settles, whatever the settler does next
  have hnext : ∀ {input : SettlementInput} {trial : PaperAllocationTrial} {snapshot : ScanSnapshot}
      {next : Settler} {held : PaperAllocationOutcome → Settler},
      (settleNext R s input trial snapshot next held).2 = some (.event row) →
      row.trialId? = some trial.trialId := by
    -- the trial raised, settled to nothing, or settled to an outcome that has its event
    intro input trial snapshot next held hevent
    unfold settleNext at hevent
    split at hevent
    · cases hevent
    · cases hevent
    · cases hevent
      rfl
  -- only a run between two trials builds an event
  unfold Settler.step at h
  split at h
  · cases h
  · cases h
  · exact ⟨_, _, rfl, hnext h, rfl, Or.inl ⟨_, _, rfl⟩⟩
  · cases h
  · cases h
  · split at h
    · exact ⟨_, _, rfl, hnext h, rfl, Or.inr ⟨_, _, _, rfl⟩⟩
    · cases h
  · cases h
  · cases h
  · cases h
  · cases h
  · cases h

/-- An outcome that a run held it holds, or it has recorded it, unless it ended. -/
theorem held_step {action : SettlerAction} {outcome : PaperAllocationOutcome}
    (hheld : settler.outcome? = some outcome) (hstop : action ≠ .stop) :
    (settler.step R s action).1.outcome? = some outcome
      ∨ (settler.step R s action).2 = some (.outcome outcome) := by
  unfold Settler.step
  split
  · cases hheld
  · cases hheld
  · cases hheld
  · exact Or.inr (congrArg (fun o => some (FeedbackWrite.outcome o)) (Option.some.inj hheld))
  · cases hheld
  · cases hheld
  · cases hheld
  · exact Or.inr (congrArg (fun o => some (FeedbackWrite.outcome o)) (Option.some.inj hheld))
  · cases hheld
  · exact absurd rfl hstop
  · exact Or.inl hheld

/-! ### What it leaves of the rest -/

theorem settlers_run_self (i : ℕ) (action : SettlerAction) :
    (s.step R (.run i action)).settlers i = ((s.settlers i).step R s action).1 :=
  Function.update_self _ _ _

theorem settlers_run_of_ne {i j : ℕ} (h : j ≠ i) (action : SettlerAction) :
    (s.step R (.run i action)).settlers j = s.settlers j :=
  Function.update_of_ne h _ _

theorem certification_run (i : ℕ) (action : SettlerAction) :
    (s.step R (.run i action)).certification
      = (s.commitOption ((s.settlers i).step R s action).2).certification := by
  rw [FeedbackSound.step_run]
  generalize ((s.settlers i).step R s action).2 = write
  cases write with
  | none => rfl
  | some write => cases write <;> rfl

/-- A row of the history was there before, or it is the event of the step. -/
theorem mem_history_run {i : ℕ} {action : SettlerAction} {row : LaneOutcome}
    (h : row ∈ (s.step R (.run i action)).history) :
    row ∈ s.history ∨ ((s.settlers i).step R s action).2 = some (.event row) := by
  rw [FeedbackSound.step_run] at h
  generalize ((s.settlers i).step R s action).2 = write at h
  cases write with
  | none => exact Or.inl h
  | some write =>
    cases write with
    | outcome outcome => exact Or.inl h
    | close position => exact Or.inl h
    | event event =>
      have hmem : row ∈ recordEvent s.history event := h
      unfold recordEvent at hmem
      split at hmem
      · exact Or.inl hmem
      · rcases List.mem_append.mp hmem with hold | hnew
        · exact Or.inl hold
        · rw [List.mem_singleton.mp hnew]
          exact Or.inr rfl

namespace SerialSound

/-! ### Steps and runs -/

theorem start : SerialSound .start where
  distinct := List.nodup_nil
  alone _ _ _ := Or.inl rfl
  fresh _ := trivial
  decided row hrow := by cases hrow

/-- **The filters work.** An event is recorded only of a trial without one. -/
theorem firstSettlement (h : SerialSound s) {action : FeedbackAction} (hserial : Serial s action) :
    FirstSettlement R s action := by
  intro row hwrite r hr heq
  cases action with
  | recordTrial trial => cases hwrite
  | openPosition position trial => cases hwrite
  | recordMechanism trialId row => cases hwrite
  | run i action =>
    obtain ⟨input, trial, rfl, htrial, hholds, hnext⟩ := trial_of_event hwrite
    have hopen : s.certification.outcome? trial.trialId = none := by
      rcases hnext with ⟨snapshot, pending, hsettling⟩ | ⟨snapshot, position, rest, haccounting⟩
      · have hfresh := h.fresh i
        rw [hsettling] at hfresh
        exact hfresh.2 trial List.mem_cons_self
      · exact hserial snapshot position trial rest haccounting
    have hbusy : s.settlers i ≠ .idle := by
      rcases hnext with ⟨snapshot, pending, hsettling⟩ | ⟨snapshot, position, rest, haccounting⟩
      · simp [hsettling]
      · simp [haccounting]
    rcases h.decided r hr trial.trialId (heq.trans htrial) with hstored | ⟨j, outcome, hheld, -⟩
    · exact hstored hopen
    · -- a run that held the outcome would be another one under way
      by_cases hij : i = j
      · rw [← hij, hholds] at hheld
        cases hheld
      · rcases h.alone i j hij with hidle | hidle
        · exact hbusy hidle
        · rw [hidle] at hheld
          cases hheld

/-- A decided trial stays decided when a run makes a step. -/
theorem decided_run {i : ℕ} {action : SettlerAction} (hserial : Serial s (.run i action))
    {trialId : Uuid} (h : s.Decided trialId) : (s.step R (.run i action)).Decided trialId := by
  rcases h with hdecided | ⟨j, outcome, hheld, htrial⟩
  · obtain ⟨outcome, houtcome⟩ := Option.ne_none_iff_exists'.mp hdecided
    left
    rw [certification_run]
    rcases certification_commitOption s ((s.settlers i).step R s action).2 with
      hsame | ⟨outcome', -, hcommit⟩
    · rw [hsame]
      exact hdecided
    · simp [hcommit, CertificationStore.outcome?_commit houtcome]
  · by_cases hij : j = i
    · subst hij
      have hstop : action ≠ .stop := by
        rintro rfl
        rw [show (s.settlers j).outcome? = none from hserial] at hheld
        cases hheld
      rcases held_step (R := R) (s := s) hheld hstop with hstill | hwrite
      · exact Or.inr ⟨j, outcome, by rw [settlers_run_self, hstill], htrial⟩
      · left
        rw [certification_run, hwrite, ← htrial]
        exact outcome?_commit_self s.certification outcome
    · exact Or.inr ⟨j, outcome, by rw [settlers_run_of_ne hij, hheld], htrial⟩

/-- A run that records an event holds the outcome of its trial then. -/
theorem decided_event {i : ℕ} {action : SettlerAction} {row : LaneOutcome}
    (hwrite : ((s.settlers i).step R s action).2 = some (.event row)) {trialId : Uuid}
    (htrial : row.trialId? = some trialId) : (s.step R (.run i action)).Decided trialId := by
  have hstep := settler_step R s (s.settlers i) action
  rw [hwrite] at hstep
  cases hstep with
  | quiet hquiet _ =>
    rcases hquiet with hnone | ⟨position, hclose⟩
    · cases hnone
    · cases hclose
  | event regime trial outcome hsame hid hheld =>
    exact Or.inr ⟨i, outcome, by rw [settlers_run_self, hheld],
      hsame.trans (Option.some.inj htrial)⟩

/-- Runs are under way one at a time. -/
theorem alone_run (h : SerialSound s) {i : ℕ} {action : SettlerAction}
    (hserial : Serial s (.run i action)) {j : ℕ} (hj : j ≠ i) :
    (s.step R (.run i action)).settlers i = .idle ∨ (s.step R (.run i action)).settlers j = .idle := by
  rw [settlers_run_self, settlers_run_of_ne hj]
  rcases h.alone j i hj with hidle | hidle
  · exact Or.inr hidle
  · rw [hidle]
    cases action with
    | collect snapshot => exact Or.inr (hserial j hj)
    | startCycle snapshot => exact Or.inr (hserial j hj)
    | readPending => exact Or.inl rfl
    | settle input => exact Or.inl rfl
    | pass => exact Or.inl rfl
    | write => exact Or.inl rfl
    | stop => exact Or.inl rfl

/-- The trials of the other runs stay fresh: where an outcome is recorded, there are none. -/
theorem fresh_run_of_ne (h : SerialSound s) {i j : ℕ} (hj : j ≠ i) (action : SettlerAction) :
    (s.settlers j).Fresh (s.step R (.run i action)).certification := by
  rw [certification_run]
  rcases certification_commitOption s ((s.settlers i).step R s action).2 with
    hsame | ⟨outcome, hwrite, -⟩
  · rw [hsame]
    exact h.fresh j
  · have hstep := settler_step R s (s.settlers i) action
    rw [hwrite] at hstep
    cases hstep with
    | quiet hquiet _ =>
      rcases hquiet with hnone | ⟨position, hclose⟩
      · cases hnone
      · cases hclose
    | outcome _ hheld _ =>
      rcases h.alone j i hj with hidle | hidle
      · rw [hidle]
        trivial
      · rw [hidle] at hheld
        cases hheld

/-- A step of a run. Only the run that steps changes, and it is the only one that is between an
    event and its outcome. -/
theorem step_run (h : SerialSound s) {i : ℕ} {action : SettlerAction}
    (hserial : Serial s (.run i action)) : SerialSound (s.step R (.run i action)) := by
  constructor
  -- the store keeps the trials apart, whatever the step writes
  case distinct =>
    rw [certification_run]
    rcases certification_commitOption s ((s.settlers i).step R s action).2 with
      hsame | ⟨outcome, -, hcommit⟩
    · rw [hsame]
      exact h.distinct
    · rw [hcommit, CertificationStore.commit]
      split <;> exact h.distinct
  -- two runs are never both between an event and its outcome
  case alone =>
    intro a b hab
    by_cases ha : a = i
    · subst ha
      exact h.alone_run hserial (Ne.symm hab)
    · by_cases hb : b = i
      · subst hb
        exact (h.alone_run hserial ha).symm
      · rw [settlers_run_of_ne ha, settlers_run_of_ne hb]
        exact h.alone a b hab
  -- what a run is about to settle has no event yet
  case fresh =>
    intro j
    by_cases hj : j = i
    · subst hj
      rw [settlers_run_self, certification_run]
      exact fresh_step h.distinct (h.fresh j) action
    · rw [settlers_run_of_ne hj]
      exact h.fresh_run_of_ne hj action
  -- every event belongs to a trial that is settled or held
  case decided =>
    intro row hrow trialId htrial
    rcases mem_history_run hrow with hold | hevent
    · exact decided_run hserial (h.decided row hold trialId htrial)
    · exact decided_event hevent htrial

/-- **Step.** One run at a time goes on, and the trial of each event it has written stays
    decided. -/
theorem step (h : SerialSound s) {action : FeedbackAction} (hserial : Serial s action) :
    SerialSound (s.step R action) := by
  cases action with
  | run i action => exact h.step_run hserial
  | openPosition position trial => exact ⟨h.distinct, h.alone, h.fresh, h.decided⟩
  | recordTrial trial =>
    have houtcomes := FeedbackSound.outcomes_commit_trial s.certification trial
    refine ⟨?_, h.alone, fun i => ?_, fun row hrow trialId htrial => ?_⟩
    · show ((s.certification.commit (.trial trial)).trials.map PaperAllocationTrial.trialId).Nodup
      rw [CertificationStore.commit]
      split
      · exact h.distinct
      · rename_i hnew
        rw [List.map_append, List.nodup_append]
        refine ⟨h.distinct, List.nodup_singleton _, ?_⟩
        rintro _ hx _ hy rfl
        obtain ⟨stored, hstored, heq⟩ := List.mem_map.mp hx
        rw [List.map_singleton, List.mem_singleton] at hy
        exact hnew (List.any_eq_true.mpr ⟨stored, hstored, decide_eq_true (heq.trans hy)⟩)
    · have hfresh := h.fresh i
      show (s.settlers i).Fresh (s.certification.commit (.trial trial))
      cases hsettler : s.settlers i <;> rw [hsettler] at hfresh
      all_goals
        simp only [Settler.Fresh, CertificationStore.outcome?, houtcomes] at hfresh ⊢
        try exact hfresh
    · rcases h.decided row hrow trialId htrial with hstored | hheld
      · refine Or.inl ?_
        show (s.certification.commit (.trial trial)).outcome? trialId ≠ none
        rw [CertificationStore.outcome?, houtcomes]
        exact hstored
      · exact Or.inr hheld
  | recordMechanism trialId row =>
    refine ⟨h.distinct, h.alone, h.fresh, fun r hr id hid => ?_⟩
    have hmem : r ∈ recordEvent s.history
        { row with outcomeKey := .mechanism trialId, trialId? := none } := hr
    unfold recordEvent at hmem
    split at hmem
    · exact h.decided r hmem id hid
    · rcases List.mem_append.mp hmem with hold | hnew
      · exact h.decided r hold id hid
      · -- the event of a mechanism trial is about no allocation trial
        rw [List.mem_singleton.mp hnew] at hid
        cases hid

end SerialSound

/-- **Counted once without interruptions.** If the runs follow one another, none ends between an
    event and its outcome, and no portfolio cycle settles a position whose trial has an outcome,
    then no trial is settled twice. -/
theorem firstSettlement_of_serial (R : FeedbackRuntime) {schedule : List FeedbackAction}
    (h : Meets (FeedbackState.step R) Serial .start schedule) :
    Meets (FeedbackState.step R) (FirstSettlement R) .start schedule :=
  h.imp (I := SerialSound) (fun _ _ hs hserial => hs.step hserial)
    (fun _ _ hs hserial => hs.firstSettlement hserial) SerialSound.start

/-- The history counts every trial of such a run once, with its recorded result. -/
theorem countsOnce_of_serial (R : FeedbackRuntime) {schedule : List FeedbackAction}
    (h : Meets (FeedbackState.step R) Serial .start schedule) :
    CountsOnce R (run (FeedbackState.step R) .start schedule) :=
  (run_invariant (I := FeedbackSound R) (fun _ _ hs hfirst => hs.step hfirst) FeedbackSound.start
    (firstSettlement_of_serial R h)).countsOnce

/-! ### Three trials -/

/-- A run settles the next trial or position at the stored evidence. -/
def settleNormal : SettlerAction := .settle ⟨⟨[], []⟩, [], none, "normal"⟩

/-- A certification run that settles two trials and ends. -/
def certifyingRun : List FeedbackAction :=
  [.recordTrial spotLongTrial, .recordTrial { spotLongTrial with trialId := 1 },
    .run 0 (.collect (snapshotAt 110)), .run 0 .readPending, .run 0 settleNormal, .run 0 .write,
    .run 0 settleNormal, .run 0 .write, .run 0 .stop]

/-- A portfolio cycle that closes the position of a third trial. -/
def closingCycle : List FeedbackAction :=
  [.openPosition 7 { spotLongTrial with trialId := 2 }, .run 0 (.startCycle (snapshotAt 120)),
    .run 0 settleNormal, .run 0 .write, .run 0 .write]

theorem serial_certifyingRun : Meets (FeedbackState.step .sample) Serial .start certifyingRun :=
  ⟨trivial, trivial, fun _ _ => rfl, trivial, fun _ _ _ _ h => (by cases h), trivial,
    fun _ _ _ _ h => (by cases h), trivial, rfl, trivial⟩

/-- Only the run with number 0 is ever under way. -/
theorem idle_certifyingRun {j : ℕ} (hj : j ≠ 0) :
    (run (FeedbackState.step .sample) .start certifyingRun).settlers j = .idle := by
  have hzero : Meets (FeedbackState.step .sample)
      (fun _ action => ∀ i step, action = FeedbackAction.run i step → i = 0) .start certifyingRun := by
    refine Meets.of_mem (fun action haction _ i step heq => ?_)
    simp only [heq, certifyingRun, List.mem_cons, FeedbackAction.run.injEq, reduceCtorEq, false_or,
      List.not_mem_nil, or_false] at haction
    omega
  refine run_invariant (I := fun s : FeedbackState => s.settlers j = .idle) ?_ rfl hzero
  intro s action hs haction
  cases action with
  | run i step =>
    obtain rfl := haction i step rfl
    rw [settlers_run_of_ne hj]
    exact hs
  | recordTrial trial => exact hs
  | openPosition position trial => exact hs
  | recordMechanism trialId row => exact hs

theorem serial_closingCycle : Meets (FeedbackState.step .sample) Serial
    (run (FeedbackState.step .sample) .start certifyingRun) closingCycle := by
  refine ⟨trivial, fun j hj => idle_certifyingRun hj, fun snapshot position trial rest h => ?_,
    trivial, trivial, trivial⟩
  cases h
  rfl

/-- Two trials that a certification run settles and one whose position the portfolio closes are
    counted once each. -/
theorem countsOnce_threeTrials :
    CountsOnce .sample (run (FeedbackState.step .sample) .start (certifyingRun ++ closingCycle))
      ∧ (run (FeedbackState.step .sample) .start (certifyingRun ++ closingCycle)).history.filterMap
        LaneOutcome.trialId? = [0, 1, 2] :=
  ⟨countsOnce_of_run _ _ (firstSettlement_of_serial _
    (Meets.append.mpr ⟨serial_certifyingRun, serial_closingCycle⟩)), by rfl⟩

end InefficiencyEngine.Feedback
