import InefficiencyEngine.Feedback.LaneSuccess
import InefficiencyEngine.Lib.Machine
import InefficiencyEngine.Portfolio.Certification
import InefficiencyEngine.Portfolio.Sample

namespace InefficiencyEngine.Feedback

open Portfolio

/-!
# Settlements and their feedback

The certification service and the canonical portfolio both settle trials through
`LaneSuccessAllocationForwardCertificationService._settle_trial`, over one store.  A settlement
that yields an outcome appends its outcome event at once, under the id of the outcome it has just
made; only then does the caller record the outcome, which the ledger keeps for a trial without
one, and the portfolio close the position.  Any number of either kind of run may be under way; a
run may end between any two of its writes.

If no trial is settled twice, the history counts every trial once, with its recorded result
(`countsOnce_of_run`).  Nothing in the code sees to that: the event is not keyed by the trial.

The portfolio ledger is represented by the positions it leaves open whose opening embeds a trial,
and the half of either run that records new trials and opens positions by single actions.
-/

/-! ### A settlement -/

/-- `CEX_DEX_SETTLEMENT_METHOD`. -/
def cexDexSettlementMethod : String := "verified_amount_specific_cex_dex_composite_capture"

/-- The methods that the lanes' own settlement contracts take over. -/
def isNativeMethod (method : Option String) : Bool :=
  method.any (fun text => "mechanism:".toList <+: text.toList || text = cexDexSettlementMethod)

/-- What `_settle_mechanism` or `_settle_cex_dex` makes an outcome from. -/
structure NativeSettlement where
  family : String
  maturedAt : Instant
  grossReturn : ℚ
  netReturn : ℚ
  profitUsd : ℚ
  settlementMethod : String

/-- The outcome of a native settlement. -/
def nativeOutcome (outcomeId : Uuid) (trial : PaperAllocationTrial) (native : NativeSettlement) :
    PaperAllocationOutcome where
  outcomeId := outcomeId
  trialId := trial.trialId
  candidateId := trial.candidateId
  family := native.family
  strategy := trial.strategy
  asset := trial.asset
  maturedAt := native.maturedAt
  dueAt := trial.dueAt.getD native.maturedAt
  entryReferencePrice := none
  exitReferencePrice := none
  realizedGrossReturn := native.grossReturn
  realizedNetReturn := native.netReturn
  realizedProfitUsd := native.profitUsd
  realizedPricePnlUsd := none
  realizedFundingPnlUsd := 0
  modeledNonSlippageCostUsd := 0
  legOutcomes := []
  predictedProfitUsd := trial.predictedProfitUsd
  predictionErrorUsd := native.profitUsd - trial.predictedProfitUsd
  profitCaptureRatio := profitCapture native.profitUsd trial.predictedProfitUsd
  profitable := 0 < native.profitUsd
  settlementMethod := native.settlementMethod

/-- What a settlement obtains from outside the tables it shares. -/
structure SettlementInput where
  /-- The observations stored when the trial is settled. -/
  evidence : Evidence
  /-- The books the portfolio fetched for the position. -/
  books : List OrderBookSnapshot
  /-- What the lane's own contract returned, for a method it takes over. -/
  native : Option NativeSettlement
  /-- `market_regime`. -/
  regime : String

/-- `super()._settle_trial`. The method of the trial decides between a native settlement and
    that of the certification. -/
def laneOutcome (R : FeedbackRuntime) (input : SettlementInput) (outcomeId : Uuid)
    (trial : PaperAllocationTrial) (snapshot : ScanSnapshot) :
    Except Raised (Option PaperAllocationOutcome) :=
  if isNativeMethod trial.settlementMethod then
    .ok (input.native.map (nativeOutcome outcomeId trial))
  else settleTrial R.upper input.evidence outcomeId trial snapshot

/-! ### The runs -/

/-- Where a run of either service is. -/
inductive Settler
  | idle
  /-- A certification run has a snapshot and has read the completed trials. -/
  | collected (snapshot : ScanSnapshot) (completed : List Uuid)
  /-- It settles the pending trials. -/
  | settling (snapshot : ScanSnapshot) (pending : List PaperAllocationTrial)
  /-- It has recorded the event of an outcome, and records the outcome next. -/
  | settled (snapshot : ScanSnapshot) (outcome : PaperAllocationOutcome)
      (pending : List PaperAllocationTrial)
  /-- A portfolio cycle goes through the positions it found open. -/
  | accounting (snapshot : ScanSnapshot) (positions : List (Uuid × PaperAllocationTrial))
  /-- It has recorded the event of an outcome, and records the outcome next. -/
  | accounted (snapshot : ScanSnapshot) (position : Uuid) (outcome : PaperAllocationOutcome)
      (positions : List (Uuid × PaperAllocationTrial))
  /-- It has recorded the outcome, and closes the position next. -/
  | closing (snapshot : ScanSnapshot) (position : Uuid)
      (positions : List (Uuid × PaperAllocationTrial))

/-- The outcome a run is about to record. -/
def Settler.outcome? : Settler → Option PaperAllocationOutcome
  | .settled _ outcome _ => some outcome
  | .accounted _ _ outcome _ => some outcome
  | _ => none

/-- A write to the shared tables. -/
inductive FeedbackWrite
  | event (row : LaneOutcome)
  | outcome (outcome : PaperAllocationOutcome)
  | close (position : Uuid)

/-- A step of a run. -/
inductive SettlerAction
  /-- A certification run starts on a collected snapshot. -/
  | collect (snapshot : ScanSnapshot)
  /-- It reads the pending trials. -/
  | readPending
  /-- A portfolio cycle starts and reads the open positions. -/
  | startCycle (snapshot : ScanSnapshot)
  /-- The next trial or position is settled. -/
  | settle (input : SettlementInput)
  /-- The next position is not settled: it is marked, or its evidence is missing. -/
  | pass
  /-- The run makes the write it is about to make. -/
  | write
  /-- The run ends, or it is cut off. -/
  | stop

/-- The tables, the steps taken so far, and the runs. -/
structure FeedbackState where
  certification : CertificationStore
  history : List LaneOutcome
  positions : List (Uuid × PaperAllocationTrial)
  steps : ℕ
  settlers : ℕ → Settler

/-- Before anything ran. -/
def FeedbackState.start : FeedbackState := ⟨⟨[], []⟩, [], [], 0, fun _ => .idle⟩

section Steps

variable (R : FeedbackRuntime)

/-- `_settle_trial` of the next trial: the event of its outcome is recorded, if it has one. -/
def settleNext (s : FeedbackState) (input : SettlementInput) (trial : PaperAllocationTrial)
    (snapshot : ScanSnapshot) (next : Settler) (held : PaperAllocationOutcome → Settler) :
    Settler × Option FeedbackWrite :=
  match laneOutcome R input (R.uuid4 s.steps (.outcome 0)) trial snapshot with
  | .error _ => (.idle, none)
  | .ok none => (next, none)
  | .ok (some outcome) =>
    (held outcome, some (.event (allocationEvent R input.regime trial outcome)))

/-- What a step of a run does: where the run is next, and the write it makes, if any. -/
def Settler.step (s : FeedbackState) (settler : Settler) (action : SettlerAction) :
    Settler × Option FeedbackWrite :=
  match settler, action with
  | .idle, .collect snapshot => (.collected snapshot s.certification.completedTrialIds, none)
  | .collected snapshot completed, .readPending =>
    (.settling snapshot ((s.certification.dueSupportedTrials snapshot.completedAt).filter
      (fun trial => trial.trialId ∉ completed)), none)
  | .settling snapshot (trial :: pending), .settle input =>
    settleNext R s input trial snapshot (.settling snapshot pending)
      (fun outcome => .settled snapshot outcome pending)
  | .settled snapshot outcome pending, .write =>
    (.settling snapshot pending, some (.outcome outcome))
  | .idle, .startCycle snapshot => (.accounting snapshot s.positions, none)
  | .accounting snapshot ((position, trial) :: positions), .settle input =>
    if trial.dueAt.any (fun dueAt => dueAt ≤ snapshot.completedAt) then
      settleNext R s input trial { snapshot with orderBooks := input.books }
        (.accounting snapshot positions)
        (fun outcome => .accounted snapshot position outcome positions)
    else (.accounting snapshot positions, none)
  | .accounting snapshot (_ :: positions), .pass => (.accounting snapshot positions, none)
  | .accounted snapshot position outcome positions, .write =>
    (.closing snapshot position positions, some (.outcome outcome))
  | .closing snapshot position positions, .write =>
    (.accounting snapshot positions, some (.close position))
  | _, .stop => (.idle, none)
  | settler, _ => (settler, none)

/-- The tables after a write. -/
def FeedbackState.commit (s : FeedbackState) : FeedbackWrite → FeedbackState
  | .event row => { s with history := recordEvent s.history row }
  | .outcome outcome => { s with certification := s.certification.commit (.outcome outcome) }
  | .close position => { s with positions := s.positions.filter (fun p => p.1 ≠ position) }

/-- The tables after a write, if there is one. -/
def FeedbackState.commitOption (s : FeedbackState) (write : Option FeedbackWrite) :
    FeedbackState :=
  write.elim s s.commit

/-- The actions of the system. -/
inductive FeedbackAction
  | run (i : ℕ) (action : SettlerAction)
  /-- Either service records a trial. -/
  | recordTrial (trial : PaperAllocationTrial)
  /-- The portfolio opens a position that embeds a trial. -/
  | openPosition (position : Uuid) (trial : PaperAllocationTrial)
  /-- The mechanism service records the outcome event of one of its own trials. -/
  | recordMechanism (trialId : String) (row : LaneOutcome)

/-- What an action does. -/
def FeedbackState.step (s : FeedbackState) (action : FeedbackAction) : FeedbackState :=
  let s' := { s with steps := s.steps + 1 }
  match action with
  | .run i action =>
    let result := (s.settlers i).step R s action
    { s'.commitOption result.2 with settlers := Function.update s.settlers i result.1 }
  | .recordTrial trial => { s' with certification := s.certification.commit (.trial trial) }
  | .openPosition position trial => { s' with positions := s.positions ++ [(position, trial)] }
  | .recordMechanism trialId row =>
    let row' := { row with outcomeKey := .mechanism trialId, trialId? := none }
    { s' with history := recordEvent s.history row' }

/-- The write an action makes in a run. -/
def FeedbackState.write? (s : FeedbackState) : FeedbackAction → Option FeedbackWrite
  | .run i action => ((s.settlers i).step R s action).2
  | _ => none

end Steps

/-! ### What is counted -/

/-- Two rows of the history are not about one allocation trial. -/
def LaneOutcome.Apart (a b : LaneOutcome) : Prop := a.trialId? = none ∨ a.trialId? ≠ b.trialId?

instance : DecidableRel LaneOutcome.Apart := fun _ _ => inferInstanceAs (Decidable (_ ∨ _))

/-- A row of the history with the numbers of the outcome that the ledger has for its trial. -/
def FeedbackState.withRecorded (s : FeedbackState) (row : LaneOutcome) : LaneOutcome :=
  match row.trialId?.bind s.certification.outcome? with
  | some outcome =>
    { row with
      realizedReturn := outcome.realizedNetReturn
      realizedProfitUsd := outcome.realizedProfitUsd }
  | none => row

/-- The distinct settled trials of the history, with their recorded results. -/
def FeedbackState.distinctSettled (s : FeedbackState) : List LaneOutcome :=
  (s.history.pwFilter LaneOutcome.Apart).map s.withRecorded

/-- The history has at most one outcome event of an allocation trial, with the recorded result,
    and the profiles are those of the distinct settled trials. -/
structure CountsOnce (R : FeedbackRuntime) (s : FeedbackState) : Prop where
  oneEvent : (s.history.filterMap LaneOutcome.trialId?).Nodup
  recorded : ∀ row ∈ s.history, ∀ outcome ∈ s.certification.outcomes,
    row.trialId? = some outcome.trialId → row.realizedReturn = outcome.realizedNetReturn
      ∧ row.realizedProfitUsd = outcome.realizedProfitUsd
  profiles : ∀ strategy regime, profile R.repr s.history strategy regime
    = profile R.repr s.distinctSettled strategy regime

/-- No earlier settlement has recorded an event of the trial whose event an action records. -/
def FirstSettlement (R : FeedbackRuntime) (s : FeedbackState) (action : FeedbackAction) : Prop :=
  ∀ row, s.write? R action = some (.event row) → ∀ r ∈ s.history, r.trialId? ≠ row.trialId?

instance : Std.Symm LaneOutcome.Apart where
  symm a b hab := by
    by_cases hb : b.trialId? = none
    · exact Or.inl hb
    · rcases hab with ha | hne
      · exact Or.inr (fun heq => hb (heq.trans ha))
      · exact Or.inr hne.symm

/-! ### The invariant -/

/-- A row of the history tells of an outcome. -/
structure LaneOutcome.Tells (row : LaneOutcome) (outcome : PaperAllocationOutcome) : Prop where
  trialId : row.trialId? = some outcome.trialId
  realizedReturn : row.realizedReturn = outcome.realizedNetReturn
  realizedProfitUsd : row.realizedProfitUsd = outcome.realizedProfitUsd

/-- Every outcome that is recorded or about to be is told of in the history, whose outcome ids
    were all drawn before. -/
structure FeedbackSound (R : FeedbackRuntime) (s : FeedbackState) : Prop where
  drawn : ∀ row ∈ s.history, ∀ outcomeId, row.outcomeKey = .allocation outcomeId →
    ∃ n < s.steps, outcomeId = R.uuid4 n (.outcome 0)
  told : ∀ outcome, outcome ∈ s.certification.outcomes
    ∨ (∃ i, (s.settlers i).outcome? = some outcome) → ∃ row ∈ s.history, row.Tells outcome
  once : (s.history.filterMap LaneOutcome.trialId?).Nodup

section Settle

variable {R : FeedbackRuntime}

/-- The outcome of a settlement has the id that was drawn for it. -/
theorem outcomeId_settleTrial {upper : String → String} {evidence : Evidence} {outcomeId : Uuid}
    {trial : PaperAllocationTrial} {snapshot : ScanSnapshot} {outcome : PaperAllocationOutcome}
    (h : settleTrial upper evidence outcomeId trial snapshot = .ok (some outcome)) :
    outcome.outcomeId = outcomeId := by
  unfold settleTrial at h
  split_ifs at h with hsupported hmulti hshort
  · cases h
  · unfold settleMultileg at h
    split at h
    · split_ifs at h with hlength
      · cases h
      split at h
      · cases h
      · obtain ⟨closed, -, hclosed⟩ := bind_eq_ok h
        obtain ⟨legs, -, rfl⟩ := Option.map_eq_some_iff.mp (Except.ok.inj hclosed)
        rfl
    · cases h
  · simp only [settlePerpShort, Option.bind_eq_bind, Option.bind_eq_some_iff, Option.pure_def,
      Option.some.injEq, Except.ok.injEq] at h
    obtain ⟨_, -, _, -, _, -, _, -, _, -, _, -, _, -, _, -, rfl⟩ := h
    rfl
  · simp only [settleSpotLong, Option.bind_eq_bind, Option.bind_eq_some_iff, Option.pure_def,
      Option.some.injEq, Except.ok.injEq] at h
    obtain ⟨_, -, _, -, _, -, _, -, rfl⟩ := h
    rfl

/-- The outcome of a settlement is of its trial, with the id that was drawn for it. -/
theorem laneOutcome_ids {input : SettlementInput} {outcomeId : Uuid}
    {trial : PaperAllocationTrial} {snapshot : ScanSnapshot} {outcome : PaperAllocationOutcome}
    (h : laneOutcome R input outcomeId trial snapshot = .ok (some outcome)) :
    outcome.trialId = trial.trialId ∧ outcome.outcomeId = outcomeId := by
  unfold laneOutcome at h
  split_ifs at h with hnative
  · obtain ⟨native, -, rfl⟩ := Option.map_eq_some_iff.mp (Except.ok.inj h)
    exact ⟨rfl, rfl⟩
  · obtain ⟨result, hresult, hids⟩ := settleTrial_total R.upper input.evidence outcomeId trial
      snapshot
    rw [hresult, Except.ok.injEq] at h
    exact ⟨hids outcome h, outcomeId_settleTrial (hresult.trans (congrArg Except.ok h))⟩

end Settle

/-- **Steps.** What a step of a run can write, and the outcome it is about to record then. -/
inductive SettlerStep (R : FeedbackRuntime) (s : FeedbackState) (settler : Settler) :
    Settler → Option FeedbackWrite → Prop
  /-- It records nothing that counts, and holds no outcome it did not hold. -/
  | quiet {settler' : Settler} {write : Option FeedbackWrite}
      (hwrite : write = none ∨ ∃ position, write = some (.close position))
      (hheld : ∀ outcome, settler'.outcome? = some outcome → settler.outcome? = some outcome) :
      SettlerStep R s settler settler' write
  /-- It records the event of an outcome it has just made. -/
  | event {settler' : Settler} (regime : String) (trial : PaperAllocationTrial)
      (outcome : PaperAllocationOutcome) (htrial : outcome.trialId = trial.trialId)
      (hid : outcome.outcomeId = R.uuid4 s.steps (.outcome 0))
      (hheld : settler'.outcome? = some outcome) :
      SettlerStep R s settler settler' (some (.event (allocationEvent R regime trial outcome)))
  /-- It records the outcome it held. -/
  | outcome {settler' : Settler} (outcome : PaperAllocationOutcome)
      (hheld : settler.outcome? = some outcome) (hnone : settler'.outcome? = none) :
      SettlerStep R s settler settler' (some (.outcome outcome))

theorem settleNext_step (R : FeedbackRuntime) (s : FeedbackState) (settler : Settler)
    (input : SettlementInput) (trial : PaperAllocationTrial) (snapshot : ScanSnapshot)
    {next : Settler} {held : PaperAllocationOutcome → Settler} (hnext : next.outcome? = none)
    (hheld : ∀ outcome, (held outcome).outcome? = some outcome) :
    SettlerStep R s settler (settleNext R s input trial snapshot next held).1
      (settleNext R s input trial snapshot next held).2 := by
  unfold settleNext
  split
  · exact .quiet (Or.inl rfl) (fun _ h => (by cases h))
  · exact .quiet (Or.inl rfl) (fun _ h => (by rw [hnext] at h; cases h))
  · rename_i outcome houtcome
    obtain ⟨htrial, hid⟩ := laneOutcome_ids houtcome
    exact .event input.regime trial outcome htrial hid (hheld outcome)

theorem settler_step (R : FeedbackRuntime) (s : FeedbackState) (settler : Settler)
    (action : SettlerAction) :
    SettlerStep R s settler (settler.step R s action).1 (settler.step R s action).2 := by
  have hnone : ∀ {settler' : Settler}, settler'.outcome? = none →
      SettlerStep R s settler settler' none := by
    intro settler' h
    exact .quiet (Or.inl rfl) (fun outcome hsome => (by rw [h] at hsome; cases hsome))
  unfold Settler.step
  split
  · exact hnone rfl
  · exact hnone rfl
  · exact settleNext_step R s _ _ _ _ rfl (fun _ => rfl)
  · exact .outcome _ rfl rfl
  · exact hnone rfl
  · split
    · exact settleNext_step R s _ _ _ _ rfl (fun _ => rfl)
    · exact hnone rfl
  · exact hnone rfl
  · exact .outcome _ rfl rfl
  · exact .quiet (Or.inr ⟨_, rfl⟩) (fun _ h => (by cases h))
  · exact hnone rfl
  · exact .quiet (Or.inl rfl) (fun _ h => h)

/-! ### Steps and runs -/

namespace FeedbackSound

variable {R : FeedbackRuntime} {s : FeedbackState}

theorem start : FeedbackSound R .start where
  drawn row hrow := by cases hrow
  told outcome h := by
    rcases h with h | ⟨i, h⟩
    · cases h
    · cases h
  once := List.nodup_nil

/-- An event under a key that is not in the history is appended. -/
theorem recordEvent_of_new {history : List LaneOutcome} {row : LaneOutcome}
    (h : ∀ r ∈ history, r.outcomeKey ≠ row.outcomeKey) :
    recordEvent history row = history ++ [row] := by
  refine if_neg ?_
  rw [List.any_eq_true]
  rintro ⟨r, hr, hkey⟩
  exact h r hr (of_decide_eq_true hkey)

/-- What the history held it holds, whatever is recorded. -/
theorem subset_recordEvent (history : List LaneOutcome) (row : LaneOutcome) :
    history ⊆ recordEvent history row := by
  unfold recordEvent
  split
  · exact List.Subset.refl _
  · exact List.subset_append_left _ _

/-- The outcomes of the runs after one of them has made a step. -/
theorem held_update {i : ℕ} {settler' : Settler} {outcome : PaperAllocationOutcome}
    (h : ∃ j, (Function.update s.settlers i settler' j).outcome? = some outcome) :
    settler'.outcome? = some outcome ∨ ∃ j, (s.settlers j).outcome? = some outcome := by
  obtain ⟨j, hj⟩ := h
  by_cases hij : j = i
  · subst hij
    rw [Function.update_self] at hj
    exact Or.inl hj
  · rw [Function.update_of_ne hij] at hj
    exact Or.inr ⟨j, hj⟩

/-- A recorded outcome was recorded before, or is the new one. -/
theorem mem_outcomes_commit {certification : CertificationStore}
    {outcome outcome' : PaperAllocationOutcome}
    (h : outcome ∈ (certification.commit (.outcome outcome')).outcomes) :
    outcome ∈ certification.outcomes ∨ outcome = outcome' := by
  rw [CertificationStore.commit] at h
  split at h
  · exact Or.inl h
  · rcases List.mem_append.mp h with h | h
    · exact Or.inl h
    · exact Or.inr (List.mem_singleton.mp h)

/-- Outcome ids that were drawn before were drawn before the next step as well. -/
theorem drawn_succ (h : FeedbackSound R s) : ∀ row ∈ s.history, ∀ outcomeId,
    row.outcomeKey = .allocation outcomeId → ∃ n < s.steps + 1, outcomeId = R.uuid4 n (.outcome 0) := by
  intro row hrow outcomeId hkey
  obtain ⟨n, hn, hid⟩ := h.drawn row hrow outcomeId hkey
  exact ⟨n, by omega, hid⟩

theorem outcomes_commit_trial (certification : CertificationStore) (trial : PaperAllocationTrial) :
    (certification.commit (.trial trial)).outcomes = certification.outcomes := by
  rw [CertificationStore.commit]
  split <;> rfl

/-- The event of a mechanism trial is about no allocation trial. -/
theorem recordMechanism (h : FeedbackSound R s) (trialId : String) (row : LaneOutcome) :
    FeedbackSound R (s.step R (.recordMechanism trialId row)) := by
  let row' : LaneOutcome := { row with outcomeKey := .mechanism trialId, trialId? := none }
  have hcases : recordEvent s.history row' = s.history
      ∨ recordEvent s.history row' = s.history ++ [row'] := by
    unfold recordEvent
    split
    · exact Or.inl rfl
    · exact Or.inr rfl
  refine ⟨fun r hr outcomeId hkey => ?_, fun outcome hout => ?_, ?_⟩
  · have hr : r ∈ recordEvent s.history row' := hr
    rcases hcases with hsame | happend
    · exact h.drawn_succ r (hsame ▸ hr) outcomeId hkey
    · rw [happend] at hr
      rcases List.mem_append.mp hr with hr | hr
      · exact h.drawn_succ r hr outcomeId hkey
      · rw [List.mem_singleton.mp hr] at hkey
        cases hkey
  · obtain ⟨r, hr, htells⟩ := h.told outcome hout
    exact ⟨r, subset_recordEvent _ _ hr, htells⟩
  · show ((recordEvent s.history row').filterMap LaneOutcome.trialId?).Nodup
    rcases hcases with hsame | happend
    · rw [hsame]
      exact h.once
    · rw [happend, List.filterMap_append]
      simpa [row'] using h.once

section Run

variable {i : ℕ} {settler' : Settler}

/-- The state after a step of a run. -/
theorem step_run (s : FeedbackState) (i : ℕ) (action : SettlerAction) :
    s.step R (.run i action)
      = { ({ s with steps := s.steps + 1 }).commitOption ((s.settlers i).step R s action).2 with
          settlers := Function.update s.settlers i ((s.settlers i).step R s action).1 } := rfl

/-- A step that records nothing that counts. -/
theorem quiet (h : FeedbackSound R s) {write : Option FeedbackWrite}
    (hwrite : write = none ∨ ∃ position, write = some (.close position))
    (hheld : ∀ outcome, settler'.outcome? = some outcome →
      (s.settlers i).outcome? = some outcome) :
    FeedbackSound R { ({ s with steps := s.steps + 1 }).commitOption write with
      settlers := Function.update s.settlers i settler' } := by
  have htold : ∀ outcome, outcome ∈ s.certification.outcomes
      ∨ (∃ j, (Function.update s.settlers i settler' j).outcome? = some outcome) →
      ∃ row ∈ s.history, row.Tells outcome := by
    intro outcome hout
    refine h.told outcome (hout.imp_right (fun hj => ?_))
    rcases held_update hj with hnew | hold
    · exact ⟨i, hheld outcome hnew⟩
    · exact hold
  rcases hwrite with rfl | ⟨position, rfl⟩
  · exact ⟨h.drawn_succ, htold, h.once⟩
  · exact ⟨h.drawn_succ, htold, h.once⟩

/-- The event of an outcome that was made in this step, for a trial without an event. -/
theorem event (h : FeedbackSound R s) (regime : String) (trial : PaperAllocationTrial)
    (outcome : PaperAllocationOutcome) (htrial : outcome.trialId = trial.trialId)
    (hid : outcome.outcomeId = R.uuid4 s.steps (.outcome 0))
    (hheld : settler'.outcome? = some outcome)
    (hfirst : ∀ r ∈ s.history, r.trialId? ≠ (allocationEvent R regime trial outcome).trialId?) :
    FeedbackSound R { ({ s with steps := s.steps + 1 }).commitOption
        (some (.event (allocationEvent R regime trial outcome))) with
      settlers := Function.update s.settlers i settler' } := by
  let row := allocationEvent R regime trial outcome
  -- the outcome id was drawn in this step, so that no event has it
  have hnew : recordEvent s.history row = s.history ++ [row] := by
    refine recordEvent_of_new (fun r hr hkey => ?_)
    obtain ⟨n, hn, heq⟩ := h.drawn r hr outcome.outcomeId hkey
    rw [hid] at heq
    have hsteps : s.steps = n := (R.uuid4_injective heq).1
    omega
  refine ⟨fun r hr outcomeId hkey => ?_, fun o hout => ?_, ?_⟩
  · have hr : r ∈ recordEvent s.history row := hr
    rw [hnew] at hr
    rcases List.mem_append.mp hr with hr | hr
    · exact h.drawn_succ r hr outcomeId hkey
    · rw [List.mem_singleton.mp hr] at hkey
      injection hkey with hkey
      exact ⟨s.steps, Nat.lt_succ_self _, hkey.symm.trans hid⟩
  · have hout : o ∈ s.certification.outcomes
        ∨ ∃ j, (Function.update s.settlers i settler' j).outcome? = some o := hout
    have hbefore : (∃ r ∈ s.history, r.Tells o) → ∃ r ∈ s.history ++ [row], r.Tells o := by
      rintro ⟨r, hr, htells⟩
      exact ⟨r, List.mem_append_left _ hr, htells⟩
    show ∃ r ∈ recordEvent s.history row, r.Tells o
    rw [hnew]
    rcases hout with hout | hj
    · exact hbefore (h.told o (Or.inl hout))
    · rcases held_update hj with hnewest | hold
      · rw [hheld, Option.some.injEq] at hnewest
        subst hnewest
        exact ⟨row, List.mem_append_right _ List.mem_cons_self, congrArg some htrial.symm, rfl, rfl⟩
      · exact hbefore (h.told o (Or.inr hold))
  · show ((recordEvent s.history row).filterMap LaneOutcome.trialId?).Nodup
    rw [hnew, List.filterMap_append, List.nodup_append]
    refine ⟨h.once, by simp [row, allocationEvent], fun a ha b hb heq => ?_⟩
    obtain ⟨r, hr, hra⟩ := List.mem_filterMap.mp ha
    obtain ⟨r', hr', hrb⟩ := List.mem_filterMap.mp hb
    rw [List.mem_singleton.mp hr'] at hrb
    exact hfirst r hr (by rw [hra, heq, ← hrb])

/-- The outcome that was held. -/
theorem outcome (h : FeedbackSound R s) (outcome : PaperAllocationOutcome)
    (hheld : (s.settlers i).outcome? = some outcome) (hnone : settler'.outcome? = none) :
    FeedbackSound R { ({ s with steps := s.steps + 1 }).commitOption (some (.outcome outcome)) with
      settlers := Function.update s.settlers i settler' } := by
  refine ⟨h.drawn_succ, fun o hout => ?_, h.once⟩
  have hout : o ∈ (s.certification.commit (.outcome outcome)).outcomes
      ∨ ∃ j, (Function.update s.settlers i settler' j).outcome? = some o := hout
  rcases hout with hout | hj
  · rcases mem_outcomes_commit hout with hout | rfl
    · exact h.told o (Or.inl hout)
    · exact h.told o (Or.inr ⟨i, hheld⟩)
  · rcases held_update hj with hnew | hold
    · rw [hnone] at hnew
      cases hnew
    · exact h.told o (Or.inr hold)

end Run

/-- **Step.** If no trial is settled twice, every action keeps the history sound. -/
theorem step (h : FeedbackSound R s) {action : FeedbackAction} (hfirst : FirstSettlement R s action) :
    FeedbackSound R (s.step R action) := by
  cases action with
  | recordTrial trial =>
    refine ⟨h.drawn_succ, fun outcome hout => h.told outcome (hout.imp_left (fun hmem => ?_)), h.once⟩
    exact outcomes_commit_trial s.certification trial ▸ hmem
  | openPosition position trial => exact ⟨h.drawn_succ, h.told, h.once⟩
  | recordMechanism trialId row => exact h.recordMechanism trialId row
  | run i action =>
    have hstep := settler_step R s (s.settlers i) action
    rw [step_run]
    generalize hresult : (s.settlers i).step R s action = result at hstep ⊢
    obtain ⟨settler', write⟩ := result
    cases hstep with
    | quiet hwrite hheld => exact h.quiet hwrite hheld
    | event regime trial outcome htrial hid hheld =>
      refine h.event regime trial outcome htrial hid hheld (hfirst _ ?_)
      show ((s.settlers i).step R s action).2 = _
      rw [hresult]
    | outcome outcome hheld hnone => exact h.outcome outcome hheld hnone

/-- A sound history counts every trial once. Every event names its trial and no two name the
    same, so dropping repetitions drops nothing, and each event tells what the outcome of its
    trial says. -/
theorem countsOnce (h : FeedbackSound R s) : CountsOnce R s := by
  -- two events of the history are about different trials
  have hapart : s.history.Pairwise LaneOutcome.Apart := by
    have hpairwise := h.once
    rw [List.Nodup, List.pairwise_filterMap] at hpairwise
    refine hpairwise.imp (fun {a b} hab => ?_)
    cases ha : a.trialId? with
    | none => exact Or.inl ha
    | some trialId => exact Or.inr (fun heq => hab trialId ha trialId (heq ▸ ha) rfl)
  -- an event agrees with the outcome of its trial
  have hrecorded : ∀ row ∈ s.history, ∀ outcome ∈ s.certification.outcomes,
      row.trialId? = some outcome.trialId → row.realizedReturn = outcome.realizedNetReturn
        ∧ row.realizedProfitUsd = outcome.realizedProfitUsd := by
    intro row hrow outcome houtcome htrial
    obtain ⟨r, hr, htells⟩ := h.told outcome (Or.inl houtcome)
    have hsame : row = r := by
      by_contra hne
      rcases hapart.forall hrow hr hne with hnone | happart
      · rw [htrial] at hnone
        cases hnone
      · exact happart (htrial.trans htells.trialId.symm)
    rw [hsame]
    exact ⟨htells.realizedReturn, htells.realizedProfitUsd⟩
  refine ⟨h.once, hrecorded, fun strategy regime => ?_⟩
  -- so the history is already what remains after the repetitions are dropped
  have hdistinct : s.distinctSettled = s.history := by
    rw [FeedbackState.distinctSettled, List.pwFilter_eq_self.mpr hapart]
    refine (List.map_congr_left (fun row hrow => ?_)).trans (List.map_id _)
    unfold FeedbackState.withRecorded
    split
    · rename_i outcome houtcome
      obtain ⟨trialId, htrial, hfind⟩ := Option.bind_eq_some_iff.mp houtcome
      have hsame : outcome.trialId = trialId := by simpa using List.find?_some hfind
      obtain ⟨hreturn, hprofit⟩ := hrecorded row hrow outcome (List.mem_of_find?_eq_some hfind)
        (by rw [htrial, hsame])
      rw [← hreturn, ← hprofit]
      rfl
    · rfl
  rw [hdistinct]

end FeedbackSound

/-- **Counted once.** In every run in which no trial is settled twice, the history counts every
    settled trial once, with its recorded result. -/
theorem countsOnce_of_run (R : FeedbackRuntime) (schedule : List FeedbackAction)
    (h : Meets (FeedbackState.step R) (FirstSettlement R) .start schedule) :
    CountsOnce R (run (FeedbackState.step R) .start schedule) :=
  (run_invariant (I := FeedbackSound R) (fun _ _ hs hfirst => hs.step hfirst) FeedbackSound.start
    h).countsOnce

/-! ### A run that ends between the event and the outcome -/

/-- A runtime for feedback. -/
def FeedbackRuntime.sample : FeedbackRuntime where
  toRuntime := .sample
  lower := id
  repr text := "'" ++ text ++ "'"

/-- A spot long on one instrument, due an hour after its entry. -/
def spotLongTrial : PaperAllocationTrial where
  trialId := 0
  planObservedAt := 0
  candidateId := "candidate"
  family := "alpha"
  strategy := "momentum"
  asset := "BTC"
  venues := ["kraken"]
  exposureKind := .directionalLong
  capitalRequiredUsd := 1000
  notionalUsd := 1000
  predictedProfitUsd := 1
  predictedReturnOnReservedCapital := 1
  sourceObservedAt := some 0
  dueAt := some 3600000000
  instrumentSymbol := some "BTC/USD"
  instrumentMarketKind := some MarketKind.spot.value
  entryReferencePrice := some 100
  modeledRoundtripCostReturn := some 0
  settlementLegs := []
  modeledNonSlippageCostBps := none
  modeledSafetyBufferBps := none
  capitalMultiple := none
  settlementSupported := true
  settlementMethod := some spotLongSettlementMethod
  settlementBlocker := none
  cohortKey := "alpha|momentum|BTC|directional_long|kraken|BTC/USD"

/-- A snapshot two hours after the entry, in which the instrument is quoted at a price. -/
def snapshotAt (price : Positive) : ScanSnapshot :=
  ⟨"scan", 7200000000, [⟨"kraken", "BTC", .spot, "BTC/USD", price, 7200000000⟩], []⟩

/-- A certification run that settles its first pending trial at a price. -/
def settlingRun (price : Positive) : List FeedbackAction :=
  [.run 0 (.collect (snapshotAt price)), .run 0 .readPending,
    .run 0 (.settle ⟨⟨[], []⟩, [], none, "normal"⟩)]

/-- **Settled again.** A run that ends right after the event leaves the trial pending, and the
    next run records a second event of it. -/
theorem not_countsOnce_cutOffRun :
    ¬ CountsOnce .sample (run (FeedbackState.step .sample) .start
      (.recordTrial spotLongTrial :: settlingRun 110
        ++ .run 0 .stop :: settlingRun 120)) := by
  intro h
  have htwice : (run (FeedbackState.step .sample) .start
      (.recordTrial spotLongTrial :: settlingRun 110
        ++ .run 0 .stop :: settlingRun 120)).history.filterMap LaneOutcome.trialId?
      = [0, 0] := by rfl
  have hnodup := h.oneEvent
  rw [htwice] at hnodup
  exact absurd hnodup (by decide)

end InefficiencyEngine.Feedback
