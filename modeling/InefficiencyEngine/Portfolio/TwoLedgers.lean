import InefficiencyEngine.Lib.Machine
import InefficiencyEngine.Portfolio.Certification
import InefficiencyEngine.Portfolio.Horizon

namespace InefficiencyEngine.Portfolio

open Durable CycleContext

/-!
# The portfolio ledger and the certification ledger

The portfolio service and any number of certification workers run over one store.  The
writes of a portfolio cycle are determined when it starts, since nobody else writes the
tables it reads; they take effect one at a time, between the steps of the workers, and a
crash drops those still to come.

A close is built from the outcome the cycle has just computed, while `record_outcome`
keeps whatever outcome the trial already has.  The ledgers agree in every run in which
the portfolio's outcomes are the first of their trials (`ledgersAgree_of_first`).
-/

/-! ### The machine -/

/-- The store, the number of runs started, the writes the running portfolio cycle has
    still to make, and the certification workers. -/
structure TwoLedgers where
  store : Store
  started : ℕ
  portfolio : List Write
  certification : ℕ → CertificationWorker

/-- Before anything ran. -/
def TwoLedgers.start : TwoLedgers := ⟨Store.empty, 0, [], fun _ => .idle⟩

/-- The actions of the two services. -/
inductive SharedAction
  /-- A portfolio cycle starts, unless one is running. -/
  | startCycle (input : CycleInput)
  /-- The next write of the portfolio cycle takes effect. -/
  | write
  /-- The portfolio cycle crashes. -/
  | crash
  /-- A step of a certification worker. -/
  | certify (worker : ℕ) (action : CertificationAction)

/-- The store after a write, if there is one. -/
def Store.commitOption (s : Store) (w : Option Write) : Store :=
  match w with
  | some w => commit s w
  | none => s

/-- What an action does. A cycle runs write by write, with the steps of the workers in between,
    and a crash drops the writes that were still to come. -/
def TwoLedgers.step (R : Runtime) (s : TwoLedgers) : SharedAction → TwoLedgers
  | .startCycle input =>
    if s.portfolio.isEmpty then
      { s with
        started := s.started + 1
        portfolio := (runCycle R s.started input s.store.portfolio).1 }
    else s
  | .write =>
    match s.portfolio with
    | [] => s
    | w :: rest => { s with store := commit s.store w, portfolio := rest }
  | .crash => { s with portfolio := [] }
  | .certify worker action =>
    let result := (s.certification worker).step R s.started s.store.certification action
    { s with
      store := s.store.commitOption result.2
      started := s.started + 1
      certification := Function.update s.certification worker result.1 }

/-! ### Agreement -/

/-- The profit of the outcome stored for a trial. -/
def Store.profit? (s : Store) (trialId : Uuid) : Option ℚ :=
  (s.certification.outcome? trialId).map PaperAllocationOutcome.realizedProfitUsd

/-- Every close event of a position whose opening embeds a universal trial realizes the
    profit given for the trial. -/
def ClosesAgree (profit : Uuid → Option ℚ) (events : List CanonicalPortfolioEvent) : Prop :=
  ∀ c ∈ events, c.eventType = .close → ∀ f ∈ events, f.eventType = .open →
    ∀ p, c.positionId = some p → f.positionId = some p →
      ∀ trial, eventTrial (some f) = some trial → isUniversal trial = true →
        profit trial.trialId = some c.realizedPnlDeltaUsd

/-- The ledgers agree: a trial has one outcome, and the closes realize its profit. -/
structure LedgersAgree (s : Store) : Prop where
  oneOutcome : (s.certification.outcomes.map PaperAllocationOutcome.trialId).Nodup
  closes : ClosesAgree s.profit? s.portfolio.events

/-- An outcome about to be recorded is the first of its trial. -/
def Write.IsFirst (s : CertificationStore) : Write → Prop
  | .outcome o => s.outcome? o.trialId = none
  | _ => True

/-- An action that records an outcome of the portfolio finds none stored for the trial. -/
def FirstOutcome (s : TwoLedgers) : SharedAction → Prop
  | .write => ∀ w ∈ s.portfolio.head?, w.IsFirst s.store.certification
  | _ => True

/-! ### The invariant -/

/-- The portfolio service is idle on a sound log, or in a cycle part of whose writes have
    taken effect. -/
inductive Running (R : Runtime) (s : TwoLedgers) : Prop
  | idle (hnone : s.portfolio = []) (hsound : Sound R s.started s.store.portfolio)
  | cycle (n : ℕ) (input : CycleInput) (s₀ : PortfolioStore) (k : ℕ) (hn : n < s.started)
      (hsound : Sound R n s₀)
      (hstore : s.store.portfolio = commitAll s₀ ((runCycle R n input s₀).1.take k))
      (hpending : s.portfolio = (runCycle R n input s₀).1.drop k)

/-- A close event about to be recorded agrees with the profit given for the trial. -/
def CloseAgrees (profit : Uuid → Option ℚ) (events : List CanonicalPortfolioEvent)
    (e : CanonicalPortfolioEvent) : Prop :=
  e.eventType = .close → ∀ p f, e.positionId = some p → (replay events).IsOpen p f →
    ∀ trial, eventTrial (some f) = some trial → isUniversal trial = true →
      profit trial.trialId = some e.realizedPnlDeltaUsd

/-- If the next write closes a universal position, its trial has the profit stored. -/
def Ready (s : TwoLedgers) : Prop :=
  ∀ row rest, s.portfolio = .event row :: rest →
    CloseAgrees s.store.profit? s.store.portfolio.events row.event

/-- What holds between any two actions. -/
structure TwoLedgers.Inv (R : Runtime) (s : TwoLedgers) : Prop where
  running : Running R s
  oneOutcome : (s.store.certification.outcomes.map PaperAllocationOutcome.trialId).Nodup
  closes : ClosesAgree s.store.profit? s.store.portfolio.events
  ready : Ready s

/-- The log is sound between any two writes of a cycle. -/
theorem sound_take {R : Runtime} {n : ℕ} {s₀ : PortfolioStore} (h : Sound R n s₀)
    (input : CycleInput) (k : ℕ) :
    Sound R (n + 1) (commitAll s₀ ((runCycle R n input s₀).1.take k)) :=
  (runCycle_blocks h input).invariant (I := Sound R (n + 1)) (fun _ _ ht hb k => hb.sound ht k)
    (h.mono (Nat.le_succ n)) k

theorem Running.sound {R : Runtime} {s : TwoLedgers} (h : Running R s) :
    Sound R s.started s.store.portfolio := by
  cases h with
  | idle _ hsound => exact hsound
  | cycle n input s₀ k hn hsound hstore _ =>
    rw [hstore]
    exact (sound_take hsound input k).mono hn

/-- A close event of a universal position is recorded right after the outcome it was built
    from. -/
theorem outcome_before_close {R : Runtime} {n : ℕ} {s₀ : PortfolioStore} (h : Sound R n s₀)
    {input : CycleInput} {k : ℕ} {row : EventRow}
    (hk : (runCycle R n input s₀).1[k]? = some (.event row)) (hclose : row.event.eventType = .close)
    {p : Uuid} {f : CanonicalPortfolioEvent} (hid : row.event.positionId = some p)
    (hopen : (replay (commitAll s₀ ((runCycle R n input s₀).1.take k)).events).IsOpen p f)
    {trial : PaperAllocationTrial} (htrial : eventTrial (some f) = some trial)
    (huniversal : isUniversal trial = true) :
    ∃ m o, k = m + 1 ∧ (runCycle R n input s₀).1[m]? = some (.outcome o)
      ∧ o.trialId = trial.trialId ∧ o.realizedProfitUsd = row.event.realizedPnlDeltaUsd := by
  obtain ⟨i, j, block, rest, rfl, hblock, hdrop, hj⟩ := (runCycle_blocks h input).getElem? hk
  obtain ⟨ctx, i', position, f', outcome, hopen', hembedded, hverdict, rfl, rfl⟩ :=
    hblock.closing_cases hj rfl hclose
  have hp : position.positionId = p := by
    have hid' := (ctx.verdict_close_event hverdict).2.1
    exact Option.some.inj (hid'.symm.trans hid)
  -- The position is open under one event, before and after the outcome is recorded.
  have hf : f' = f := by
    rw [Along.take_of_drop hdrop (Nat.le_of_lt (List.getElem?_eq_some_iff.mp hj).1),
      commitAll_append] at hopen
    have hquiet : ∀ (t : PortfolioStore) (w : Write),
        (commitAll t (((outcome.map Write.outcome).toList ++ [w]).take
          outcome.toList.length)).events = t.events := by
      intro t w
      cases outcome <;> rfl
    rw [hquiet] at hopen
    rw [hp] at hopen'
    exact Option.some.inj (hopen'.1.symm.trans hopen.1)
  subst hf
  rw [htrial] at hembedded
  rcases ctx.verdict_close hverdict with ⟨hspot, -⟩ | ⟨t, o, rfl, ht, -, -, hsettled, he⟩
  · rw [hspot trial hembedded] at huniversal
    cases huniversal
  · rw [hembedded, Option.some.injEq] at ht
    subst ht
    refine ⟨i, o, rfl, ?_, trialId_of_settled hsettled, by rw [he]; rfl⟩
    have hhead : ((runCycle R n input s₀).1.drop i)[0]? = some (.outcome o) := by
      rw [hdrop]
      rfl
    rwa [List.getElem?_drop] at hhead

/-! ### Steps -/

section Steps

variable {R : Runtime} {s : TwoLedgers}

/-- Recording an event keeps the closes in agreement if, should it be a close, it agrees. -/
theorem ClosesAgree.append {n : ℕ} {events : List CanonicalPortfolioEvent}
    {e : CanonicalPortfolioEvent} {profit : Uuid → Option ℚ} (h : ClosesAgree profit events)
    (hsound : events = [] ∨ Ledger R n events) (he : Appends R n events e)
    (hnew : CloseAgrees profit events e) : ClosesAgree profit (events ++ [e]) := by
  intro c hc hclose f hf hopen p hcid hfid trial htrial huniversal
  rcases he with ⟨rfl, eventId, observedAt, rfl⟩ | ⟨hne, hadm⟩
  · rw [List.nil_append] at hc
    rw [List.mem_singleton.mp hc] at hclose
    cases hclose
  have hledger := hsound.resolve_left hne
  rcases List.mem_append.mp hc with hc' | hc' <;> rcases List.mem_append.mp hf with hf' | hf'
  · exact h c hc' hclose f hf' hopen p hcid hfid trial htrial huniversal
  · -- A position opened now was not closed before.
    rw [List.mem_singleton] at hf'
    subst hf'
    exfalso
    cases hadm with
    | opening q hid hopened hfresh =>
      rw [hid, Option.some.injEq] at hfid
      subst hfid
      have hclosed : q ∈ closedIds events :=
        List.mem_filterMap.mpr ⟨c, hc', by rw [if_pos hclose, hcid]⟩
      exact (mem_closedIds events q).mp hclosed (hledger.balanced.closedOpened q hfresh)
    | closing q g htype =>
      rw [htype] at hopen
      cases hopen
    | neutral htype =>
      rw [hopen] at htype
      rcases htype with htype | htype <;> cases htype
  · -- A position closed now is closed under the event that opened it.
    rw [List.mem_singleton] at hc'
    subst hc'
    obtain ⟨q, hq, hget⟩ := hledger.listed f hf' hopen
    rw [hq, Option.some.injEq] at hfid
    subst hfid
    cases hadm with
    | opening q' hid hopened hfresh =>
      obtain ⟨_, _, _, _, _, _, hby⟩ := hopened
      rw [hby.eventType] at hclose
      cases hclose
    | closing q' g htype hid hisOpen =>
      rw [hid, Option.some.injEq] at hcid
      subst hcid
      exact hnew hclose q' f hid ⟨hget, hisOpen.2⟩ trial htrial huniversal
    | neutral htype =>
      rw [hclose] at htype
      rcases htype with htype | htype <;> cases htype
  · rw [List.mem_singleton.mp hc'] at hclose
    rw [List.mem_singleton.mp hf', hclose] at hopen
    cases hopen

/-- A profit once stored stays. -/
theorem profit?_commit {s : Store} {trialId : Uuid} {x : ℚ} (h : s.profit? trialId = some x)
    (w : Write) : (commit s w).profit? trialId = some x := by
  obtain ⟨o, ho, hx⟩ := Option.map_eq_some_iff.mp h
  exact Option.map_eq_some_iff.mpr ⟨o, CertificationStore.outcome?_commit ho w, hx⟩

/-- Agreement with the profits of a store is agreement with those of a later one. -/
theorem ClosesAgree.commit {s : Store} {events : List CanonicalPortfolioEvent}
    (h : ClosesAgree s.profit? events) (w : Write) :
    ClosesAgree (Durable.commit s w).profit? events :=
  fun c hc hclose f hf hopen p hcid hfid trial htrial huniversal =>
    profit?_commit (h c hc hclose f hf hopen p hcid hfid trial htrial huniversal) w

theorem CloseAgrees.commit {s : Store} {events : List CanonicalPortfolioEvent}
    {e : CanonicalPortfolioEvent} (h : CloseAgrees s.profit? events e) (w : Write) :
    CloseAgrees (Durable.commit s w).profit? events e :=
  fun hclose p f hid hopen trial htrial huniversal =>
    profit?_commit (h hclose p f hid hopen trial htrial huniversal) w

/-- **Start of a cycle.** Its accounting begins with the positions listed, and the writes of it
    are still to come. -/
theorem TwoLedgers.Inv.startCycle (h : s.Inv R) (input : CycleInput) :
    (s.step R (.startCycle input)).Inv R := by
  unfold TwoLedgers.step
  dsimp only
  split
  · refine ⟨.cycle s.started input s.store.portfolio 0 (Nat.lt_succ_self _) h.running.sound rfl rfl,
      h.oneOutcome, h.closes, ?_⟩
    intro row rest hhead hclose p f hid hopen trial htrial huniversal
    have hk : (runCycle R s.started input s.store.portfolio).1[0]? = some (.event row) := by
      rw [show (runCycle R s.started input s.store.portfolio).1 = _ from hhead]
      rfl
    obtain ⟨m, o, hm, -⟩ := outcome_before_close h.running.sound hk hclose hid hopen htrial huniversal
    exact absurd hm (Nat.succ_ne_zero m).symm
  · exact h

/-- **Write of a cycle.** The store advances along the cycle, and a close that comes next finds
    the outcome just recorded. The writes of a cycle come in blocks, so a close is preceded by
    its outcome in the same block, and the first outcome of a trial is the one that stays. -/
theorem TwoLedgers.Inv.write (h : s.Inv R) (hfirst : FirstOutcome s .write) :
    (s.step R .write).Inv R := by
  unfold TwoLedgers.step
  dsimp only
  cases hpending : s.portfolio with
  | nil => exact h
  | cons w rest =>
    -- a write is pending, so a cycle is running, and the write is its next
    cases h.running with
    | idle hnone =>
      rw [hnone] at hpending
      cases hpending
    | cycle n input s₀ k hn hsound hstore hdrop =>
      rw [hdrop] at hpending
      have hw : (runCycle R n input s₀).1[k]? = some w := by
        have hhead : ((runCycle R n input s₀).1.drop k)[0]? = some w := by
          rw [hpending]
          rfl
        rwa [List.getElem?_drop] at hhead
      have hrest : rest = (runCycle R n input s₀).1.drop (k + 1) := by
        rw [← List.drop_drop, hpending]
        rfl
      have hnext : Durable.commit s.store.portfolio w
          = commitAll s₀ ((runCycle R n input s₀).1.take (k + 1)) := by
        rw [List.take_add_one, hw, hstore, commitAll_append]
        rfl
      refine ⟨.cycle n input s₀ (k + 1) hn hsound hnext hrest,
        CertificationStore.oneOutcome_commit h.oneOutcome w, ?_, ?_⟩
      -- an event either repeats a stored id or is appended, and then it is what the block allows
      · show ClosesAgree _ (Durable.commit s.store.portfolio w).events
        cases w with
        | event row =>
          obtain ⟨i, j, block, rest', rfl, hblock, hdrop', hj⟩ :=
            (runCycle_blocks hsound input).getElem? hw
          have happends := hblock.appends hj rfl
          rw [← commitAll_append, ← Along.take_of_drop hdrop'
            (Nat.le_of_lt (List.getElem?_eq_some_iff.mp hj).1), ← hstore] at happends
          rcases commit_row s.store.portfolio row with heq | heq
          · rw [heq]
            exact h.closes.commit _
          · rw [heq]
            have hlog := (hstore ▸ sound_take hsound input (i + j) :
              Sound R (n + 1) s.store.portfolio)
            refine ClosesAgree.commit (h.closes.append hlog happends ?_) _
            exact h.ready row rest (hdrop.trans hpending)
        | snapshot snapshot => exact h.closes.commit _
        | integrity snapshot =>
          rw [(commit_integrity s.store.portfolio snapshot).1]
          exact h.closes.commit _
        | trial t => exact h.closes.commit _
        | outcome o => exact h.closes.commit _
      -- the event after this write: if it closes a position, this write is its outcome
      · intro row rest' hhead hclose p f hid hopen trial htrial huniversal
        replace hhead : rest = .event row :: rest' := hhead
        have hk : (runCycle R n input s₀).1[k + 1]? = some (.event row) := by
          have hhead' : ((runCycle R n input s₀).1.drop (k + 1))[0]? = some (.event row) := by
            rw [← hrest, hhead]
            rfl
          rwa [List.getElem?_drop] at hhead'
        replace hopen : (replay (Durable.commit s.store.portfolio w).events).IsOpen p f := hopen
        rw [hnext] at hopen
        obtain ⟨m, o, hm, ho, htrialId, hprofit⟩ :=
          outcome_before_close hsound hk hclose hid hopen htrial huniversal
        obtain rfl : k = m := Nat.succ.inj hm
        obtain rfl : w = .outcome o := Option.some.inj (hw.symm.trans ho)
        -- the trial has no outcome yet, so this one is stored and counts
        have hnone := hfirst (Write.outcome o) (by rw [hdrop, hpending]; rfl)
        show ((Durable.commit s.store (Write.outcome o)).certification.outcome? trial.trialId).map _ = _
        rw [← htrialId]
        show ((s.store.certification.commit (.outcome o)).outcome? o.trialId).map _ = _
        rw [CertificationStore.outcome?_commit_outcome hnone, ← hprofit]
        rfl

/-- **Crash of a cycle.** What was not written is lost, and what was written stays. -/
theorem TwoLedgers.Inv.crash (h : s.Inv R) : (s.step R .crash).Inv R :=
  ⟨.idle rfl h.running.sound, h.oneOutcome, h.closes, fun row rest hhead => by cases hhead⟩

/-- **Step of a worker.** The portfolio's tables and pending writes stay as they are, and the
    profits stored. A worker writes trials and outcomes, never events, so the portfolio's log is
    untouched, and an outcome that is stored already is not replaced. -/
theorem TwoLedgers.Inv.certify (h : s.Inv R) (worker : ℕ) (action : CertificationAction) :
    (s.step R (.certify worker action)).Inv R := by
  unfold TwoLedgers.step
  dsimp only
  have hwrites := @CertificationWorker.step_write R s.started s.store.certification
    (s.certification worker) action
  revert hwrites
  generalize (s.certification worker).step R s.started s.store.certification action = result
  intro hwrites
  have hportfolio : (s.store.commitOption result.2).portfolio = s.store.portfolio := by
    cases hresult : result.2 with
    | none => rfl
    | some w =>
      rcases hwrites hresult with ⟨t, rfl⟩ | ⟨o, rfl⟩
      · rfl
      · rfl
  -- the cycle, the outcomes, the closes of the log and the close that comes next
  refine ⟨?_, ?_, ?_, ?_⟩
  · cases h.running with
    | idle hnone hsound =>
      refine .idle hnone ?_
      show Sound R (s.started + 1) (s.store.commitOption result.2).portfolio
      rw [hportfolio]
      exact hsound.mono (Nat.le_succ _)
    | cycle n input s₀ k hn hsound hstore hpending =>
      exact .cycle n input s₀ k (Nat.lt_succ_of_lt hn) hsound (hportfolio.trans hstore) hpending
  · show ((s.store.commitOption result.2).certification.outcomes.map _).Nodup
    cases result.2 with
    | none => exact h.oneOutcome
    | some w => exact CertificationStore.oneOutcome_commit h.oneOutcome w
  · show ClosesAgree (s.store.commitOption result.2).profit?
      (s.store.commitOption result.2).portfolio.events
    rw [hportfolio]
    cases result.2 with
    | none => exact h.closes
    | some w => exact h.closes.commit w
  · intro row rest hhead
    show CloseAgrees (s.store.commitOption result.2).profit?
      (s.store.commitOption result.2).portfolio.events row.event
    rw [hportfolio]
    cases result.2 with
    | none => exact h.ready row rest hhead
    | some w => exact (h.ready row rest hhead).commit w

/-- Every action of a run whose portfolio outcomes are first keeps the invariant. -/
theorem TwoLedgers.Inv.step (h : s.Inv R) {action : SharedAction} (hfirst : FirstOutcome s action) :
    (s.step R action).Inv R := by
  cases action with
  | startCycle input => exact h.startCycle input
  | write => exact h.write hfirst
  | crash => exact h.crash
  | certify worker action => exact h.certify worker action

end Steps

/-- Nothing is stored at the start. -/
theorem TwoLedgers.inv_start (R : Runtime) : TwoLedgers.start.Inv R where
  running := .idle rfl (Or.inl rfl)
  oneOutcome := List.nodup_nil
  closes c hc := by cases hc
  ready row rest h := by cases h

/-- **The two ledgers agree.** In every run of the two services in which each outcome the
    portfolio records is the first of its trial, every close of a universal position
    realizes the profit of the outcome stored for its trial. -/
theorem ledgersAgree_of_first (R : Runtime) {schedule : List SharedAction}
    (h : Meets (TwoLedgers.step R) FirstOutcome TwoLedgers.start schedule) :
    LedgersAgree (run (TwoLedgers.step R) TwoLedgers.start schedule).store := by
  have hinv := run_invariant (I := TwoLedgers.Inv R) (fun _ _ hs hfirst => hs.step hfirst)
    (TwoLedgers.inv_start R) h
  exact ⟨hinv.oneOutcome, hinv.closes⟩

/-! ### A close at another price than the outcome -/

instance (s : CertificationStore) (w : Write) : Decidable (w.IsFirst s) := by
  cases w <;> unfold Write.IsFirst <;> infer_instance

instance (s : TwoLedgers) (action : SharedAction) : Decidable (FirstOutcome s action) := by
  cases action <;> unfold FirstOutcome <;> infer_instance

/-- What each close of a universal position realizes, with the profit stored for its
    trial. -/
def Store.closeProfits (s : Store) : List (ℚ × Option ℚ) :=
  (s.portfolio.events.filter (fun c => c.eventType = .close)).flatMap fun c =>
    (s.portfolio.events.filter (fun f => f.eventType = .open ∧ f.positionId.isSome
      ∧ f.positionId = c.positionId)).flatMap fun f =>
      ((eventTrial (some f)).toList.filter isUniversal).map fun trial =>
        (c.realizedPnlDeltaUsd, s.profit? trial.trialId)

/-- When the ledgers agree, the two are equal. -/
theorem LedgersAgree.closeProfits {s : Store} (h : LedgersAgree s) :
    ∀ x ∈ s.closeProfits, x.2 = some x.1 := by
  intro x hx
  obtain ⟨c, hc, hx⟩ := List.mem_flatMap.mp hx
  obtain ⟨f, hf, hx⟩ := List.mem_flatMap.mp hx
  obtain ⟨trial, htrial, rfl⟩ := List.mem_map.mp hx
  obtain ⟨hc, hclose⟩ := List.mem_filter.mp hc
  obtain ⟨hf, hopen⟩ := List.mem_filter.mp hf
  obtain ⟨htrial, huniversal⟩ := List.mem_filter.mp htrial
  obtain ⟨hopen, hsome, hid⟩ := of_decide_eq_true hopen
  obtain ⟨p, hp⟩ := Option.isSome_iff_exists.mp hsome
  exact h.closes c hc (of_decide_eq_true hclose) f hf hopen p (hid ▸ hp) hp trial
    (Option.mem_toList.mp htrial) huniversal

/-- A cycle that opens a perpetual short, and one that settles it at its horizon. -/
def settleOnce : List SharedAction :=
  [.startCycle oneShort] ++ List.replicate 6 .write
    ++ [.startCycle (atHorizon [shortQuote 90 3600000000])]
    ++ List.replicate 6 .write

/-- A cycle that opens a perpetual short, one that crashes after recording its outcome, and
    one that settles it again, at another quote. -/
def settleTwice : List SharedAction :=
  [.startCycle oneShort] ++ List.replicate 6 .write
    ++ [.startCycle (atHorizon [shortQuote 90 3600000000])]
    ++ List.replicate 2 .write ++ [.crash]
    ++ [.startCycle (atHorizon [shortQuote 80 3600000000])]
    ++ List.replicate 6 .write

/-- A cycle that is not cut off writes the close right after the outcome it was built from, and
    both ledgers realize the same profit. -/
theorem ledgersAgree_settleOnce :
    (run (TwoLedgers.step Runtime.sample) TwoLedgers.start settleOnce).store.closeProfits.length = 1
      ∧ LedgersAgree (run (TwoLedgers.step Runtime.sample) TwoLedgers.start settleOnce).store :=
  ⟨by decide +kernel, ledgersAgree_of_first Runtime.sample (by decide +kernel)⟩

/-- After the crash the outcome of the first attempt stays, and the close of the second one
    realizes another profit. -/
theorem not_ledgersAgree_settleTwice :
    ¬ ∀ (R : Runtime) (schedule : List SharedAction),
      LedgersAgree (run (TwoLedgers.step R) TwoLedgers.start schedule).store := by
  intro h
  have hagree := (h Runtime.sample settleTwice).closeProfits
  have hdiffer : ¬ ∀ x ∈ (run (TwoLedgers.step Runtime.sample) TwoLedgers.start
      settleTwice).store.closeProfits, x.2 = some x.1 := by
    decide +kernel
  exact hdiffer hagree

end InefficiencyEngine.Portfolio
