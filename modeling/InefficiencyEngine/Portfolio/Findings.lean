import InefficiencyEngine.Portfolio.Closes

namespace InefficiencyEngine.Portfolio

open Prog

/-!
# What the accounting loop finds

The accumulators the accounting loop ends with depend on its verdicts only
(`CycleContext.account`).  `Accounting.Over` says what they record about each position:
one that was closed is among the closes, one that was freshly valued has the time of its
evidence, and any other is counted as stale.  `settlementHalf_account` connects them to
what the settlement half of a cycle hands on.
-/

namespace CycleContext

/-! ### What a verdict can be -/

/-- A mark is recorded when its evidence is newer than what the ledger has. -/
def newerMark (ctx : CycleContext) (position : CanonicalPaperPosition)
    (mark : CanonicalPortfolioEvent) : Option CanonicalPortfolioEvent :=
  if ctx.priorEvidenceAt position < mark.observedAt then some mark else none

/-- The ways a cycle decides about its `i`-th position. -/
inductive Decides (ctx : CycleContext) (i : ℕ) (position : CanonicalPaperPosition) : Verdict → Prop
  /-- The certification contracts settled the position. -/
  | settled (outcome : PaperAllocationOutcome) :
      Decides ctx i position (.close (some outcome)
        (closeFromOutcome (ctx.runtime.uuid4 ctx.run (.accountingEvent i)) position outcome))
  /-- The position was marked through its legs. -/
  | marked (trial : PaperAllocationTrial) (htrial : ctx.positionTrial position = some trial)
      (huniversal : isUniversal trial = true) (hdue : ctx.snapshot.completedAt < position.dueAt)
      (mark : CanonicalPortfolioEvent)
      (hmark : ctx.markUniversal (ctx.runtime.uuid4 ctx.run (.accountingEvent i)) position trial
        = some mark) :
      Decides ctx i position (.fresh (ctx.newerMark position mark) mark.observedAt)
  /-- The position was closed at a quote behind its horizon. -/
  | closed (quote : MarketQuote) :
      Decides ctx i position (.close none
        (closeEvent (ctx.runtime.uuid4 ctx.run (.accountingEvent i)) position quote
          quote.observedAt))
  /-- The position was marked at a quote not older than what the ledger has. -/
  | quoted (quote : MarketQuote) (hprior : ctx.priorEvidenceAt position ≤ quote.observedAt) :
      Decides ctx i position (.fresh (ctx.newerMark position
        (markEvent (ctx.runtime.uuid4 ctx.run (.accountingEvent i)) position quote
          quote.observedAt)) quote.observedAt)
  /-- The quote is too old to close a due position, which is marked at it. -/
  | awaiting (quote : MarketQuote) :
      Decides ctx i position (.stale (ctx.newerMark position
        (markEvent (ctx.runtime.uuid4 ctx.run (.accountingEvent i)) position quote
          quote.observedAt)) true)
  /-- There is no evidence to value or settle the position on. -/
  | stale (blocked : Bool) : Decides ctx i position (.stale none blocked)

/-- **Verdicts.** One constructor for each path through the accounting of a position, with the
    conditions under which the source takes it. -/
theorem verdict_decides {ctx : CycleContext} {i : ℕ} {position : CanonicalPaperPosition}
    {v : Verdict} (h : ctx.verdict i position = .ok v) : Decides ctx i position v := by
  -- the paths of a position without a universal trial
  have hquote : ctx.quoteVerdict (ctx.runtime.uuid4 ctx.run (.accountingEvent i)) position = v →
      Decides ctx i position v := by
    rintro rfl
    unfold quoteVerdict
    split
    · exact .stale false
    · rename_i quote _
      dsimp only
      split
      · exact .stale false
      · rename_i hprior
        split
        · exact .awaiting quote
        · split
          · exact .closed quote
          · exact .quoted quote (not_lt.mp hprior)
  unfold verdict at h
  split at h
  · rename_i trial htrial
    split at h
    -- those of a universal one: due and settled or not, else marked or stale
    · rename_i huniversal
      unfold universalVerdict at h
      split at h
      · obtain ⟨settled, -, h⟩ := bind_eq_ok h
        cases settled with
        | none =>
          injection h with h
          exact h ▸ .stale true
        | some outcome =>
          injection h with h
          exact h ▸ .settled outcome
      · rename_i hdue
        dsimp only at h
        split at h
        · injection h with h
          exact h ▸ .stale false
        · rename_i mark hmark
          injection h with h
          exact h ▸ .marked trial htrial huniversal (not_le.mp hdue) mark hmark
    · exact hquote (Except.ok.inj h)
  · exact hquote (Except.ok.inj h)

/-- The mark of a position with legs is an event about it. -/
theorem markUniversal_eq_some {ctx : CycleContext} {eventId : Uuid}
    {position : CanonicalPaperPosition} {trial : PaperAllocationTrial}
    {mark : CanonicalPortfolioEvent} (h : ctx.markUniversal eventId position trial = some mark) :
    mark.eventId = eventId ∧ mark.eventType = .mark ∧ mark.positionId = some position.positionId
      ∧ ∃ sourceAt quotes, trial.sourceObservedAt = some sourceAt
        ∧ legQuotes ctx.runtime.upper (portfolioQuoteIndex ctx.runtime.upper ctx.snapshot)
          trial.settlementLegs = some quotes
        ∧ (quotes.map (fun p => p.2.observedAt)).min? = some mark.observedAt
        ∧ (fundingRows ctx.runtime.upper ctx.input.evidence sourceAt
          (min mark.observedAt (trial.dueAt.getD mark.observedAt)) trial.settlementLegs).isSome := by
  simp only [markUniversal, Option.bind_eq_bind, Option.bind_eq_some_iff, Option.pure_def,
    Option.some.injEq] at h
  obtain ⟨sourceAt, hsource, quotes, hquotes, evidenceAt, hevidence, fundings, hfundings, rfl⟩ := h
  exact ⟨rfl, rfl, rfl, sourceAt, quotes, hsource, hquotes, hevidence,
    Option.isSome_iff_exists.mpr ⟨fundings, hfundings⟩⟩

/-! ### The accumulators of the loop -/

/-- The accumulators after a list of positions. -/
def account (ctx : CycleContext) (positions : List CanonicalPaperPosition) (t : Accounting) :
    Except Raised Accounting :=
  positions.foldlM (fun t position => do return t.count position (← ctx.verdict t.index position)) t

/-- What the accumulators say about the positions seen. -/
structure Accounting.Over (ctx : CycleContext) (seen : List CanonicalPaperPosition)
    (t : Accounting) : Prop where
  index : t.index = seen.length
  /-- Every position was closed, valued on the evidence noted for it, or counted as stale. -/
  decided : ∀ j position, seen[j]? = some position → ∃ v, ctx.verdict j position = .ok v
    ∧ (∀ mark evidenceAt, v = .fresh mark evidenceAt →
      t.freshPositionEvidence.get? position.positionId = some evidenceAt)
    ∧ (∀ mark blocked, v = .stale mark blocked → 0 < t.stalePositions)
  /-- Evidence is noted for positions that were valued on it. -/
  evidence : ∀ p evidenceAt, t.freshPositionEvidence.get? p = some evidenceAt →
    ∃ j position mark, seen[j]? = some position ∧ position.positionId = p
      ∧ ctx.verdict j position = .ok (.fresh mark evidenceAt)

variable {ctx : CycleContext} {seen : List CanonicalPaperPosition} {t : Accounting}
  {position : CanonicalPaperPosition} {v : Verdict}

/-- Counting never lowers the number of stale positions. -/
theorem Accounting.stalePositions_count (t : Accounting) (position : CanonicalPaperPosition)
    (v : Verdict) : t.stalePositions ≤ (t.count position v).stalePositions := by
  cases v with
  | close => exact Nat.le_refl _
  | fresh => exact Nat.le_refl _
  | stale => exact Nat.le_succ _

/-- What a verdict does to the noted evidence. -/
theorem Accounting.freshPositionEvidence_count (t : Accounting)
    (position : CanonicalPaperPosition) (v : Verdict) :
    (t.count position v).freshPositionEvidence = (match v with
      | .fresh _ evidenceAt => t.freshPositionEvidence.set position.positionId evidenceAt
      | _ => t.freshPositionEvidence) := by
  cases v <;> rfl

/-- **One position.** Counting a verdict records it and keeps what was recorded. -/
theorem Accounting.Over.count (h : t.Over ctx seen)
    (hv : ctx.verdict t.index position = .ok v)
    (hnew : ∀ q ∈ seen, q.positionId ≠ position.positionId) :
    (t.count position v).Over ctx (seen ++ [position]) := by
  -- The evidence noted for the positions seen is not overwritten.
  have hkeep : ∀ q ∈ seen, (t.count position v).freshPositionEvidence.get? q.positionId
      = t.freshPositionEvidence.get? q.positionId := by
    intro q hq
    rw [t.freshPositionEvidence_count]
    split
    · exact Dict.get?_set_of_ne _ _ (fun he => hnew q hq he.symm)
    · rfl
  rw [h.index] at hv
  have hlast : ∀ j q, (seen ++ [position])[j]? = some q →
      seen[j]? = some q ∨ j = seen.length ∧ q = position := by
    intro j q hj
    rcases Nat.lt_or_ge j seen.length with hlt | hge
    · rw [List.getElem?_append_left hlt] at hj
      exact Or.inl hj
    · rw [List.getElem?_append_right hge] at hj
      obtain ⟨hlt, rfl⟩ := List.getElem?_eq_some_iff.mp hj
      rw [List.length_singleton] at hlt
      exact Or.inr ⟨by omega, List.mem_singleton.mp (List.getElem_mem _)⟩
  refine ⟨?_, ?_, ?_⟩
  · rw [t.index_count, h.index, List.length_append]
    rfl
  · intro j q hj
    rcases hlast j q hj with hj | ⟨rfl, rfl⟩
    · obtain ⟨w, hw, hfresh, hstale⟩ := h.decided j q hj
      refine ⟨w, hw, fun mark evidenceAt he => ?_, fun mark blocked he => ?_⟩
      · rw [hkeep q (List.mem_of_getElem? hj)]
        exact hfresh mark evidenceAt he
      · exact lt_of_lt_of_le (hstale mark blocked he) (t.stalePositions_count position v)
    · refine ⟨v, hv, ?_, ?_⟩
      · rintro mark evidenceAt rfl
        exact Dict.get?_set_self _ _ _
      · rintro mark blocked rfl
        exact Nat.succ_pos _
  · intro p evidenceAt hp
    have hold : t.freshPositionEvidence.get? p = some evidenceAt →
        ∃ j q mark, (seen ++ [position])[j]? = some q ∧ q.positionId = p
          ∧ ctx.verdict j q = .ok (.fresh mark evidenceAt) := by
      intro hp
      obtain ⟨j, q, mark, hj, hq, hverdict⟩ := h.evidence p evidenceAt hp
      refine ⟨j, q, mark, ?_, hq, hverdict⟩
      rw [List.getElem?_append_left (List.getElem?_eq_some_iff.mp hj).1]
      exact hj
    rw [t.freshPositionEvidence_count] at hp
    split at hp
    · rename_i mark at'
      by_cases hsame : position.positionId = p
      · rw [hsame, Dict.get?_set_self, Option.some.injEq] at hp
        subst hp
        exact ⟨seen.length, position, mark, by simp, hsame, hv⟩
      · rw [Dict.get?_set_of_ne _ _ hsame] at hp
        exact hold hp
    · exact hold hp

/-- **Accumulators.** A loop that ended has decided every position. -/
theorem account_over {positions : List CanonicalPaperPosition}
    (hnodup : (positions.map (fun position => position.positionId)).Nodup)
    (h : ctx.account positions .start = .ok t) : t.Over ctx positions := by
  suffices hall : (positions.map (fun position => position.positionId)).Nodup → t.Over ctx positions
    by exact hall hnodup
  refine foldlM_invariant (P := fun seen t =>
    (seen.map (fun position => position.positionId)).Nodup → t.Over ctx seen) ?_ ?_ h
  · intro seen t position t' hover hstep hnodup
    obtain ⟨v, hv, hstep⟩ := bind_eq_ok hstep
    injection hstep with hstep
    subst hstep
    rw [List.map_append, List.nodup_append] at hnodup
    refine (hover hnodup.1).count hv (fun q hq => ?_)
    exact hnodup.2.2 _ (List.mem_map_of_mem hq) _ (List.mem_map_of_mem (List.mem_singleton.mpr rfl))
  · intro _
    exact ⟨rfl, fun j position hj => (by cases hj), fun p evidenceAt hp => (by cases hp)⟩

/-- The closes of a loop that ended include those of all its verdicts. -/
theorem mem_closes_of_account {positions : List CanonicalPaperPosition} {t t' : Accounting}
    (h : ctx.account positions t = .ok t') {j : ℕ} (hj : positions[j]? = some position)
    {outcome : Option PaperAllocationOutcome} {e : CanonicalPortfolioEvent}
    (hv : ctx.verdict (t.index + j) position = .ok (.close outcome e)) :
    e ∈ ctx.closes t.index positions := by
  induction positions generalizing t j with
  | nil => cases hj
  | cons first rest ih =>
    rw [account, List.foldlM_cons] at h
    obtain ⟨t₁, hfirst, h⟩ := bind_eq_ok h
    obtain ⟨v, hverdict, ht₁⟩ := bind_eq_ok hfirst
    injection ht₁ with ht₁
    subst ht₁
    rw [closes, hverdict]
    show e ∈ v.close?.toList ++ ctx.closes (t.index + 1) rest
    rw [List.mem_append]
    cases j with
    | zero =>
      obtain rfl : first = position := Option.some.inj hj
      rw [Nat.add_zero, hverdict, Except.ok.injEq] at hv
      subst hv
      exact Or.inl (List.mem_singleton.mpr rfl)
    | succ j =>
      right
      rw [← Accounting.index_count t first v]
      refine ih h hj ?_
      rw [Accounting.index_count, Nat.add_assoc, Nat.add_comm 1 j]
      exact hv

end CycleContext

/-! ### The settlement half -/

section Cycle

variable {R : Runtime} {n : ℕ} {input : CycleInput} {s₀ : PortfolioStore}

/-- The accounting loop ends with the accumulators of its verdicts. -/
theorem spec_accountLoop (ctx : CycleContext) (positions : List CanonicalPaperPosition)
    (t : CycleContext.Accounting) (P : PortfolioStore → Prop) :
    Spec P (positions.foldlM ctx.accountPosition t) (fun _ _ => True)
      (fun t' _ => ctx.account positions t = .ok t') := by
  refine Spec.pre (spec_foldlM (J := fun seen t' _ => ctx.account seen t = .ok t') ?_ t)
    (fun _ _ => rfl)
  intro seen position rest t' _
  refine spec_block (fun _ _ => trivial) (fun s t'' ht hrun => ?_)
  have hstep := ctx.accountPosition_run t' position s
  rw [CycleContext.account, List.foldlM_append]
  rw [CycleContext.account] at ht
  rw [ht]
  show (do return t'.count position (← ctx.verdict t'.index position)) >>= pure = _
  cases hv : ctx.verdict t'.index position with
  | error raised =>
    rw [hv] at hstep
    rw [hstep.1] at hrun
    cases hrun
  | ok v =>
    rw [hv] at hstep
    rw [hstep.1] at hrun
    exact hrun

/-- **Settlement half.** What it hands on are the accumulators of the loop over the
    positions of the account. -/
theorem settlementHalf_account (h : Sound R n s₀) {half : SettlementHalf}
    (hhalf : (settlementHalf R n input s₀).2 = .ok half) :
    input.collected = .ok half.snapshot ∧ ∃ ctx positions,
      accountingContext R n input s₀ = .ok (ctx, positions)
      ∧ ctx.account positions .start = .ok half.accounting := by
  obtain ⟨ws, hgenesis, -, hevents, hsnapshots, hledger⟩ := ensureGenesis_sound input h
  -- The loop runs over the account of the log with its genesis event.
  have hloop : ∀ snapshot, input.collected = .ok snapshot →
      Spec (fun s => s = commitAll s₀ ws) (accountPositions R n input snapshot) (fun _ _ => True)
        (fun t _ => ∃ ctx positions, accountingContext R n input s₀ = .ok (ctx, positions)
          ∧ ctx.account positions .start = .ok t) := by
    intro snapshot hcollected
    obtain ⟨state, hstate, hcurrent⟩ := currentState_run (s := commitAll s₀ ws)
      (hevents ▸ hledger) (R.uuid4 n .genesis) snapshot.completedAt
    have hctx : accountingContext R n input s₀ = .ok (CycleContext.start R n input snapshot
        (accountedEvents R n input s₀), state.positions) := by
      rw [accountingContext, hcollected, ← hevents, ← hsnapshots]
      show (accountState _ _ _ >>= fun state => _) = _
      rw [hstate]
      rfl
    refine spec_block (fun _ _ => trivial) ?_
    rintro _ t rfl ht
    rw [accountPositions, run_bind_of_silent hcurrent, run_get_bind] at ht
    refine ⟨_, _, hctx, ?_⟩
    rw [← hevents]
    exact (spec_accountLoop _ _ _ (fun _ => True)).post _ t trivial ht
  have hspec : Spec (fun s => s = s₀) (settlementHalf R n input) (fun _ _ => True)
      (fun half _ => input.collected = .ok half.snapshot ∧ ∃ ctx positions,
        accountingContext R n input s₀ = .ok (ctx, positions)
          ∧ ctx.account positions .start = .ok half.accounting) := by
    refine spec_bind (Q := fun _ s => s = commitAll s₀ ws)
      (spec_block (fun _ _ => trivial) ?_) (fun _ => spec_bind spec_get (fun s => ?_))
    · rintro _ _ rfl -
      rw [Prog.final, hgenesis]
    refine spec_bind (spec_lift _) (fun snapshot => spec_of_fact (fun hcollected => ?_))
    refine spec_bind ((hloop snapshot hcollected).pre (fun _ hs => hs.1)) (fun t => ?_)
    refine spec_bind (spec_fact _) (fun afterClose => spec_bind spec_get (fun s => ?_))
    refine spec_bind ((spec_fact _).pre (fun _ hs => hs.1)) (fun _ => (spec_pure _).pre ?_)
    exact fun _ ht => ⟨hcollected, ht⟩
  exact hspec.post s₀ half rfl hhalf

end Cycle

end InefficiencyEngine.Portfolio
