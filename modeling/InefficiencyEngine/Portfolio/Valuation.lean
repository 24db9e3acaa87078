import InefficiencyEngine.Portfolio.Accounting
import InefficiencyEngine.Portfolio.Evidence
import InefficiencyEngine.Portfolio.OpeningDiscipline

namespace InefficiencyEngine.Portfolio

open Prog

/-!
# Fresh valuations

A cycle notes for each position it values the time of the evidence it used, and reports
its account as fresh when it could value them all.  `Valued` relates what it has noted to
the log after each of its steps: the notes are about exactly the listed positions already
dealt with, and none is older than the evidence recorded for its position.  A position
with settlement legs is marked at the quotes its legs have now without a look at that
evidence, so the last part needs quotes in order of time.
-/

/-! ### Evidence and listed positions over one event -/

section Append

variable {events : List CanonicalPortfolioEvent} {e : CanonicalPortfolioEvent} {p : Uuid}

/-- An event about another position, or without evidence, records none for this one. -/
theorem recordedEvidence_append_of_ne (h : e.positionId = some p → e.evidence? = none) :
    recordedEvidence (events ++ [e]) p = recordedEvidence events p := by
  have hnone : (if e.positionId = some p then e.evidence? else none) = none := by
    split
    · rename_i hid
      exact h hid
    · rfl
  rw [recordedEvidence_append, hnone]
  exact List.append_nil _

/-- An event about another position leaves the latest evidence of this one. -/
theorem get?_latest_append_of_ne (h : e.positionId ≠ some p) :
    (latestPositionEvidenceTimes (events ++ [e])).get? p
      = (latestPositionEvidenceTimes events).get? p := by
  rw [latest_append]
  split
  · rename_i q observedAt hid _
    exact Dict.get?_set_of_ne _ _ (fun hq => h (by rw [hid, hq]))
  · rename_i q hid _
    split
    · rw [Dict.get?_erase, if_neg (fun hq => h (by rw [hid, hq]))]
    · rfl
  · rfl

/-- A listed position stays listed over an event that does not open and does not close it. -/
theorem mem_listedItems_append {f : CanonicalPortfolioEvent}
    (h : (p, f) ∈ (replay events).listedItems) (hopen : e.eventType ≠ .open)
    (hclose : e.eventType = .close → e.positionId ≠ some p) :
    (p, f) ∈ (replay (events ++ [e])).listedItems := by
  rw [Replay.listedItems, List.mem_filter] at h ⊢
  exact ⟨Replay.mem_openItems.mpr (isOpen_append (Replay.mem_openItems.mp h.1) hopen hclose), h.2⟩

theorem isOpen_of_mem_listedItems {f : CanonicalPortfolioEvent}
    (h : (p, f) ∈ (replay events).listedItems) : (replay events).IsOpen p f :=
  Replay.mem_openItems.mp (List.mem_of_mem_filter h)

end Append

/-! ### The notes of a cycle -/

/-- The log within a cycle that has still to deal with the positions `pending`, counted
    `stale` positions it could not value and noted the evidence `fresh` of the others.
    `prior` is the latest evidence when it started; `orderly` is what the order of the notes
    depends on. -/
structure Valued (orderly : Prop) (prior : Dict Uuid Instant) (pending : List Uuid) (stale : ℕ)
    (fresh : Dict Uuid Instant) (events : List CanonicalPortfolioEvent) : Prop where
  log : EvidenceLog events
  unmoved : ∀ p ∈ pending, (latestPositionEvidenceTimes events).get? p = prior.get? p
  unnoted : ∀ p ∈ pending, fresh.get? p = none
  awaited : ∀ p ∈ pending, ∃ e, (p, e) ∈ (replay events).listedItems
  newest : orderly → ∀ p evidenceAt, fresh.get? p = some evidenceAt →
    ∀ x ∈ recordedEvidence events p, x ≤ evidenceAt
  decided : ∀ item ∈ (replay events).listedItems,
    item.1 ∈ pending ∨ (∃ evidenceAt, fresh.get? item.1 = some evidenceAt) ∨ 0 < stale
  listed : orderly → ∀ p evidenceAt, fresh.get? p = some evidenceAt →
    ∃ e, (p, e) ∈ (replay events).listedItems

namespace Valued

variable {orderly : Prop} {prior fresh : Dict Uuid Instant} {pending rest : List Uuid}
  {stale : ℕ} {events : List CanonicalPortfolioEvent} {e f : CanonicalPortfolioEvent}
  {p : Uuid} {evidenceAt : Instant}

/-- **Recorded event.** An event about a position dealt with keeps the notes, unless it
    closes a noted position or records newer evidence than the note. -/
theorem append (h : Valued orderly prior pending stale fresh events) (hstep : EvidenceStep events e)
    (hopen : e.eventType ≠ .open) (hrest : rest ⊆ pending)
    (hdone : ∀ item ∈ (replay (events ++ [e])).listedItems, item.1 ∈ pending → item.1 ∈ rest)
    (hid : ∀ q ∈ rest, e.positionId ≠ some q)
    (hclose : e.eventType = .close → ∀ q, e.positionId = some q → fresh.get? q = none)
    (hevidence : ∀ q x, e.positionId = some q → e.evidence? = some x →
      ∀ noted, fresh.get? q = some noted → x ≤ noted) :
    Valued orderly prior rest stale fresh (events ++ [e]) := by
  refine ⟨h.log.append hstep, ?_, fun q hq => h.unnoted q (hrest hq), ?_, ?_, ?_, ?_⟩
  -- the evidence before the cycle of a position still pending
  · intro q hq
    rw [get?_latest_append_of_ne (hid q hq)]
    exact h.unmoved q (hrest hq)
  -- a pending position stays listed, as the event names another one
  · intro q hq
    obtain ⟨g, hg⟩ := h.awaited q (hrest hq)
    exact ⟨g, mem_listedItems_append hg hopen (fun _ => hid q hq)⟩
  -- the recorded evidence grows at most by that of the event
  · intro horderly q noted hq x hx
    rw [recordedEvidence_append, List.mem_append, Option.mem_toList] at hx
    rcases hx with hx | hx
    · exact h.newest horderly q noted hq x hx
    · split at hx
      · rename_i heq
        exact hevidence q x heq hx noted hq
      · cases hx
  -- what was decided stays so
  · intro item hitem
    rcases h.decided item ((listedItems_append hopen).subset hitem) with hmem | hnoted
    · exact Or.inl (hdone item hitem hmem)
    · exact Or.inr hnoted
  -- a noted position is not the one closed
  · intro horderly q noted hq
    obtain ⟨g, hg⟩ := h.listed horderly q noted hq
    refine ⟨g, mem_listedItems_append hg hopen (fun htype heq => ?_)⟩
    rw [hclose htype q heq] at hq
    cases hq

/-- A close deals with its position. -/
theorem close (h : Valued orderly prior (p :: rest) stale fresh events) (hp : p ∉ rest)
    (hid : e.positionId = some p) (htype : e.eventType = .close) :
    Valued orderly prior rest stale fresh (events ++ [e]) := by
  have hsame : ∀ q, e.positionId = some q → p = q := fun q hq => Option.some.inj (hid.symm.trans hq)
  refine h.append (.closing p hid htype) (by rw [htype]; decide) (List.subset_cons_self p rest)
    ?_ ?_ ?_ ?_
  · intro item hitem hmem
    rcases List.mem_cons.mp hmem with heq | hmem
    · have hopen : (replay (events ++ [e])).IsOpen item.1 item.2 := isOpen_of_mem_listedItems hitem
      rw [heq] at hopen
      exact absurd hopen (not_isOpen_append_close hid htype _)
    · exact hmem
  · intro q hq heq
    rw [hsame q heq] at hp
    exact hp hq
  · intro _ q hq
    rw [← hsame q hq]
    exact h.unnoted p List.mem_cons_self
  · intro q x _ hx
    rw [CanonicalPortfolioEvent.evidence?, htype] at hx
    cases hx

/-- A mark of a position dealt with is not newer than its note. -/
theorem mark (h : Valued orderly prior pending stale fresh events) (hp : p ∉ pending)
    (hid : e.positionId = some p) (htype : e.eventType = .mark) (hopen : (replay events).IsOpen p f)
    (hnewer : ∀ latest, (latestPositionEvidenceTimes events).get? p = some latest →
      latest ≤ e.observedAt)
    (hnoted : ∀ noted, fresh.get? p = some noted → e.observedAt ≤ noted) :
    Valued orderly prior pending stale fresh (events ++ [e]) := by
  have hsame : ∀ q, e.positionId = some q → p = q := fun q hq => Option.some.inj (hid.symm.trans hq)
  refine h.append (.marking p f hid htype hopen hnewer) (by rw [htype]; decide)
    (List.Subset.refl _) (fun _ _ hmem => hmem) ?_ ?_ ?_
  · intro q hq heq
    rw [hsame q heq] at hp
    exact hp hq
  · intro hclose
    rw [htype] at hclose
    cases hclose
  · intro q x hq hx noted hnote
    rw [evidence?_mark htype, Option.some.injEq] at hx
    rw [← hx]
    rw [← hsame q hq] at hnote
    exact hnoted noted hnote

/-- A skip changes nothing. It is about no listed position. -/
theorem skip (h : Valued orderly prior [] stale fresh events) (htype : e.eventType = .skip) :
    Valued orderly prior [] stale fresh (events ++ [e]) := by
  refine h.append (.other (Or.inr htype)) (by rw [htype]; decide) (List.Subset.refl _)
    (fun _ _ hmem => hmem) (fun q hq => by cases hq) ?_ ?_
  · intro hclose
    rw [htype] at hclose
    cases hclose
  · intro q x _ hx
    rw [CanonicalPortfolioEvent.evidence?, htype] at hx
    cases hx

/-- A listed position is valued on evidence not older than what it had. -/
theorem value (h : Valued orderly prior (p :: rest) stale fresh events) (hp : p ∉ rest)
    (hforward : orderly → ∀ latest, prior.get? p = some latest → latest ≤ evidenceAt) :
    Valued orderly prior rest stale (fresh.set p evidenceAt) events := by
  have hset : ∀ {q}, p ≠ q → (fresh.set p evidenceAt).get? q = fresh.get? q :=
    fun hpq => Dict.get?_set_of_ne _ _ hpq
  obtain ⟨f, hlisted⟩ := h.awaited p List.mem_cons_self
  refine ⟨h.log, fun q hq => h.unmoved q (List.mem_cons_of_mem p hq), ?_,
    fun q hq => h.awaited q (List.mem_cons_of_mem p hq), ?_, ?_, ?_⟩
  -- the other positions are pending as before
  · intro q hq
    rw [hset (fun heq => hp (heq ▸ hq))]
    exact h.unnoted q (List.mem_cons_of_mem p hq)
  -- the noted evidence of the position itself is the newest recorded for it
  · intro horderly q noted hq x hx
    by_cases hpq : p = q
    · subst hpq
      rw [Dict.get?_set_self, Option.some.injEq] at hq
      obtain ⟨latest, hlatest⟩ := h.log.known p f (isOpen_of_mem_listedItems hlisted)
      rw [← hq]
      refine (h.log.newest p latest hlatest x hx).trans (hforward horderly latest ?_)
      rw [← h.unmoved p List.mem_cons_self, hlatest]
    · rw [hset hpq] at hq
      exact h.newest horderly q noted hq x hx
  -- the position leaves the pending ones by being noted
  · intro item hitem
    by_cases hitemp : p = item.1
    · exact Or.inr (Or.inl ⟨evidenceAt, hitemp ▸ Dict.get?_set_self _ _ _⟩)
    · rw [hset hitemp]
      refine (h.decided item hitem).imp (fun hmem => ?_) id
      exact (List.mem_cons.mp hmem).resolve_left (fun heq => hitemp heq.symm)
  -- a noted position is listed
  · intro horderly q noted hq
    by_cases hpq : p = q
    · exact ⟨f, hpq ▸ hlisted⟩
    · rw [hset hpq] at hq
      exact h.listed horderly q noted hq

/-- A position without evidence is counted as stale. -/
theorem pass (h : Valued orderly prior (p :: rest) stale fresh events) :
    Valued orderly prior rest (stale + 1) fresh events where
  log := h.log
  unmoved q hq := h.unmoved q (List.mem_cons_of_mem p hq)
  unnoted q hq := h.unnoted q (List.mem_cons_of_mem p hq)
  awaited q hq := h.awaited q (List.mem_cons_of_mem p hq)
  newest := h.newest
  decided _ _ := Or.inr (Or.inr (Nat.succ_pos stale))
  listed := h.listed

/-- An opening is noted with the evidence it records. The position is new, so no evidence of it
    was recorded before, and what is noted about it is the evidence of its opening. -/
theorem opening {R : Runtime} {n : ℕ} (h : Valued orderly prior [] stale fresh events)
    (hledger : Ledger R n events) (hid : e.positionId = some p) (htype : e.eventType = .open)
    (hfresh : (replay events).opened.get? p = none) (hevidence : e.evidence? = some evidenceAt)
    (htexts : orderly → e.hasTexts = true) :
    Valued orderly prior [] stale (fresh.set p evidenceAt) (events ++ [e]) := by
  have hlisted := listedItems_open hledger htype hid hfresh
  have hset : ∀ {q}, p ≠ q → (fresh.set p evidenceAt).get? q = fresh.get? q :=
    fun hpq => Dict.get?_set_of_ne _ _ hpq
  refine ⟨h.log.append (.opening p hid htype hfresh), fun q hq => (by cases hq),
    fun q hq => (by cases hq), fun q hq => (by cases hq), ?_, ?_, ?_⟩
  -- the newest evidence of the new position is its own, and the others keep theirs
  · intro horderly q noted hq x hx
    by_cases hpq : p = q
    · subst hpq
      rw [Dict.get?_set_self, Option.some.injEq] at hq
      rw [recordedEvidence_append, h.log.unopened p hfresh, List.nil_append, if_pos hid, hevidence]
        at hx
      rw [← hq]
      exact (List.mem_singleton.mp hx).le
    · rw [hset hpq] at hq
      rw [recordedEvidence_append_of_ne
        (fun heq => absurd (Option.some.inj (hid.symm.trans heq)) hpq)] at hx
      exact h.newest horderly q noted hq x hx
  -- every listed position is noted, the new one included
  · intro item hitem
    rw [hlisted, List.mem_append] at hitem
    by_cases hitemp : p = item.1
    · exact Or.inr (Or.inl ⟨evidenceAt, hitemp ▸ Dict.get?_set_self _ _ _⟩)
    · rw [hset hitemp]
      rcases hitem with hitem | hitem
      · exact h.decided item hitem
      · split at hitem
        · rw [List.mem_singleton.mp hitem] at hitemp
          exact absurd rfl hitemp
        · cases hitem
  -- every noted position is listed
  · intro horderly q noted hq
    rw [hlisted]
    by_cases hpq : p = q
    · refine ⟨e, List.mem_append_right _ ?_⟩
      rw [if_pos (htexts horderly), hpq]
      exact List.mem_singleton.mpr rfl
    · rw [hset hpq] at hq
      obtain ⟨g, hg⟩ := h.listed horderly q noted hq
      exact ⟨g, List.mem_append_left _ hg⟩

end Valued

/-! ### Verdicts -/

/-- When the oldest of the quotes of a trial's legs was observed, if they are all quoted. -/
def CycleContext.legsQuotedAt (ctx : CycleContext) (trial : PaperAllocationTrial) :
    Option Instant := do
  let quotes ← legQuotes ctx.runtime.upper (portfolioQuoteIndex ctx.runtime.upper ctx.snapshot)
    trial.settlementLegs
  (quotes.map (fun p => p.2.observedAt)).min?

/-- The quotes of a position's legs are not older than the evidence it was last valued on,
    when the position is not due and could be marked at them. -/
def CycleContext.Forward (ctx : CycleContext) (position : CanonicalPaperPosition) : Prop :=
  ∀ trial sourceAt evidenceAt, ctx.positionTrial position = some trial →
    isUniversal trial = true → ctx.snapshot.completedAt < position.dueAt →
    trial.sourceObservedAt = some sourceAt → ctx.legsQuotedAt trial = some evidenceAt →
    (fundingRows ctx.runtime.upper ctx.input.evidence sourceAt
      (min evidenceAt (trial.dueAt.getD evidenceAt)) trial.settlementLegs).isSome →
    ctx.priorEvidenceAt position ≤ evidenceAt

section Verdict

variable {orderly : Prop} {ctx : CycleContext} {position : CanonicalPaperPosition}
  {rest : List Uuid} {stale : ℕ} {fresh : Dict Uuid Instant}
  {events : List CanonicalPortfolioEvent}

/-- The latest evidence of a position is the one read at the start of the cycle. -/
theorem CycleContext.priorEvidenceAt_eq {latest : Instant}
    (h : ctx.priorEvidence.get? position.positionId = some latest) :
    ctx.priorEvidenceAt position = latest := by
  rw [priorEvidenceAt, h]
  rfl

/-- A mark is recorded when it is newer than what the ledger has. -/
theorem Valued.newerMark (h : Valued orderly ctx.priorEvidence rest stale fresh events)
    (hp : position.positionId ∉ rest) {f mark : CanonicalPortfolioEvent}
    (hopen : (replay events).IsOpen position.positionId f)
    (hprior : (latestPositionEvidenceTimes events).get? position.positionId
      = ctx.priorEvidence.get? position.positionId)
    (hid : mark.positionId = some position.positionId) (htype : mark.eventType = .mark)
    (hnoted : ∀ noted, fresh.get? position.positionId = some noted → mark.observedAt ≤ noted) :
    Valued orderly ctx.priorEvidence rest stale fresh
      (events ++ (ctx.newerMark position mark).toList) := by
  cases hnewer : ctx.newerMark position mark with
  | none =>
    show Valued orderly ctx.priorEvidence rest stale fresh (events ++ [])
    rw [List.append_nil]
    exact h
  | some e =>
    obtain ⟨rfl, hlt⟩ := CycleContext.newerMark_eq_some hnewer
    refine h.mark hp hid htype hopen (fun latest hlatest => ?_) hnoted
    rw [hprior] at hlatest
    rw [← CycleContext.priorEvidenceAt_eq hlatest]
    exact hlt.le

/-- **Verdict.** A verdict and the event it records deal with its position. A verdict that
    settles, closes, marks or leaves a position stale takes it off the pending ones, with the
    evidence it noted no older than what was noted before. -/
theorem Valued.count {t : CycleContext.Accounting} {i : ℕ} {v : CycleContext.Verdict}
    (h : Valued orderly ctx.priorEvidence (position.positionId :: rest) t.stalePositions
      t.freshPositionEvidence events) (hp : position.positionId ∉ rest)
    (hv : ctx.verdict i position = .ok v) (hforward : orderly → ctx.Forward position) :
    Valued orderly ctx.priorEvidence rest (t.count position v).stalePositions
      (t.count position v).freshPositionEvidence (events ++ v.event?.toList) := by
  obtain ⟨f, hlisted⟩ := h.awaited position.positionId List.mem_cons_self
  have hopen := isOpen_of_mem_listedItems hlisted
  have hprior := h.unmoved position.positionId List.mem_cons_self
  have hself : ∀ evidenceAt noted, (t.freshPositionEvidence.set position.positionId
      evidenceAt).get? position.positionId = some noted → evidenceAt ≤ noted := by
    intro evidenceAt noted hnoted
    rw [Dict.get?_set_self, Option.some.injEq] at hnoted
    exact hnoted.le
  cases CycleContext.verdict_decides hv with
  | settled outcome => exact h.close hp rfl rfl
  | closed quote => exact h.close hp rfl rfl
  -- a mark from exit prices: the quotes are not older than the evidence before, if the cycle is
  -- orderly
  | marked trial htrial huniversal hdue mark hmark =>
    obtain ⟨-, htype, hid, sourceAt, quotes, hsource, hquotes, hevidence, hfunding⟩ :=
      CycleContext.markUniversal_eq_some hmark
    have hvalued : Valued orderly ctx.priorEvidence rest t.stalePositions
        (t.freshPositionEvidence.set position.positionId mark.observedAt) events := by
      refine h.value hp (fun horderly latest hlatest => ?_)
      rw [← CycleContext.priorEvidenceAt_eq hlatest]
      refine hforward horderly trial sourceAt _ htrial huniversal hdue hsource ?_ hfunding
      rw [CycleContext.legsQuotedAt, hquotes]
      exact hevidence
    exact hvalued.newerMark hp hopen hprior hid htype (hself _)
  -- a mark from a quote: the branch of the source compares it with the evidence before
  | quoted quote hquote =>
    have hvalued : Valued orderly ctx.priorEvidence rest t.stalePositions
        (t.freshPositionEvidence.set position.positionId quote.observedAt) events := by
      refine h.value hp (fun _ latest hlatest => ?_)
      rw [← CycleContext.priorEvidenceAt_eq hlatest]
      exact hquote
    exact hvalued.newerMark hp hopen hprior rfl rfl (hself _)
  -- a mark without newer evidence notes nothing
  | awaiting quote =>
    refine h.pass.newerMark hp hopen hprior rfl rfl (fun noted hnoted => ?_)
    rw [h.unnoted position.positionId List.mem_cons_self] at hnoted
    cases hnoted
  | stale blocked =>
    show Valued orderly ctx.priorEvidence rest (t.stalePositions + 1) t.freshPositionEvidence
      (events ++ [])
    rw [List.append_nil]
    exact h.pass

end Verdict

/-! ### The loops -/

/-- The call sites a cycle has used after `i` positions and `j` allocations. -/
def UsedBy (i j : ℕ) : Draw → Prop
  | .accountingEvent k => k < i
  | .allocationEvent k => k < j
  | _ => True

theorem UsedBy.mono {i i' j j' : ℕ} (hi : i ≤ i') (hj : j ≤ j') {draw : Draw}
    (h : UsedBy i j draw) : UsedBy i' j' draw := by
  cases draw with
  | accountingEvent k => exact lt_of_lt_of_le h hi
  | allocationEvent k => exact lt_of_lt_of_le h hj
  | _ => exact h

/-- Blocks after each of whose writes the log has its evidence in order. -/
def KeepsEvidence (s : PortfolioStore) (block : List Write) : Prop :=
  Along.Keeps (fun t : PortfolioStore => EvidenceLog t.events) s block

theorem Quiet.keepsEvidence {ws : List Write} (h : Quiet ws) (s : PortfolioStore) :
    KeepsEvidence s ws := by
  intro hs k
  have hsame : (commitAll s (ws.take k)).events = s.events :=
    congrArg (List.map EventRow.event) ((h.take k).rows s)
  show EvidenceLog (commitAll s (ws.take k)).events
  rw [hsame]
  exact hs

/-- A block that records one event among quiet writes. -/
theorem keepsEvidence_event {R : Runtime} {pre post : List Write} {s s' : PortfolioStore}
    {e : CanonicalPortfolioEvent} (hpre : Quiet pre) (hpost : Quiet post)
    (h : EvidenceLog (Durable.commit s (eventWrite R s' e)).events) :
    KeepsEvidence s (pre ++ eventWrite R s' e :: post) := by
  intro hs k
  show EvidenceLog (commitAll s _).events
  rcases events_take hpre hpost s s' e k with heq | heq <;> rw [heq]
  · exact hs
  · exact h

namespace CycleContext

variable (ctx : CycleContext)

/-- The event of a verdict is one of the canonical portfolio. -/
theorem portfolioId_of_verdict {i : ℕ} {position : CanonicalPaperPosition} {v : Verdict}
    {e : CanonicalPortfolioEvent} (hv : ctx.verdict i position = .ok v) (he : v.event? = some e) :
    e.portfolioId = canonicalPortfolioId := by
  cases v with
  | close outcome f =>
    obtain rfl : f = e := Option.some.inj he
    exact (ctx.verdict_close_event hv).2.2.2.2.2
  | fresh mark evidenceAt => exact (ctx.verdict_mark hv he).2.2.2
  | stale mark blocked => exact (ctx.verdict_mark hv he).2.2.2

/-- The writes of a verdict: its event, if it records one, after quiet ones. -/
theorem performVerdict_writes {i : ℕ} {position : CanonicalPaperPosition} {v : Verdict}
    (hv : ctx.verdict i position = .ok v) (s : PortfolioStore) :
    ∃ pre, Quiet pre ∧ performVerdict ctx.runtime v s
      = (pre ++ (v.event?.map (eventWrite ctx.runtime s)).toList, .ok ()) := by
  have hmark : ∀ mark : Option CanonicalPortfolioEvent,
      (∀ e, mark = some e → e.portfolioId = canonicalPortfolioId) →
      recordOptional ctx.runtime mark s
        = ((mark.map (eventWrite ctx.runtime s)).toList, .ok ()) := by
    intro mark hportfolio
    cases mark with
    | none => rfl
    | some e => exact recordEvent_run (hportfolio e rfl)
  have hnil : Quiet [] := fun w hw => by cases hw
  cases v with
  | close outcome e =>
    exact ⟨_, quiet_outcome outcome,
      performVerdict_close_run (ctx.portfolioId_of_verdict hv rfl)⟩
  | fresh mark evidenceAt =>
    exact ⟨[], hnil, hmark mark (fun e he => ctx.portfolioId_of_verdict hv he)⟩
  | stale mark blocked =>
    exact ⟨[], hnil, hmark mark (fun e he => ctx.portfolioId_of_verdict hv he)⟩

/-- The writes of an iteration: the trial again, then those of the verdict. -/
theorem accountPosition_writes (t : Accounting) (position : CanonicalPaperPosition)
    (s : PortfolioStore) :
    match ctx.verdict t.index position with
    | .error raised => ∃ ws, Quiet ws ∧ ctx.accountPosition t position s = (ws, .error raised)
    | .ok v => ∃ pre, Quiet pre ∧ ctx.accountPosition t position s
        = (pre ++ (v.event?.map (eventWrite ctx.runtime s)).toList, .ok (t.count position v)) := by
  -- a trial written again touches no event
  have hquiet : Quiet ((ctx.positionTrial position).map Write.trial).toList := by
    cases ctx.positionTrial position with
    | none => exact fun w hw => by cases hw
    | some trial => exact quiet_trial trial
  -- and the table of trials is not part of the log
  have hsame : commitAll s ((ctx.positionTrial position).map Write.trial).toList = s := by
    cases ctx.positionTrial position <;> rfl
  have hrun : ctx.accountPosition t position s = _ :=
    run_bind_of_ok (f := fun _ => Prog.lift (ctx.verdict t.index position) >>= fun v =>
      performVerdict ctx.runtime v >>= fun _ => pure (t.count position v))
      (rfl : writeOption ((ctx.positionTrial position).map Write.trial) s = (_, .ok ()))
  rw [hsame] at hrun
  cases hv : ctx.verdict t.index position with
  | error raised =>
    refine ⟨_, hquiet, ?_⟩
    rw [hrun, hv]
    exact congrArg (fun ws => (ws, _)) (List.append_nil _)
  -- the verdict's own writes follow
  | ok v =>
    obtain ⟨pre, hpre, hwrites⟩ := ctx.performVerdict_writes hv s
    refine ⟨((ctx.positionTrial position).map Write.trial).toList ++ pre, ?_, ?_⟩
    · intro w hw
      exact (List.mem_append.mp hw).elim (hquiet w) (hpre w)
    · rw [hrun, hv, run_lift_ok_bind, run_bind_of_ok hwrites]
      simp only [run_pure, List.append_nil, List.append_assoc]

end CycleContext

section Loops

variable {R : Runtime} {n : ℕ} {input : CycleInput} {orderly : Prop} {ctx : CycleContext}
  {position : CanonicalPaperPosition} {rest : List Uuid}

/-- **One position.** The verdict on the position decides what is noted and what is recorded;
    the log, the noted times and the pending positions move together, which is the invariant of
    the loop. -/
theorem spec_accountPosition_valued (hruntime : ctx.runtime = R) (hrun : ctx.run = n)
    (t : CycleContext.Accounting) (hp : position.positionId ∉ rest)
    (hforward : orderly → ctx.Forward position) :
    Spec (fun s => IdsDrawn R n (UsedBy t.index 0) s ∧ Valued orderly ctx.priorEvidence
        (position.positionId :: rest) t.stalePositions t.freshPositionEvidence s.events)
      (ctx.accountPosition t position) KeepsEvidence
      (fun t' s => IdsDrawn R n (UsedBy t'.index 0) s ∧ Valued orderly ctx.priorEvidence rest
        t'.stalePositions t'.freshPositionEvidence s.events) := by
  subst hruntime
  subst hrun
  refine spec_of_forall (fun s hs => ?_)
  obtain ⟨hids, hvalued⟩ := hs
  have hwrites := ctx.accountPosition_writes t position s
  cases hv : ctx.verdict t.index position with
  -- the verdict raises: what was written before is quiet
  | error raised =>
    rw [hv] at hwrites
    obtain ⟨ws, hquiet, hrun⟩ := hwrites
    refine spec_block (fun u hu => ?_) (fun u t' hu ht' => ?_)
    · rw [hu, hrun]
      exact hquiet.keepsEvidence s
    · rw [hu, hrun] at ht'
      cases ht'
  | ok v =>
    rw [hv] at hwrites
    obtain ⟨pre, hpre, hrun⟩ := hwrites
    have hcounted := hvalued.count hp hv hforward
    have hnil : Quiet [] := fun w hw => by cases hw
    -- Whatever the verdict records, the log gets just that.
    suffices hend : KeepsEvidence s (ctx.accountPosition t position s).1
        ∧ (final (ctx.accountPosition t position) s).events = s.events ++ v.event?.toList
        ∧ IdsDrawn ctx.runtime ctx.run (UsedBy (t.index + 1) 0)
          (final (ctx.accountPosition t position) s) by
      obtain ⟨hkeeps, hevents, hdrawn⟩ := hend
      refine spec_block (fun u hu => hu ▸ hkeeps) (fun u t' hu ht' => ?_)
      rw [hu, hrun] at ht'
      injection ht' with ht'
      rw [hu, ← ht', hevents, CycleContext.Accounting.index_count]
      exact ⟨hdrawn, hcounted⟩
    have hfinal : final (ctx.accountPosition t position) s
        = commitAll s (pre ++ (v.event?.map (eventWrite ctx.runtime s)).toList) := by
      rw [Prog.final, hrun]
    rw [hfinal, hrun]
    cases he : v.event? with
    -- no event: the position is noted as stale
    | none =>
      have hevents : (commitAll s (pre ++ [])).events = s.events := by
        rw [List.append_nil]
        exact congrArg (List.map EventRow.event) (hpre.rows s)
      refine ⟨?_, hevents.trans (List.append_nil _).symm, ?_⟩
      · show KeepsEvidence s (pre ++ [])
        rw [List.append_nil]
        exact hpre.keepsEvidence s
      · show ∀ e ∈ (commitAll s (pre ++ [])).events, _
        rw [hevents]
        exact hids.mono (fun draw hdraw => hdraw.mono (Nat.le_succ _) le_rfl)
    -- one event with the id reserved for this index, and evidence of its position
    | some e =>
      rw [he] at hcounted
      obtain ⟨hevents, hdrawn⟩ := hids.record (ctx.event_of_verdict hv he).1
        (lt_irrefl t.index) (fun draw hdraw => hdraw.mono (Nat.le_succ _) le_rfl)
        (Nat.lt_succ_self t.index)
      have hafter : (commitAll s (pre ++ [eventWrite ctx.runtime s e])).events
          = (Durable.commit s (eventWrite ctx.runtime s e)).events := by
        rw [commitAll_append]
        show (insertEventRow (commitAll s pre).rows _).map EventRow.event
          = (insertEventRow s.rows _).map EventRow.event
        rw [hpre.rows s]
      refine ⟨keepsEvidence_event hpre hnil (hevents ▸ hcounted.log), hafter.trans hevents, ?_⟩
      show ∀ f ∈ (commitAll s (pre ++ [eventWrite ctx.runtime s e])).events, _
      rw [hafter]
      exact hdrawn

end Loops

end InefficiencyEngine.Portfolio
