import InefficiencyEngine.Portfolio.Closes
import InefficiencyEngine.Portfolio.Sample

namespace InefficiencyEngine.Portfolio

/-!
# Settlement evidence and the horizon

A due position is held back until its evidence has matured.  For a perpetual short the
check reads the *newest* quote of the instrument, while the settlement exits at the quote
listed *last*; for the other two methods check and exit read the same evidence.  So closes
stay behind the horizon exactly when, for every perpetual short that settles, the quote
listed last has matured too (`settledAfterHorizon_iff`).
-/

namespace CycleContext

variable (ctx : CycleContext)

/-! ### Exit evidence -/

/-- The book a leg of a two-leg trial is closed against. -/
def legBook (trial : PaperAllocationTrial) (leg : PaperSettlementLeg) : Option OrderBookSnapshot :=
  match ctx.settlementBooks trial with
  | .ok books =>
    (bookIndex ctx.runtime.upper { ctx.snapshot with orderBooks := books }).get?
      (leg.key ctx.runtime.upper)
  | .error _ => none

/-- The quote a perpetual short exits at. -/
def settlementQuote (trial : PaperAllocationTrial) : Option MarketQuote :=
  (trial.instrumentKey ctx.runtime.upper).bind
    (certificationQuoteIndex ctx.runtime.upper ctx.snapshot).get?

/-- The close event of a position takes its price from a quote observed at or after the
    horizon. -/
def ExitsAtQuote (position : CanonicalPaperPosition) (e : CanonicalPortfolioEvent)
    (quote : Option MarketQuote) : Prop :=
  ∃ q, quote = some q ∧ e.referencePrice = some q.mid ∧ position.dueAt ≤ q.observedAt

/-- The close event of a position takes its price from evidence at or after the horizon:
    a two-leg position from the book of each leg, a perpetual short from the quote it is
    settled at, any other position from its own quote. -/
def ExitsAfterHorizon (position : CanonicalPaperPosition) (e : CanonicalPortfolioEvent) : Prop :=
  match ctx.positionTrial position with
  | some trial =>
    if trial.settlementMethod = some multiLegSettlementMethod then
      ∀ leg ∈ trial.settlementLegs,
        ∃ book, ctx.legBook trial leg = some book ∧ position.dueAt ≤ book.observedAt
    else if trial.settlementMethod = some perpShortSettlementMethod then
      ExitsAtQuote position e (ctx.settlementQuote trial)
    else ExitsAtQuote position e (ctx.quoteFor position)
  | none => ExitsAtQuote position e (ctx.quoteFor position)

/-! ### Listed positions -/

/-- What a listed position and the trial of its opening have in common. -/
structure Lists (position : CanonicalPaperPosition) (trial : PaperAllocationTrial) : Prop where
  embedded : ctx.positionTrial position = some trial
  supported : trial.settlementSupported = true
  due : trial.dueAt = some position.dueAt
  method : trial.settlementMethod = some spotLongSettlementMethod
    ∨ trial.settlementMethod = some perpShortSettlementMethod
    ∨ trial.settlementMethod = some multiLegSettlementMethod
  perpShort : trial.settlementMethod = some perpShortSettlementMethod →
    trial.entryReferencePrice.isSome ∧ trial.modeledRoundtripCostReturn.isSome
      ∧ (∃ sourceAt, trial.sourceObservedAt = some sourceAt)
      ∧ (∃ leg, trial.settlementLegs = [leg])
      ∧ truthy trial.instrumentSymbol = true ∧ truthy trial.instrumentMarketKind = true
      ∧ trial.venues ≠ []

/-! ### When the loop raises -/

/-- Building the book requests of a due two-leg position raises, for a leg whose market
    kind is no market kind. -/
def Raises (position : CanonicalPaperPosition) : Prop :=
  ∃ trial, ctx.positionTrial position = some trial
    ∧ trial.settlementMethod = some multiLegSettlementMethod
    ∧ ctx.input.adapterRegistry.isSome ∧ position.dueAt ≤ ctx.snapshot.completedAt
    ∧ ∃ leg ∈ trial.settlementLegs, ∀ kind, MarketKind.parse leg.marketKind ≠ .ok kind

variable {ctx}

/-- The book requests of a trial are built unless a market kind is unknown. -/
theorem settlementBooks_ok_iff (trial : PaperAllocationTrial) :
    (∃ books, ctx.settlementBooks trial = .ok books)
      ↔ ¬ (trial.settlementMethod = some multiLegSettlementMethod
        ∧ ctx.input.adapterRegistry.isSome
        ∧ ∃ leg ∈ trial.settlementLegs, ∀ kind, MarketKind.parse leg.marketKind ≠ .ok kind) := by
  unfold settlementBooks
  by_cases hmethod : trial.settlementMethod = some multiLegSettlementMethod
  · rw [if_neg (not_not.mpr hmethod)]
    cases hregistry : ctx.input.adapterRegistry with
    | none => exact ⟨fun _ h => (by cases h.2.1), fun _ => ⟨[], rfl⟩⟩
    | some registry =>
      have hparse : (∃ kinds, trial.settlementLegs.mapM
          (fun leg => MarketKind.parse leg.marketKind) = .ok kinds)
          ↔ ∀ leg ∈ trial.settlementLegs, ∃ kind, MarketKind.parse leg.marketKind = .ok kind :=
        mapM_ok_iff
      constructor
      · rintro ⟨books, hbooks⟩ ⟨-, -, leg, hleg, hkind⟩
        obtain ⟨kinds, hkinds, -⟩ := bind_eq_ok hbooks
        obtain ⟨kind, hk⟩ := hparse.mp ⟨kinds, hkinds⟩ leg hleg
        exact hkind kind hk
      · intro h
        have hall : ∀ leg ∈ trial.settlementLegs, ∃ kind,
            MarketKind.parse leg.marketKind = .ok kind := by
          intro leg hleg
          by_contra hnone
          exact h ⟨hmethod, rfl, leg, hleg, not_exists.mp hnone⟩
        obtain ⟨kinds, hkinds⟩ := hparse.mpr hall
        exact ⟨_, by rw [hkinds]; rfl⟩
  · rw [if_pos hmethod]
    exact ⟨fun _ h => hmethod h.1, fun _ => ⟨[], rfl⟩⟩

/-- What the settlement of a due position does once its books are requested. -/
theorem settleUniversalPosition_eq {outcomeId : Uuid} {trial : PaperAllocationTrial}
    {dueAt : Instant} {books : List OrderBookSnapshot} (hdue : trial.dueAt = some dueAt)
    (hbooks : ctx.settlementBooks trial = .ok books) :
    ctx.settleUniversalPosition outcomeId trial
      = if ctx.evidenceMatured trial dueAt books then
          settleTrial ctx.runtime.upper ctx.input.evidence outcomeId trial
            { ctx.snapshot with orderBooks := books }
        else .ok none := by
  rw [settleUniversalPosition, hdue]
  show (ctx.settlementBooks trial >>= _) = _
  rw [hbooks]
  rfl

/-- The decision about a position with an embedded trial. -/
theorem verdict_of_trial {position : CanonicalPaperPosition} {trial : PaperAllocationTrial}
    (h : ctx.positionTrial position = some trial) (i : ℕ) :
    ctx.verdict i position
      = if isUniversal trial then
          ctx.universalVerdict (ctx.runtime.uuid4 ctx.run (.accountingEvent i))
            (ctx.runtime.uuid4 ctx.run (.outcome i)) position trial
        else .ok (ctx.quoteVerdict (ctx.runtime.uuid4 ctx.run (.accountingEvent i)) position) := by
  rw [verdict, h]

/-- **When a position raises.** A listed position is decided without raising unless its book
    requests raise. The only step that may raise is the request for the books of a due multi-leg
    trial whose reservations are incomplete. -/
theorem verdict_ok_iff {position : CanonicalPaperPosition} {trial : PaperAllocationTrial}
    (h : ctx.Lists position trial) (i : ℕ) :
    (∃ v, ctx.verdict i position = .ok v) ↔ ¬ ctx.Raises position := by
  rw [verdict_of_trial h.embedded]
  -- a listed position has one trial, and raises with its book requests
  have hraises : ctx.Raises position ↔ position.dueAt ≤ ctx.snapshot.completedAt
      ∧ ¬ ∃ books, ctx.settlementBooks trial = .ok books := by
    rw [settlementBooks_ok_iff, not_not]
    constructor
    · rintro ⟨t, ht, hm, hr, hdue, hleg⟩
      rw [h.embedded, Option.some.injEq] at ht
      subst ht
      exact ⟨hdue, hm, hr, hleg⟩
    · rintro ⟨hdue, hm, hr, hleg⟩
      exact ⟨trial, h.embedded, hm, hr, hdue, hleg⟩
  rw [hraises]
  -- a universal trial that is due asks for its books; every other position asks for none
  by_cases huniversal : isUniversal trial = true
  · rw [if_pos huniversal, universalVerdict]
    by_cases hdue : position.dueAt ≤ ctx.snapshot.completedAt
    · rw [if_pos hdue]
      constructor
      · rintro ⟨v, hv⟩ ⟨-, hnone⟩
        obtain ⟨settled, hsettled, -⟩ := bind_eq_ok hv
        rw [settleUniversalPosition, h.due] at hsettled
        obtain ⟨books, hbooks, -⟩ := bind_eq_ok hsettled
        exact hnone ⟨books, hbooks⟩
      · intro hbooks
        obtain ⟨books, hbooks⟩ := not_not.mp (fun hnone => hbooks ⟨hdue, hnone⟩)
        obtain ⟨outcome, houtcome, -⟩ := settleTrial_total ctx.runtime.upper ctx.input.evidence
          (ctx.runtime.uuid4 ctx.run (.outcome i)) trial { ctx.snapshot with orderBooks := books }
        rw [settleUniversalPosition_eq h.due hbooks, houtcome]
        split
        · cases outcome <;> exact ⟨_, rfl⟩
        · exact ⟨_, rfl⟩
    · rw [if_neg hdue]
      refine ⟨fun _ hd => hdue hd.1, fun _ => ?_⟩
      split <;> exact ⟨_, rfl⟩
  · rw [if_neg huniversal]
    refine ⟨fun _ hd => ?_, fun _ => ⟨_, rfl⟩⟩
    refine hd.2 ((settlementBooks_ok_iff trial).mpr (fun hm => huniversal ?_))
    rw [isUniversal, hm.1]
    decide

/-! ### How a position exits -/

/-- A perpetual short that settles, and the quote it is settled at: it is due, the newest
    quote of its instrument has matured, its funding evidence is complete, and `last` is
    the quote of its instrument listed last. -/
structure SettlesShort (ctx : CycleContext) (position : CanonicalPaperPosition)
    (trial : PaperAllocationTrial) (last : MarketQuote) : Prop where
  embedded : ctx.positionTrial position = some trial
  method : trial.settlementMethod = some perpShortSettlementMethod
  due : position.dueAt ≤ ctx.snapshot.completedAt
  newest : ∃ quote, (trial.instrumentKey ctx.runtime.upper).bind
      (portfolioQuoteIndex ctx.runtime.upper ctx.snapshot).get? = some quote
    ∧ position.dueAt ≤ quote.observedAt
  funding : ∃ leg sourceAt, trial.settlementLegs.head? = some leg
    ∧ trial.sourceObservedAt = some sourceAt
    ∧ (fundingForLeg ctx.runtime.upper ctx.input.evidence leg sourceAt position.dueAt).isSome
  last : ctx.settlementQuote trial = some last

variable {position : CanonicalPaperPosition} {trial : PaperAllocationTrial}

/-- The three methods are different. -/
private theorem methods_ne :
    perpShortSettlementMethod ≠ multiLegSettlementMethod
      ∧ perpShortSettlementMethod ≠ spotLongSettlementMethod
      ∧ multiLegSettlementMethod ≠ spotLongSettlementMethod := by
  decide

/-- What the newest-quote check says of a listed perpetual short. -/
theorem evidenceMatured_perpShort (h : ctx.Lists position trial)
    (hmethod : trial.settlementMethod = some perpShortSettlementMethod) (dueAt : Instant)
    (books : List OrderBookSnapshot) :
    ctx.evidenceMatured trial dueAt books = true
      ↔ ∃ quote, (trial.instrumentKey ctx.runtime.upper).bind
          (portfolioQuoteIndex ctx.runtime.upper ctx.snapshot).get? = some quote
        ∧ dueAt ≤ quote.observedAt := by
  obtain ⟨-, -, -, -, hsymbol, hkind, -⟩ := h.perpShort hmethod
  have hne : trial.settlementMethod ≠ some multiLegSettlementMethod := by
    rw [hmethod]
    exact fun he => methods_ne.1 (Option.some.inj he)
  have hkey : ctx.perpShortKey trial = trial.instrumentKey ctx.runtime.upper := by
    rw [perpShortKey, hsymbol, hkind]
    rfl
  rw [evidenceMatured, if_neg hne, if_pos hmethod, hkey]
  cases (trial.instrumentKey ctx.runtime.upper).bind
      (portfolioQuoteIndex ctx.runtime.upper ctx.snapshot).get? with
  | none => simp
  | some quote => simp

/-- Settling a listed perpetual short reads no book. -/
theorem settleTrial_perpShort (h : ctx.Lists position trial)
    (hmethod : trial.settlementMethod = some perpShortSettlementMethod) (outcomeId : Uuid)
    (snapshot : ScanSnapshot) :
    settleTrial ctx.runtime.upper ctx.input.evidence outcomeId trial snapshot
      = .ok (settlePerpShort ctx.runtime.upper ctx.input.evidence outcomeId trial snapshot) := by
  have hne : trial.settlementMethod ≠ some multiLegSettlementMethod := by
    rw [hmethod]
    exact fun he => methods_ne.1 (Option.some.inj he)
  rw [settleTrial, h.supported, h.due, if_neg (by simp), if_neg hne, if_pos hmethod]

/-- A listed perpetual short requests no books. -/
theorem settlementBooks_perpShort
    (hmethod : trial.settlementMethod = some perpShortSettlementMethod) :
    ctx.settlementBooks trial = .ok [] := by
  rw [settlementBooks, if_pos]
  rw [hmethod]
  exact fun he => methods_ne.1 (Option.some.inj he)

/-- A listed perpetual short that settles is closed. -/
theorem SettlesShort.closes {last : MarketQuote} (hs : ctx.SettlesShort position trial last)
    (h : ctx.Lists position trial) (i : ℕ) :
    ∃ outcome e, ctx.verdict i position = .ok (.close outcome e) := by
  obtain ⟨hentry, hcost, -, -, -⟩ := h.perpShort hs.method
  obtain ⟨leg, sourceAt, hleg, hsource, hfunding⟩ := hs.funding
  obtain ⟨key, hkey, hlast⟩ := Option.bind_eq_some_iff.mp hs.last
  have huniversal : isUniversal trial = true := by
    rw [isUniversal, hs.method]
    decide
  obtain ⟨o, ho⟩ := settlePerpShort_isSome ctx.runtime.upper ctx.input.evidence
    (ctx.runtime.uuid4 ctx.run (.outcome i)) { ctx.snapshot with orderBooks := [] } hentry hcost
    h.due hsource hleg hkey hlast hfunding
  refine ⟨some o, closeFromOutcome (ctx.runtime.uuid4 ctx.run (.accountingEvent i)) position o, ?_⟩
  rw [verdict_of_trial h.embedded, if_pos huniversal, universalVerdict, if_pos hs.due,
    settleUniversalPosition_eq h.due (settlementBooks_perpShort hs.method),
    if_pos ((evidenceMatured_perpShort h hs.method _ _).mpr hs.newest),
    settleTrial_perpShort h hs.method, ho]
  rfl

/-- What the close of a listed perpetual short says about its evidence. -/
theorem settlesShort_of_close (h : ctx.Lists position trial)
    (hmethod : trial.settlementMethod = some perpShortSettlementMethod) {i : ℕ}
    {outcome : Option PaperAllocationOutcome} {e : CanonicalPortfolioEvent}
    (hv : ctx.verdict i position = .ok (.close outcome e)) :
    ∃ last, ctx.SettlesShort position trial last ∧ e.referencePrice = some last.mid := by
  rcases ctx.verdict_close hv with ⟨hspot, -⟩ | ⟨t, o, -, ht, -, hdue, hsettled, he⟩
  · have huniversal := hspot trial h.embedded
    rw [isUniversal, hmethod] at huniversal
    exact absurd huniversal (by decide)
  · rw [h.embedded, Option.some.injEq] at ht
    subst ht
    rw [settleUniversalPosition_eq h.due (settlementBooks_perpShort hmethod)] at hsettled
    split at hsettled
    · rename_i hmatured
      rw [settleTrial_perpShort h hmethod] at hsettled
      injection hsettled with hsettled
      obtain ⟨-, dueAt, sourceAt, leg, key, last, hd, hsource, hleg, hkey, hlast, hfunding, hexit⟩ :=
        settlePerpShort_eq_some _ _ hsettled
      rw [h.due, Option.some.injEq] at hd
      subst hd
      have hquote : ctx.settlementQuote trial = some last := by
        rw [settlementQuote, hkey]
        exact hlast
      refine ⟨last, ⟨h.embedded, hmethod, hdue, (evidenceMatured_perpShort h hmethod _ _).mp hmatured,
        ⟨leg, sourceAt, hleg, hsource, hfunding⟩, hquote⟩, ?_⟩
      rw [he]
      show some (o.exitReferencePrice.getD position.currentReferencePrice) = _
      rw [hexit]
      rfl
    · cases hsettled

/-- Every book a two-leg position is closed against has matured. -/
theorem books_of_close (h : ctx.Lists position trial)
    (hmethod : trial.settlementMethod = some multiLegSettlementMethod) {i : ℕ}
    {outcome : Option PaperAllocationOutcome} {e : CanonicalPortfolioEvent}
    (hv : ctx.verdict i position = .ok (.close outcome e)) :
    ∀ leg ∈ trial.settlementLegs,
      ∃ book, ctx.legBook trial leg = some book ∧ position.dueAt ≤ book.observedAt := by
  rcases ctx.verdict_close hv with ⟨hspot, -⟩ | ⟨t, o, -, ht, -, -, hsettled, -⟩
  -- a two-leg trial is universal, so it is not closed on a quote
  · have huniversal := hspot trial h.embedded
    rw [isUniversal, hmethod] at huniversal
    exact absurd huniversal (by decide)
  · rw [h.embedded, Option.some.injEq] at ht
    subst ht
    -- its settlement ran, on books that had to mature first
    have hsettled' := hsettled
    rw [settleUniversalPosition, h.due] at hsettled'
    obtain ⟨books, hbooks, -⟩ := bind_eq_ok hsettled'
    rw [settleUniversalPosition_eq h.due hbooks] at hsettled
    split at hsettled
    · rename_i hmatured
      -- all the books have matured, and the legs are settled against them
      rw [evidenceMatured, if_pos hmethod, Bool.and_eq_true, List.all_eq_true] at hmatured
      rw [settleTrial, h.supported, h.due, if_neg (by simp), if_pos hmethod] at hsettled
      obtain ⟨outcome', houtcome, hspec⟩ := settleMultileg_total ctx.runtime.upper
        ctx.input.evidence (ctx.runtime.uuid4 ctx.run (.outcome i)) trial
        { ctx.snapshot with orderBooks := books }
      rw [hsettled] at houtcome
      injection houtcome with houtcome
      intro leg hleg
      obtain ⟨book, hbook⟩ := (hspec o houtcome.symm).2.2 leg hleg
      have hmem : book ∈ books := (Dict.mem_of_get?_collect hbook).1
      refine ⟨book, ?_, by simpa using hmatured.2 book hmem⟩
      rw [legBook, hbooks]
      exact hbook
    -- otherwise it has no outcome
    · cases hsettled

/-- **Exit of a close.** A close is behind the horizon if, for a perpetual short, the quote
    it is settled at is. -/
theorem exitsAfterHorizon_of_close (h : ctx.Lists position trial) {i : ℕ}
    {outcome : Option PaperAllocationOutcome} {e : CanonicalPortfolioEvent}
    (hv : ctx.verdict i position = .ok (.close outcome e))
    (hshort : ∀ last, ctx.SettlesShort position trial last → position.dueAt ≤ last.observedAt) :
    ctx.ExitsAfterHorizon position e := by
  rw [ExitsAfterHorizon, h.embedded]
  dsimp only
  rcases h.method with hmethod | hmethod | hmethod
  · rw [if_neg (by rw [hmethod]; decide), if_neg (by rw [hmethod]; decide)]
    rcases ctx.verdict_close hv with ⟨-, quote, -, hquote, hdue, he⟩ | ⟨t, o, -, ht, huniversal, -⟩
    · exact ⟨quote, hquote, by rw [he]; rfl, hdue⟩
    · rw [h.embedded, Option.some.injEq] at ht
      rw [← ht, isUniversal, hmethod] at huniversal
      exact absurd huniversal (by decide)
  · rw [if_neg (by rw [hmethod]; decide), if_pos hmethod]
    obtain ⟨last, hs, hprice⟩ := settlesShort_of_close h hmethod hv
    exact ⟨last, hs.last, hprice, hshort last hs⟩
  · rw [if_pos hmethod]
    exact books_of_close h hmethod hv

/-- A perpetual short whose close is behind the horizon was settled at a matured quote. -/
theorem SettlesShort.matured {last : MarketQuote} (hs : ctx.SettlesShort position trial last)
    {e : CanonicalPortfolioEvent} (he : ctx.ExitsAfterHorizon position e) :
    position.dueAt ≤ last.observedAt := by
  rw [ExitsAfterHorizon, hs.embedded] at he
  dsimp only at he
  rw [if_neg (by rw [hs.method]; decide), if_pos hs.method] at he
  obtain ⟨quote, hquote, -, hdue⟩ := he
  rw [hs.last, Option.some.injEq] at hquote
  rwa [hquote]

/-- The closes of the loop are those of the positions before which none raises. The loop stops
    at the first position that raises, so a close counts only if none before it does. -/
theorem mem_closes {positions : List CanonicalPaperPosition}
    (hlists : ∀ q ∈ positions, ∃ trial, ctx.Lists q trial) (i : ℕ) (e : CanonicalPortfolioEvent) :
    e ∈ ctx.closes i positions ↔ ∃ seen position rest outcome,
      positions = seen ++ position :: rest ∧ (∀ q ∈ seen, ¬ ctx.Raises q)
        ∧ ctx.verdict (i + seen.length) position = .ok (.close outcome e) := by
  induction positions generalizing i with
  | nil => simp [closes]
  | cons first others ih =>
    obtain ⟨trial, hfirst⟩ := hlists first List.mem_cons_self
    have hok := verdict_ok_iff hfirst i
    rw [closes]
    cases hv : ctx.verdict i first with
    -- the first position raises, and nothing is closed behind it
    | error raised =>
      refine ⟨fun h => (by cases h), ?_⟩
      rintro ⟨seen, position, rest, outcome, heq, hseen, hclose⟩
      rw [hv] at hok
      cases seen with
      | nil =>
        obtain ⟨rfl, -⟩ := List.cons.inj heq
        rw [List.length_nil, Nat.add_zero, hv] at hclose
        cases hclose
      | cons q seen =>
        obtain ⟨rfl, -⟩ := List.cons.inj heq
        obtain ⟨v, hv'⟩ := hok.mpr (hseen first List.mem_cons_self)
        cases hv'
    -- the first is settled or marked, and the loop goes on with the next index
    | ok v =>
      have hfirst' : ¬ ctx.Raises first := hok.mp ⟨v, hv⟩
      rw [List.mem_append, Option.mem_toList,
        ih (fun q hq => hlists q (List.mem_cons_of_mem first hq))]
      constructor
      · rintro (hclose | ⟨seen, position, rest, outcome, heq, hseen, hclose⟩)
        · cases v with
          | close outcome event =>
            obtain rfl : event = e := Option.some.inj hclose
            exact ⟨[], first, others, outcome, rfl, fun q hq => (by cases hq), hv⟩
          | fresh => cases hclose
          | stale => cases hclose
        · refine ⟨first :: seen, position, rest, outcome, by rw [heq]; rfl, ?_, ?_⟩
          · intro q hq
            rcases List.mem_cons.mp hq with rfl | hq
            · exact hfirst'
            · exact hseen q hq
          · rw [List.length_cons, ← hclose]
            congr 1
            omega
      · rintro ⟨seen, position, rest, outcome, heq, hseen, hclose⟩
        cases seen with
        | nil =>
          obtain ⟨rfl, -⟩ := List.cons.inj heq
          rw [List.length_nil, Nat.add_zero, hv] at hclose
          injection hclose with hclose
          subst hclose
          exact Or.inl rfl
        | cons q seen =>
          obtain ⟨rfl, hothers⟩ := List.cons.inj heq
          refine Or.inr ⟨seen, position, rest, outcome, hothers,
            fun q hq => hseen q (List.mem_cons_of_mem _ hq), ?_⟩
          rw [← hclose, List.length_cons]
          congr 1
          omega

end CycleContext

/-! ### The cycle -/

section Cycle

variable {R : Runtime} {n : ℕ} {input : CycleInput} {s : PortfolioStore}

/-- The positions a cycle accounts for have distinct ids and supported trials. -/
theorem lists_of_accountingContext (h : Sound R n s) {ctx : CycleContext}
    {positions : List CanonicalPaperPosition}
    (hctx : accountingContext R n input s = .ok (ctx, positions)) :
    (positions.map (fun position => position.positionId)).Nodup
      ∧ ∀ position ∈ positions, ∃ trial, ctx.Lists position trial := by
  obtain ⟨ws, -, -, hevents, -, hledger⟩ := ensureGenesis_sound input h
  obtain ⟨snapshot, -, hctx⟩ := bind_eq_ok hctx
  obtain ⟨state, hstate, hctx⟩ := bind_eq_ok hctx
  injection hctx with hctx
  injection hctx with hctx hpositions
  subst hctx
  subst hpositions
  rw [← hevents] at hstate hledger ⊢
  obtain ⟨hnodup, hopen⟩ := hledger.stillOpen hstate n input snapshot
  refine ⟨hnodup, fun position hposition => ?_⟩
  obtain ⟨f, hf, hdescribes, htrial⟩ := hopen position hposition
  obtain ⟨run, -, i, allocation, trial, -, hby⟩ := hledger.opened _ _ hf.1
  obtain ⟨dueAt, hdue, hfdue⟩ := hby.dueAt
  have hsame : dueAt = position.dueAt := Option.some.inj (hfdue.symm.trans hdescribes.due)
  rw [hby.eventTrial_eq] at htrial
  cases hby with
  | intro eventId observedAt hmade hsupported =>
    exact ⟨trial, htrial, hsupported, hsame ▸ hdue, (trialFromAllocation_supported hmade hsupported).1,
      trialFromAllocation_perpShort hmade⟩

/-- Every close event the cycle appends is the close of a position it accounts for, priced
    from evidence at or after that position's horizon. -/
def SettledAfterHorizon (R : Runtime) (n : ℕ) (input : CycleInput) (s : PortfolioStore) : Prop :=
  ∀ e ∈ closesOf (runCycle R n input s).1, ∃ ctx positions position,
    accountingContext R n input s = .ok (ctx, positions) ∧ position ∈ positions
      ∧ e.positionId = some position.positionId ∧ ctx.ExitsAfterHorizon position e

/-- For every perpetual short that settles before a position raises, the quote of its
    instrument listed last has matured. -/
def LastListedMatured (R : Runtime) (n : ℕ) (input : CycleInput) (s : PortfolioStore) : Prop :=
  ∀ ctx positions, accountingContext R n input s = .ok (ctx, positions) →
    ∀ seen position rest, positions = seen ++ position :: rest → (∀ q ∈ seen, ¬ ctx.Raises q) →
      ∀ trial last, ctx.SettlesShort position trial last → position.dueAt ≤ last.observedAt

/-- **Horizon.** The closes of a cycle are priced from evidence behind the horizon exactly when
    the quotes listed last have matured for the perpetual shorts that settle. A perpetual short
    is the one method whose exit is the quote listed last, whatever its time, so the closes are
    late enough exactly if those quotes are. -/
theorem settledAfterHorizon_iff {Allowed : ℕ → PortfolioStore → CycleInput → Prop}
    (h : Reachable R Allowed n s) (input : CycleInput) :
    SettledAfterHorizon R n input s ↔ LastListedMatured R n input s := by
  have hcloses := closesOf_runCycle input h.sound
  constructor
  -- a short that settles closes its position, and its close exits on the last listed quote
  · intro hsettled ctx positions hctx seen position rest hpositions hseen trial last hshort
    obtain ⟨hnodup, hlists⟩ := lists_of_accountingContext h.sound hctx
    have hmem : position ∈ positions := by
      rw [hpositions]
      exact List.mem_append_right _ List.mem_cons_self
    obtain ⟨t, ht⟩ := hlists position hmem
    have hsame : t = trial := Option.some.inj (ht.embedded.symm.trans hshort.embedded)
    subst hsame
    obtain ⟨outcome, e, hv⟩ := hshort.closes ht (0 + seen.length)
    have he : e ∈ closesOf (runCycle R n input s).1 := by
      rw [hcloses, hctx]
      exact (CycleContext.mem_closes hlists 0 e).mpr
        ⟨seen, position, rest, outcome, hpositions, hseen, hv⟩
    obtain ⟨ctx', positions', position', hctx', hmem', hid, hexit⟩ := hsettled e he
    rw [hctx] at hctx'
    injection hctx' with hctx'
    injection hctx' with hctx' hpositions'
    subst hctx'
    subst hpositions'
    have hposition : position' = position := by
      refine List.inj_on_of_nodup_map hnodup hmem' hmem ?_
      rw [(ctx.verdict_close_event hv).2.1] at hid
      exact (Option.some.inj hid).symm
    rw [hposition] at hexit
    exact hshort.matured hexit
  -- every other close exits on evidence whose time the source has checked
  · intro hmatured e he
    rw [hcloses] at he
    cases hctx : accountingContext R n input s with
    | error raised =>
      rw [hctx] at he
      cases he
    | ok pair =>
      obtain ⟨ctx, positions⟩ := pair
      rw [hctx] at he
      obtain ⟨-, hlists⟩ := lists_of_accountingContext h.sound hctx
      obtain ⟨seen, position, rest, outcome, hpositions, hseen, hv⟩ :=
        (CycleContext.mem_closes hlists 0 e).mp he
      have hmem : position ∈ positions := by
        rw [hpositions]
        exact List.mem_append_right _ List.mem_cons_self
      obtain ⟨trial, ht⟩ := hlists position hmem
      refine ⟨ctx, positions, position, rfl, hmem, (ctx.verdict_close_event hv).2.1, ?_⟩
      refine CycleContext.exitsAfterHorizon_of_close ht hv (fun last hshort => ?_)
      exact hmatured ctx positions hctx seen position rest hpositions hseen trial last hshort

end Cycle

/-! ### A perpetual short with two quotes -/

/-- A cycle that opens a perpetual short of 100 dollars for an hour. -/
def oneShort : CycleInput :=
  Sample.input 0 [] [] (fun _ => .ok (Sample.plan 0
    [(Sample.candidate "momentum:BTC" "BTC-PERP" .directionalShort .perpetual
      100).toAllocation]))

/-- The ledger after that cycle. -/
def afterOneShort : PortfolioStore :=
  commitAll PortfolioStore.empty ((runCycle Runtime.sample 0 oneShort PortfolioStore.empty).1.take 6)

theorem afterOneShort_reachable : Reachable Runtime.sample (fun _ _ _ => True) 1 afterOneShort :=
  .cycle .start oneShort trivial 6

/-- A quote of the instrument. -/
def shortQuote (mid : Positive) (observedAt : Instant) : MarketQuote :=
  ⟨"kraken", "BTC", .perpetual, "BTC-PERP", mid, observedAt⟩

/-- The cycle at the horizon, an hour later, with the quotes it collected. -/
def atHorizon (quotes : List MarketQuote) : CycleInput :=
  Sample.input 3600000000 quotes
    [⟨"kraken", "BTC", 0, ⟨8, interval_eight⟩, none, some 7200000000, 0⟩] (fun _ => .error "TimeoutError")

/-- The horizon of a position, its settlement method, and when the quote it would be
    settled at was observed. -/
def CycleContext.exitFigures (ctx : CycleContext) (position : CanonicalPaperPosition) :
    Instant × Option (Option String × Option Instant) :=
  (position.dueAt, (ctx.positionTrial position).map (fun trial =>
    (trial.settlementMethod, (ctx.settlementQuote trial).map MarketQuote.observedAt)))

/-- With one quote at the horizon the cycle closes the short, and the quote it is closed at is the
    last one listed. -/
theorem settledAfterHorizon_oneQuote :
    (closesOf (runCycle Runtime.sample 1 (atHorizon [shortQuote 90 3600000000])
        afterOneShort).1).length = 1
      ∧ (SettledAfterHorizon Runtime.sample 1 (atHorizon [shortQuote 90 3600000000])
          afterOneShort
        ↔ LastListedMatured Runtime.sample 1
          (atHorizon [shortQuote 90 3600000000]) afterOneShort) :=
  ⟨by decide +kernel, settledAfterHorizon_iff afterOneShort_reachable _⟩

/-- With a quote at the horizon and an older one listed after it, the short is closed at
    the older one. -/
theorem not_settledAfterHorizon :
    ¬ ∀ (R : Runtime) (n : ℕ) (s : PortfolioStore), Reachable R (fun _ _ _ => True) n s →
      ∀ input : CycleInput, SettledAfterHorizon R n input s := by
  intro h
  have hsettled := h _ 1 _ afterOneShort_reachable
    (atHorizon [shortQuote 90 3600000000, shortQuote 80 5])
  -- the cycle closes one position
  have hcloses : (closesOf (runCycle Runtime.sample 1 (atHorizon [shortQuote 90
      3600000000, shortQuote 80 5]) afterOneShort).1).length = 1 := by
    decide +kernel
  -- and its exit quote, the last listed one, was observed before the due time
  have hfigures : (accountingContext Runtime.sample 1 (atHorizon [shortQuote 90
      3600000000, shortQuote 80 5]) afterOneShort).toOption.map
        (fun p => p.2.map p.1.exitFigures)
      = some [(3600000000, some (some perpShortSettlementMethod, some 5))] := by
    decide +kernel
  obtain ⟨e, he⟩ := List.exists_mem_of_length_pos (by rw [hcloses]; exact one_pos)
  obtain ⟨ctx, positions, position, hctx, hmem, -, hexit⟩ := hsettled e he
  rw [hctx] at hfigures
  have hlist : positions.map ctx.exitFigures
      = [(3600000000, some (some perpShortSettlementMethod, some 5))] := Option.some.inj hfigures
  have hposition := List.mem_map_of_mem (f := ctx.exitFigures) hmem
  rw [hlist, List.mem_singleton, CycleContext.exitFigures, Prod.mk.injEq] at hposition
  -- the trial of the close is the short, whose last quote has the time found above
  obtain ⟨hdue, htrial⟩ := hposition
  obtain ⟨trial, hembedded, htrial⟩ := Option.map_eq_some_iff.mp htrial
  obtain ⟨hmethod, hlast⟩ := Prod.mk.inj htrial
  obtain ⟨last, hlast, hobserved⟩ := Option.map_eq_some_iff.mp hlast
  rw [CycleContext.ExitsAfterHorizon, hembedded] at hexit
  dsimp only at hexit
  rw [if_neg (by rw [hmethod]; decide), if_pos hmethod, hlast] at hexit
  obtain ⟨quote, hquote, -, hmatured⟩ := hexit
  rw [← Option.some.inj hquote, hobserved, hdue] at hmatured
  -- settled after the horizon, the quote would be at or after the due time
  exact absurd hmatured (by decide)

end InefficiencyEngine.Portfolio
