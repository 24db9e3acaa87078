import InefficiencyEngine.Portfolio.Runs
import InefficiencyEngine.Portfolio.Sample

namespace InefficiencyEngine.Portfolio

open Prog

/-!
# The accounting identity of the paper ledger

The replay lists an opening only if all its texts are non-empty; its capital has been
debited all the same.  Which texts can be empty depends on the allocation: the family and
the exposure of a supported allocation are fixed by its contract, its market kind is its
own or "multi_leg", and the rest is what `UnifiedPaperAllocation.Named` asks for — among
it the candidate id.  When every plan is `Named` the identity holds in every reachable
ledger (`accounted_of_reachable`).
-/

/-- The strategy, asset, venue and symbol texts of an allocation are not empty. -/
structure UnifiedPaperAllocation.Labelled (a : UnifiedPaperAllocation) : Prop where
  strategy : a.strategy ≠ ""
  asset : a.asset ≠ ""
  venues : ∀ venue ∈ a.venues, venue ≠ ""
  instrumentSymbol : a.instrumentSymbol ≠ some ""
  legSymbols : ∀ leg ∈ a.settlementLegs, leg.symbol ≠ ""

/-- A labelled allocation with a candidate id. -/
structure UnifiedPaperAllocation.Named (a : UnifiedPaperAllocation) : Prop extends a.Labelled where
  candidateId : a.candidateId ≠ ""

/-- Every allocation of every plan a cycle may be given satisfies `P`. -/
def CycleInput.Plans (P : UnifiedPaperAllocation → Prop) (input : CycleInput) : Prop :=
  ∀ cash plan, input.boundedAllocationPlan cash = .ok plan → ∀ a ∈ plan.allocations, P a

/-! ### The texts of an opening -/

section Texts

variable {a : UnifiedPaperAllocation}

/-- A supported allocation is of one of two families. -/
theorem UnifiedPaperAllocation.family_of_supported (h : a.supported = true) :
    a.family = "alpha" ∨ a.family = "core_cex" := by
  simp only [UnifiedPaperAllocation.supported, UnifiedPaperAllocation.isSpotLong,
    UnifiedPaperAllocation.isPerpShort, UnifiedPaperAllocation.isMultiLeg, Bool.or_eq_true,
    Bool.and_eq_true, decide_eq_true_eq] at h
  tauto

/-- A supported allocation names its market, or has two legs. -/
theorem UnifiedPaperAllocation.market_of_supported (h : a.supported = true) :
    a.instrumentMarketKind = some MarketKind.spot.value
      ∨ a.instrumentMarketKind = some MarketKind.perpetual.value
      ∨ a.isMultiLeg = true ∧ a.settlementLegs.length = 2 := by
  simp only [UnifiedPaperAllocation.supported, UnifiedPaperAllocation.isSpotLong,
    UnifiedPaperAllocation.isPerpShort, UnifiedPaperAllocation.isMultiLeg, Bool.or_eq_true,
    Bool.and_eq_true, decide_eq_true_eq] at h ⊢
  tauto

/-- A two-leg trial settles the allocation's own legs. -/
theorem UnifiedPaperAllocation.trialLegs_of_isMultiLeg (upper : String → String)
    (h : a.isMultiLeg = true) : a.trialLegs upper = .ok a.settlementLegs := by
  have hshort : a.isPerpShort = false := by
    simp only [UnifiedPaperAllocation.isMultiLeg, Bool.and_eq_true, decide_eq_true_eq] at h
    simp [UnifiedPaperAllocation.isPerpShort, h]
  simp [UnifiedPaperAllocation.trialLegs, hshort]

/-- The legs a trial settles have symbols. -/
theorem UnifiedPaperAllocation.Named.trialLegs (h : a.Named) {upper : String → String}
    {legs : List PaperSettlementLeg} (hlegs : a.trialLegs upper = .ok legs) :
    ∀ leg ∈ legs, leg.symbol ≠ "" := by
  have hown : (Except.ok a.settlementLegs : Except Raised _) = .ok legs →
      ∀ leg ∈ legs, leg.symbol ≠ "" := by
    intro he
    injection he with he
    exact he ▸ h.legSymbols
  unfold UnifiedPaperAllocation.trialLegs at hlegs
  split at hlegs
  · exact hown hlegs
  · split at hlegs
    · split at hlegs
      · rename_i entry _
        obtain ⟨leg, hleg, hlegs⟩ := bind_eq_ok hlegs
        obtain ⟨_, -, hleg⟩ := bind_eq_ok hleg
        obtain ⟨_, -, hleg⟩ := bind_eq_ok hleg
        injection hleg with hleg
        injection hlegs with hlegs
        rw [← hlegs, ← hleg]
        intro leg' hmem
        rw [List.mem_singleton.mp hmem]
        exact orText_ne_empty h.asset
      · exact hown hlegs
    · exact hown hlegs

/-- A list of non-empty texts has a non-empty first text, or none. -/
private theorem headD_ne_empty {texts : List String} {default : String} (h : default ≠ "")
    (htexts : ∀ text ∈ texts, text ≠ "") : texts.headD default ≠ "" := by
  cases texts with
  | nil => exact h
  | cons text rest => exact htexts text List.mem_cons_self

/-- A text with a colon in it is not empty. -/
private theorem append_colon_ne_empty (s t : String) : s ++ ":" ++ t ≠ "" := by
  intro he
  have := congrArg String.length he
  simp at this

/-- The market of an opening is named. -/
theorem UnifiedPaperAllocation.openMarket_ne_empty {upper : String → String}
    {legs : List PaperSettlementLeg} (hsupported : a.supported = true) :
    a.trialLegs upper = .ok legs → orText a.instrumentMarketKind (match legs with
      | [leg] => leg.marketKind
      | _ => "multi_leg") ≠ "" := by
  intro hlegs
  rcases UnifiedPaperAllocation.market_of_supported hsupported with hm | hm | ⟨hm, htwo⟩
  · rw [hm, orText_some (by decide)]
    decide
  · rw [hm, orText_some (by decide)]
    decide
  · rw [UnifiedPaperAllocation.trialLegs_of_isMultiLeg _ hm] at hlegs
    injection hlegs with hlegs
    rw [← hlegs]
    refine orText_ne_empty ?_
    split
    · rename_i leg hone
      rw [hone] at htwo
      cases htwo
    · decide

/-- **Texts.** The opening of a supported `Named` allocation has all its texts. -/
theorem OpenedBy.hasTexts {R : Runtime} {run i : ℕ} {trial : PaperAllocationTrial}
    {e : CanonicalPortfolioEvent} (h : OpenedBy R run i a trial e) (hnamed : a.Named) :
    e.hasTexts = true := by
  cases h with
  | intro eventId observedAt htrial hsupported =>
    obtain ⟨-, -, -, hlegs, hsup, -⟩ := trialFromAllocation_eq_ok htrial
    rw [hsup] at hsupported
    have hfamily : a.family ≠ "" := by
      rcases UnifiedPaperAllocation.family_of_supported hsupported with hf | hf <;> rw [hf] <;>
        decide
    have hsymbol : orText a.instrumentSymbol
        ((trial.settlementLegs.head?.map PaperSettlementLeg.symbol).getD
          (a.strategy ++ ":" ++ a.asset)) ≠ "" := by
      refine orText_ne_empty ?_
      cases hhead : trial.settlementLegs with
      | nil => exact append_colon_ne_empty _ _
      | cons leg rest => exact hnamed.trialLegs hlegs leg (hhead ▸ List.mem_cons_self)
    have hmarket := UnifiedPaperAllocation.openMarket_ne_empty hsupported hlegs
    have hexposure : a.exposureKind.value ≠ "" := by
      cases a.exposureKind <;> decide
    have hvenue : a.venues.headD "multi" ≠ "" := headD_ne_empty (by decide) hnamed.venues
    simp only [CanonicalPortfolioEvent.hasTexts, Bool.and_eq_true]
    exact ⟨⟨⟨⟨⟨⟨⟨(truthy_some _).mpr hnamed.candidateId, (truthy_some _).mpr hfamily⟩,
      (truthy_some _).mpr hnamed.strategy⟩, (truthy_some _).mpr hnamed.asset⟩,
      (truthy_some _).mpr hvenue⟩, (truthy_some _).mpr hsymbol⟩, (truthy_some _).mpr hmarket⟩,
      (truthy_some _).mpr hexposure⟩

end Texts

/-! ### The identity -/

/-- Every opened event of the log has all its texts. -/
def AllNamed (s : PortfolioStore) : Prop :=
  ∀ p e, (replay s.events).opened.get? p = some e → e.hasTexts = true

/-- A block of a cycle with `Named` plans keeps the texts complete. -/
theorem AllNamed.block {R : Runtime} {n : ℕ} {input : CycleInput} {base s : PortfolioStore}
    {block : List Write} (h : AllNamed s) (hinput : input.Plans UnifiedPaperAllocation.Named)
    (hblock : CycleBlock R n input base s block) (k : ℕ) :
    AllNamed (commitAll s (block.take k)) := by
  rcases hblock.effect k with heq | ⟨e, heq, -, hplanned, -⟩
  · intro p f hf
    rw [heq] at hf
    exact h p f hf
  · intro p f hf
    rw [heq] at hf
    by_cases htype : e.eventType = .open
    · obtain ⟨cash, plan, allocation, i, trial, hplan, hmem, hopened⟩ := hplanned htype
      rw [replay_append, ((replay s.events).step_opened_closed e).1, htype, hopened.positionId] at hf
      replace hf : ((replay s.events).opened.set (R.uuid4 n (.position i)) e).get? p = some f := hf
      rw [Dict.get?_set] at hf
      by_cases hp : R.uuid4 n (.position i) = p
      · rw [if_pos hp, Option.some.injEq] at hf
        exact hf ▸ hopened.hasTexts (hinput cash plan hplan allocation hmem)
      · rw [if_neg hp] at hf
        exact h p f hf
    · rw [opened_append htype] at hf
      exact h p f hf

/-- The ledgers whose cycles were all given plans of allocations with `P`. -/
abbrev PlanReachable (R : Runtime) (P : UnifiedPaperAllocation → Prop) :
    ℕ → PortfolioStore → Prop :=
  Reachable R (fun _ _ input => input.Plans P)

/-- Named plans leave logs with complete texts. -/
theorem allNamed_of_reachable {R : Runtime} {n : ℕ} {s : PortfolioStore}
    (h : PlanReachable R UnifiedPaperAllocation.Named n s) : AllNamed s := by
  refine (h.invariant (I := AllNamed) ?_ ?_).2
  · intro p e he
    cases he
  · rintro _ _ _ _ _ ⟨_, hnamed⟩ - hs hblock k
    exact hs.block hnamed hblock k

/-- The account of a reachable log, whether or not it has its genesis event yet. -/
theorem currentState_of_sound {R : Runtime} {n : ℕ} {s : PortfolioStore} (h : Sound R n s)
    (genesisId : Uuid) (observedAt : Instant) :
    ∃ events, (currentState R genesisId observedAt s).2
        = accountState events s.snapshots observedAt
      ∧ Ledger R n events
      ∧ (events = s.events ∨ s.events = [] ∧ events = [genesisEvent genesisId observedAt]) := by
  rcases h with hempty | hledger
  · have hrun := ensureGenesis_run_nil (R := R) hempty genesisId observedAt
    refine ⟨[genesisEvent genesisId observedAt], ?_, Ledger.start genesisId observedAt,
      Or.inr ⟨hempty, rfl⟩⟩
    have hevents := commit_eventWrite_nil R (genesisEvent genesisId observedAt) hempty
    have hsnapshots : (commitAll s [eventWrite R s (genesisEvent genesisId observedAt)]).snapshots
        = s.snapshots := rfl
    rw [currentState, run_bind_of_ok hrun, run_get_bind, run_lift, hsnapshots]
    exact congrArg (fun events => accountState events s.snapshots observedAt) hevents
  · obtain ⟨state, hstate, hrun⟩ := currentState_run hledger genesisId observedAt
    exact ⟨s.events, by rw [hrun, hstate], hledger, Or.inl rfl⟩

/-- What the state of a ledger must account for: the identity holds, every opening that no
    close event names is listed, and no position is closed twice. -/
structure Accounted (s : PortfolioStore) (state : CanonicalPaperPortfolioSnapshot) : Prop where
  identity : AccountingIdentity state
  listed : ∀ e ∈ s.events, e.eventType = .open → ∃ p, e.positionId = some p
    ∧ (p ∈ closedIds s.events ∨ p ∈ state.positions.map (fun position => position.positionId))
  closedOnce : (closedIds s.events).Nodup

/-- **Accounting identity.** In every ledger that cycles with named plans can leave, also
    when cycles were cut off at a write, `current_state` returns a state that accounts for
    every dollar and for every opening. -/
theorem accounted_of_reachable {R : Runtime} {n : ℕ} {s : PortfolioStore}
    (h : PlanReachable R UnifiedPaperAllocation.Named n s) (genesisId : Uuid)
    (observedAt : Instant) :
    ∃ state, (currentState R genesisId observedAt s).2 = .ok state ∧ Accounted s state := by
  obtain ⟨events, hrun, hledger, hevents⟩ := currentState_of_sound h.sound genesisId observedAt
  have htexts : ∀ p e, (replay events).opened.get? p = some e → e.hasTexts = true := by
    rcases hevents with rfl | ⟨-, rfl⟩
    · exact allNamed_of_reachable h
    · intro p e he
      cases he
  obtain ⟨state, hstate, hidentity, hlisted⟩ :=
    hledger.balanced.identity htexts s.snapshots observedAt
  refine ⟨state, hrun.trans hstate, hidentity, ?_, ?_⟩
  · intro e he htype
    rcases hevents with rfl | ⟨hempty, -⟩
    · obtain ⟨p, hid, hget⟩ := hledger.listed e he htype
      refine ⟨p, hid, or_iff_not_imp_left.mpr (fun hclosed => ?_)⟩
      have hopen : (replay s.events).IsOpen p e :=
        ⟨hget, not_not.mp (fun hne => hclosed ((mem_closedIds s.events p).mpr hne))⟩
      exact hlisted.mem_iff.mpr (List.mem_map_of_mem (Replay.mem_openItems.mpr hopen))
    · rw [hempty] at he
      cases he
  · rcases hevents with rfl | ⟨hempty, -⟩
    · exact hledger.closes
    · rw [hempty]
      exact List.nodup_nil

/-! ### A ledger with one opening -/

/-- A spot long of 100 dollars under a candidate id. -/
def spotLong (candidateId : String) : UnifiedPaperAllocation :=
  (Sample.candidate candidateId "BTC/USD" .directionalLong .spot 100).toAllocation

/-- A cycle that opens it. -/
def oneOpening (candidateId : String) : CycleInput :=
  Sample.input 0 [] [] (fun _ => .ok (Sample.plan 0 [spotLong candidateId]))

/-- The ledger after that cycle. -/
def afterOneOpening (candidateId : String) : PortfolioStore :=
  commitAll PortfolioStore.empty
    ((runCycle Runtime.sample 0 (oneOpening candidateId) PortfolioStore.empty).1.take 6)

theorem spotLong_labelled (candidateId : String) : (spotLong candidateId).Labelled where
  strategy := (by decide : "momentum" ≠ "")
  asset := (by decide : "BTC" ≠ "")
  venues := (by decide : ∀ venue ∈ ["kraken"], venue ≠ "")
  instrumentSymbol := (by decide : some "BTC/USD" ≠ some "")
  legSymbols leg hleg := by cases hleg

theorem afterOneOpening_reachable {candidateId : String} {P : UnifiedPaperAllocation → Prop}
    (h : P (spotLong candidateId)) :
    PlanReachable Runtime.sample P 1 (afterOneOpening candidateId) := by
  refine Reachable.cycle .start (oneOpening candidateId) (fun cash plan hplan a ha => ?_) 6
  injection hplan with hplan
  rw [← hplan] at ha
  rwa [List.mem_singleton.mp ha]

/-- The accounting identity holds after an opening: 100 dollars are reserved. -/
theorem accounted_afterOneOpening :
    ((currentState Runtime.sample 0 0 (afterOneOpening "momentum:BTC")).2.toOption.map
        (fun state => (state.cashUsd, (state.reservedCapitalUsd : ℚ)))) = some (249900, 100)
      ∧ ∃ state, (currentState Runtime.sample 0 0 (afterOneOpening "momentum:BTC")).2 = .ok state
        ∧ Accounted (afterOneOpening "momentum:BTC") state :=
  ⟨by decide +kernel, accounted_of_reachable (afterOneOpening_reachable
    ⟨spotLong_labelled _, by decide⟩) 0 0⟩

/-- Without a candidate id the opening is debited and never listed, so the accounting
    identity fails although strategy, asset, venue and symbol are all given. -/
theorem not_accounted_of_labelled :
    ¬ ∀ (R : Runtime) (n : ℕ) (s : PortfolioStore),
      PlanReachable R UnifiedPaperAllocation.Labelled n s →
      ∀ genesisId observedAt state, (currentState R genesisId observedAt s).2 = .ok state →
        Accounted s state := by
  intro h
  have hfigures : (currentState Runtime.sample 0 0 (afterOneOpening "")).2.toOption.map
      (fun state => (state.cashUsd, state.realizedPnlUsd, (state.reservedCapitalUsd : ℚ)))
      = some (249900, 0, 0) := by decide +kernel
  cases hstate : (currentState Runtime.sample 0 0 (afterOneOpening "")).2 with
  | error raised =>
    rw [hstate] at hfigures
    cases hfigures
  | ok state =>
    have hcash := (h _ 1 _ (afterOneOpening_reachable (spotLong_labelled "")) 0 0 state
      hstate).identity.cash
    simp only [hstate, Except.toOption, Option.map_some, Option.some.injEq, Prod.mk.injEq]
      at hfigures
    rw [hfigures.1, hfigures.2.1, hfigures.2.2, canonicalInitialCapitalUsd] at hcash
    norm_num at hcash

end InefficiencyEngine.Portfolio
