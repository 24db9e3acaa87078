import InefficiencyEngine.Portfolio.OpeningDiscipline

namespace InefficiencyEngine.Portfolio

open Prog

/-!
# Mutual exclusion across cycles

The allocator accepts candidates with pairwise disjoint conflict keys, but the allocations
it returns do not carry the keys.  A later cycle excludes an allocation by the keys it
recomputes from the trials of the open positions, which are their venues and symbols only.
So exclusion holds within a plan (`UnifiedPaperAllocationPlan.Accepts.disjoint`), and between
positions of different cycles as far as a shared conflict key comes with a shared venue and
symbol (`exclusive_of_reachable`).
-/

/-! ### What the allocator accepts -/

/-- The candidates the allocation loop accepts: those whose iteration adds an allocation. -/
def AllocationState.accepted (limits : AllocationLimits) :
    AllocationState → List UnifiedPaperCandidate → List UnifiedPaperCandidate
  | _, [] => []
  | s, item :: rest =>
    match s.step limits item with
    | .error _ => []
    | .ok s' =>
      if s.allocations.length < s'.allocations.length then item :: s'.accepted limits rest
      else s'.accepted limits rest

/-- The candidates `allocate_prequalified_candidates` accepts. -/
def acceptedCandidates (settings : AllocatorSettings) (candidates : List UnifiedPaperCandidate)
    (totalCapitalUsd : ℚ) (maxVenueFraction maxAssetFraction : Option ℚ)
    (maxAllocations : Option ℤ) : List UnifiedPaperCandidate :=
  match PortfolioRiskOverlay.init settings totalCapitalUsd with
  | .error _ => []
  | .ok overlay =>
    (AllocationState.start overlay).accepted
      { totalCapitalUsd := totalCapitalUsd
        venueCap := totalCapitalUsd * orDefault maxVenueFraction settings.allocatorMaxVenueFraction
        assetCap := totalCapitalUsd * orDefault maxAssetFraction settings.allocatorMaxAssetFraction
        allocationLimit := settings.allocationLimit maxAllocations }
      (candidates.insertionSort ranksBefore)

/-- No candidate shares a conflict key with another one. -/
def KeysDisjoint (c d : UnifiedPaperCandidate) : Prop :=
  c.conflictKeys.Disjoint d.conflictKeys

/-- An item the gates let pass has conflict keys that are not in use. -/
theorem AllocationState.conflictKeys_of_refusal {limits : AllocationLimits} {s : AllocationState}
    {item : UnifiedPaperCandidate} (h : s.refusal limits item = none) :
    item.conflictKeys.Disjoint s.usedConflicts := by
  intro key hkey hused
  unfold AllocationState.refusal at h
  dsimp only at h
  split at h
  · cases h
  · split at h
    · cases h
    · rename_i hfree
      exact hfree ⟨key, hkey, hused⟩

/-- **Allocation loop.** The loop allocates to the candidates it accepts, whose conflict keys
    were not in use and are pairwise disjoint. A candidate whose keys are in use is refused, and
    the keys of an accepted one are in use for the rest of the loop. -/
theorem AllocationState.accepted_spec {limits : AllocationLimits}
    (ordered : List UnifiedPaperCandidate) {s final : AllocationState}
    (h : ordered.foldlM (AllocationState.step limits) s = .ok final) :
    final.allocations
        = s.allocations ++ (s.accepted limits ordered).map UnifiedPaperCandidate.toAllocation
      ∧ (s.accepted limits ordered).Pairwise KeysDisjoint
      ∧ ∀ c ∈ s.accepted limits ordered, c.conflictKeys.Disjoint s.usedConflicts := by
  induction ordered generalizing s with
  | nil =>
    injection h with h
    subst h
    exact ⟨(List.append_nil _).symm, List.Pairwise.nil, fun c hc => by cases hc⟩
  | cons item rest ih =>
    rw [List.foldlM_cons] at h
    obtain ⟨s', hstep, h⟩ := bind_eq_ok h
    obtain ⟨hallocations, hpairwise, hfree⟩ := ih h
    rw [AllocationState.accepted, hstep]
    dsimp only
    -- the item is accepted, or neither the allocations nor the used keys change
    rcases AllocationState.step_cases hstep with ⟨hrefusal, -, rfl⟩ | ⟨hsame, hused, -⟩
    · have hgrows : ∀ overlay,
          s.allocations.length < (s.accept item overlay).allocations.length := by
        intro overlay
        show s.allocations.length < (s.allocations ++ [item.toAllocation]).length
        rw [List.length_append, List.length_singleton]
        omega
      rw [if_pos (hgrows _)]
      have hrest : ∀ c ∈ AllocationState.accepted limits _ rest,
          c.conflictKeys.Disjoint (s.usedConflicts ++ item.conflictKeys) := hfree
      refine ⟨?_, List.pairwise_cons.mpr ⟨fun c hc => ?_, hpairwise⟩, fun c hc => ?_⟩
      · rw [hallocations, List.map_cons]
        exact List.append_assoc _ _ _
      · exact ((List.disjoint_append_right.mp (hrest c hc)).2).symm
      · rcases List.mem_cons.mp hc with rfl | hc
        · exact conflictKeys_of_refusal hrefusal
        · exact (List.disjoint_append_right.mp (hrest c hc)).1
    · rw [if_neg (by rw [hsame]; exact lt_irrefl _)]
      rw [hsame] at hallocations
      rw [hused] at hfree
      exact ⟨hallocations, hpairwise, hfree⟩

/-- The plan is what the allocator makes of some candidates, of which it accepts `items`. -/
def UnifiedPaperAllocationPlan.Accepts (plan : UnifiedPaperAllocationPlan)
    (items : List UnifiedPaperCandidate) : Prop :=
  ∃ settings candidates familyFailures total maxVenueFraction maxAssetFraction maxAllocations
      observedAt,
    allocatePrequalifiedCandidates settings candidates familyFailures total maxVenueFraction
        maxAssetFraction maxAllocations observedAt = .ok plan
      ∧ items = acceptedCandidates settings candidates total maxVenueFraction maxAssetFraction
        maxAllocations

/-- **Within a plan.** A plan allocates to candidates with pairwise disjoint conflict keys. -/
theorem UnifiedPaperAllocationPlan.Accepts.disjoint {plan : UnifiedPaperAllocationPlan}
    {items : List UnifiedPaperCandidate} (h : plan.Accepts items) :
    plan.allocations = items.map UnifiedPaperCandidate.toAllocation
      ∧ items.Pairwise KeysDisjoint := by
  obtain ⟨settings, candidates, familyFailures, total, maxVenueFraction, maxAssetFraction,
    maxAllocations, observedAt, hplan, rfl⟩ := h
  unfold allocatePrequalifiedCandidates at hplan
  split at hplan
  · cases hplan
  · dsimp only at hplan
    split at hplan
    · cases hplan
    · obtain ⟨overlay, hoverlay, hplan⟩ := bind_eq_ok hplan
      obtain ⟨final, hfinal, hplan⟩ := bind_eq_ok hplan
      injection hplan with hplan
      subst hplan
      obtain ⟨hallocations, hpairwise, -⟩ := AllocationState.accepted_spec _ hfinal
      rw [acceptedCandidates, hoverlay]
      exact ⟨hallocations, hpairwise⟩

/-! ### The candidates behind the positions -/

section Origin

/-- The position `p` was opened from the candidate `c`: at some place of the plan of some
    cycle, where `origin n` are the candidates the plan of cycle `n` was made of. -/
def OpenedFrom (R : Runtime) (origin : ℕ → List UnifiedPaperCandidate) (p : Uuid)
    (c : UnifiedPaperCandidate) : Prop :=
  ∃ run i, p = R.uuid4 run (.position i) ∧ (origin run)[i]? = some c

variable {R : Runtime} {origin : ℕ → List UnifiedPaperCandidate} {n : ℕ} {input : CycleInput}
  {s : PortfolioStore}

/-- A position has one candidate. -/
theorem OpenedFrom.eq {i : ℕ} {c d : UnifiedPaperCandidate} (hc : (origin n)[i]? = some c)
    (h : OpenedFrom R origin (R.uuid4 n (.position i)) d) : d = c := by
  obtain ⟨run, j, hid, hd⟩ := h
  obtain ⟨rfl, hdraw⟩ := R.uuid4_injective hid
  injection hdraw with hij
  rw [← hij, hc, Option.some.injEq] at hd
  exact hd.symm

/-- The plan the cycle deploys is the allocator's, and accepts the candidates `origin n`. -/
def PlansFrom (R : Runtime) (origin : ℕ → List UnifiedPaperCandidate) (n : ℕ)
    (s : PortfolioStore) (input : CycleInput) : Prop :=
  ∀ half plan, (settlementHalf R n input s).2 = .ok half →
    input.boundedAllocationPlan (max 0 half.afterClose.cashUsd) = .ok plan →
    plan.Accepts (origin n)

/-- When a candidate of the plan, on a contract that settles it, shares a conflict key with
    the candidate of a position that is open after the closes of the cycle, its trial shares
    a key with that position too. -/
def KeysRecognized (R : Runtime) (origin : ℕ → List UnifiedPaperCandidate) (n : ℕ)
    (s : PortfolioStore) (input : CycleInput) : Prop :=
  ∀ half, (settlementHalf R n input s).2 = .ok half →
    ∀ i c observedAt trial, (origin n)[i]? = some c →
      trialFromAllocation R.upper (R.uuid4 n (.trial i)) c.toAllocation observedAt = .ok trial →
      trial.settlementSupported = true →
      ∀ position ∈ half.afterClose.positions, ∀ d, OpenedFrom R origin position.positionId d →
        ¬ KeysDisjoint c d →
        ¬ (trialConflicts trial).Disjoint (openConflicts half.openEvents [position])

/-- Every open position was opened from an accepted candidate, and those of different
    positions share no conflict key. -/
structure Exclusive (R : Runtime) (origin : ℕ → List UnifiedPaperCandidate)
    (s : PortfolioStore) (state : CanonicalPaperPortfolioSnapshot) : Prop where
  attributed : ∀ p ∈ state.positions, ∃ c, OpenedFrom R origin p.positionId c
  disjoint : ∀ p ∈ state.positions, ∀ q ∈ state.positions, p.positionId ≠ q.positionId →
    ∀ c d, OpenedFrom R origin p.positionId c → OpenedFrom R origin q.positionId d →
      KeysDisjoint c d

/-- The candidates of two positions share no conflict key. -/
def KeysApart (R : Runtime) (origin : ℕ → List UnifiedPaperCandidate)
    (item other : Uuid × CanonicalPortfolioEvent) : Prop :=
  ∀ c d, OpenedFrom R origin item.1 c → OpenedFrom R origin other.1 d → KeysDisjoint c d

instance : Std.Symm (KeysApart R origin) := ⟨fun _ _ h c d hc hd => (h d c hd hc).symm⟩

/-- Every listed position was opened from an accepted candidate. -/
def Attributed (R : Runtime) (origin : ℕ → List UnifiedPaperCandidate) (s : PortfolioStore) :
    Prop :=
  ∀ item ∈ (replay s.events).listedItems, ∃ c, OpenedFrom R origin item.1 c

/-- **Step.** A cycle whose plan is the allocator's, and that recognizes the shared keys,
    opens nothing that shares a key with an open position. -/
theorem runCycle_keysApart (h : Sound R n s) (hs : ListedPairwise (KeysApart R origin) s)
    (hplans : PlansFrom R origin n s input) (hkeys : KeysRecognized R origin n s input) (k : ℕ) :
    ListedWithin R n (KeysApart R origin) (fun i => ∃ c, (origin n)[i]? = some c) s
      (commitAll s ((runCycle R n input s).1.take k)) := by
  refine runCycle_listed h hs ?_ k
  intro half plan hhalf hplan t ht i allocation trial e hopening
  obtain ⟨hallocations, hdisjoint⟩ := (hplans half plan hhalf hplan).disjoint
  obtain ⟨c, hc, rfl⟩ : ∃ c, (origin n)[i]? = some c ∧ c.toAllocation = allocation := by
    have hoffered := hopening.offered
    rwa [hallocations, List.getElem?_map, Option.map_eq_some_iff] at hoffered
  refine ⟨⟨c, hc⟩, fun item hitem c' d' hc' hd' => ?_⟩
  rw [OpenedFrom.eq hc hd']
  have hsettle : Spec (Sound R n) (settlementHalf R n input) (CycleBlock R n input s)
    (fun half => Settled R n half) := spec_settlementHalf
  have hsettled : Settled R n half (afterSettlement R n input s) := hsettle.post s half h hhalf
  rcases ht.since item hitem with hbefore | ⟨j, ⟨d, hd⟩, hid⟩
  · -- A position opened before: had its candidate a key of this one, so would its trial.
    by_contra hshared
    obtain ⟨position, hposition, hid, hget⟩ :=
      hsettled.working.ledger.listed_position hsettled.afterClose hbefore
    obtain ⟨run, -, j, opened, u, -, hby⟩ :=
      hsettled.working.ledger.opened _ _ (Replay.mem_openItems.mp (List.mem_of_mem_filter hbefore)).1
    have hconflicts : openConflicts half.openEvents [position] = trialConflicts u :=
      openConflicts_singleton (by rw [hsettled.openEvents]; exact hget) hby.eventTrial_eq
    cases hopening.opened with
    | intro eventId observedAt htrial hsupported =>
      refine hkeys half hhalf i c observedAt trial hc htrial hsupported position hposition c'
        (hid ▸ hc') (fun hdisjoint => hshared hdisjoint.symm) ?_
      rw [hconflicts]
      exact hopening.free item hitem u hby.eventTrial_eq
  · -- A position of the same plan.
    rw [hid] at hc'
    rw [OpenedFrom.eq hd hc']
    have hne : j ≠ i := by
      rintro rfl
      have hopened := (Replay.mem_openItems.mp (List.mem_of_mem_filter hitem)).1
      rw [hid, hopening.fresh] at hopened
      cases hopened
    obtain ⟨hj, rfl⟩ := List.getElem?_eq_some_iff.mp hd
    obtain ⟨hi, rfl⟩ := List.getElem?_eq_some_iff.mp hc
    rcases Nat.lt_or_gt_of_ne hne with hlt | hgt
    · exact List.pairwise_iff_getElem.mp hdisjoint j i hj hi hlt
    · exact (List.pairwise_iff_getElem.mp hdisjoint i j hi hj hgt).symm

/-- **Run.** In every reachable store the keys of the positions listed are pairwise apart, and
    each position comes from an offered candidate. -/
theorem Reachable.keysApart (h : Reachable R (fun n s input => PlansFrom R origin n s input
      ∧ KeysRecognized R origin n s input) n s) :
    ListedPairwise (KeysApart R origin) s ∧ Attributed R origin s := by
  induction h with
  | start => exact ⟨List.Pairwise.nil, fun item hitem => by cases hitem⟩
  | cycle hs input hinput k ih =>
    have hwithin := runCycle_keysApart hs.sound ih.1 hinput.1 hinput.2 k
    refine ⟨hwithin.pairwise, fun item hitem => ?_⟩
    rcases hwithin.since item hitem with hbefore | ⟨i, ⟨c, hc⟩, hid⟩
    · exact ih.2 item hbefore
    · exact ⟨c, _, i, hid, hc⟩

end Origin

/-! ### Two trend candidates on one asset -/

/-- A candidate of the trend strategy on one BTC market. -/
def trendOf (symbol : String) : UnifiedPaperCandidate :=
  { Sample.candidate ("trend:" ++ symbol) symbol .directionalLong .spot 100 with
    conflictKeys := ["alpha-instrument:kraken:" ++ symbol, "directional-trend:BTC"] }

/-- A cycle that quotes one market and is offered candidates. -/
def offerCandidates (completedAt : Instant) (quoted : String)
    (candidates : List UnifiedPaperCandidate) : CycleInput :=
  Sample.input completedAt
    [⟨"kraken", "BTC", .spot, quoted, 100, completedAt⟩] []
    (fun cash => (allocatePrequalifiedCandidates defaultFractions candidates [] cash none none
      none completedAt).mapError (fun _ => "ValueError"))

/-- The candidates such a cycle accepts with some cash. -/
def acceptedOffer (candidates : List UnifiedPaperCandidate) (cash : ℚ) :
    List UnifiedPaperCandidate :=
  acceptedCandidates defaultFractions candidates cash none none none

/-- The plan of such a cycle is the allocator's. -/
theorem plansFrom_offerCandidates {origin : ℕ → List UnifiedPaperCandidate} {n : ℕ}
    {s : PortfolioStore} {completedAt : Instant} {quoted : String}
    {candidates : List UnifiedPaperCandidate} {cash : ℚ}
    (hcash : (settlementHalf Runtime.sample n (offerCandidates completedAt quoted candidates)
      s).2.toOption.map (fun half => max 0 half.afterClose.cashUsd) = some cash)
    (horigin : origin n = acceptedOffer candidates cash) :
    PlansFrom Runtime.sample origin n s (offerCandidates completedAt quoted candidates) := by
  intro half plan hhalf hplan
  rw [hhalf] at hcash
  rw [show max 0 half.afterClose.cashUsd = cash from Option.some.inj hcash] at hplan
  refine ⟨defaultFractions, candidates, [], cash, none, none, none, completedAt, ?_, horigin⟩
  replace hplan : (allocatePrequalifiedCandidates defaultFractions candidates [] cash none none none
    completedAt).mapError (fun _ => "ValueError") = .ok plan := hplan
  cases hmade : allocatePrequalifiedCandidates defaultFractions candidates [] cash none none none
      completedAt with
  | error raised =>
    rw [hmade] at hplan
    cases hplan
  | ok made =>
    rw [hmade] at hplan
    injection hplan with hplan
    rw [hplan]

/-- A first cycle offered both markets of BTC, and a second one offered the one that was not
    taken. -/
def bothOffers : ℕ → CycleInput
  | 0 => offerCandidates 0 "" [trendOf "BTC/USD", trendOf "BTC/USDT"]
  | _ => offerCandidates 1 "BTC/USD" [trendOf "BTC/USDT"]

/-- The candidates their plans are made of. -/
def bothOrigins : ℕ → List UnifiedPaperCandidate
  | 0 => acceptedOffer [trendOf "BTC/USD", trendOf "BTC/USDT"] 250000
  | _ => acceptedOffer [trendOf "BTC/USDT"] 249900

/-- The ledgers before each of some cycles. -/
def ledgersOf (inputs : ℕ → CycleInput) : ℕ → PortfolioStore
  | 0 => PortfolioStore.empty
  | n + 1 => commitAll (ledgersOf inputs n)
    (runCycle Runtime.sample n (inputs n) (ledgersOf inputs n)).1

theorem plansFrom_bothOffers_zero :
    PlansFrom Runtime.sample bothOrigins 0 (ledgersOf bothOffers 0) (bothOffers 0) :=
  plansFrom_offerCandidates (by decide +kernel) rfl

/-- A candidate of the trend strategy on an ether market. -/
def trendOfEther : UnifiedPaperCandidate :=
  { Sample.candidate "trend:ETH/USD" "ETH/USD" .directionalLong .spot 100 with
    asset := "ETH"
    conflictKeys := ["alpha-instrument:kraken:ETH/USD", "directional-trend:ETH"] }

/-- A first cycle that takes one market of BTC, and a second one that is offered the same market
    again, and ether. -/
def laterOffers : ℕ → CycleInput
  | 0 => offerCandidates 0 "" [trendOf "BTC/USD", trendOf "BTC/USDT"]
  | _ => offerCandidates 1 "BTC/USD" [trendOf "BTC/USD", trendOfEther]

/-- The candidates their plans are made of. -/
def laterOrigins : ℕ → List UnifiedPaperCandidate
  | 0 => acceptedOffer [trendOf "BTC/USD", trendOf "BTC/USDT"] 250000
  | _ => acceptedOffer [trendOf "BTC/USD", trendOfEther] 249900

/-- Nothing is open in the first cycle. -/
theorem keysRecognized_laterOffers_zero :
    KeysRecognized Runtime.sample laterOrigins 0 (ledgersOf laterOffers 0) (laterOffers 0) := by
  intro half hhalf i c observedAt trial _ _ _ position hposition
  have hnone : (settlementHalf Runtime.sample 0 (laterOffers 0)
      PortfolioStore.empty).2.toOption.map (fun half => half.afterClose.positions.length)
      = some 0 := by
    decide +kernel
  rw [show (settlementHalf Runtime.sample 0 (laterOffers 0) PortfolioStore.empty).2 = .ok half
    from hhalf] at hnone
  rw [List.length_eq_zero_iff.mp (Option.some.inj hnone)] at hposition
  cases hposition

/-- The trial of the market that is held shares its key with the position, and ether shares none. -/
theorem keysRecognized_laterOffers_one :
    KeysRecognized Runtime.sample laterOrigins 1 (ledgersOf laterOffers 1) (laterOffers 1) := by
  intro half hhalf i c observedAt trial hc htrial _ position hposition d hd hshared
  have hopen : (settlementHalf Runtime.sample 1 (laterOffers 1)
      (ledgersOf laterOffers 1)).2.toOption.map (fun half =>
        (half.afterClose.positions.map (fun position => position.positionId),
          openConflicts half.openEvents half.afterClose.positions))
      = some ([Runtime.sample.uuid4 0 (.position 0)], ["venue-symbol:kraken:BTC/USD"]) := by
    decide +kernel
  rw [hhalf] at hopen
  obtain ⟨hids, hconflicts⟩ := Prod.mk.inj (Option.some.inj hopen)
  obtain ⟨held, hheld, hid⟩ := List.map_eq_singleton_iff.mp hids
  rw [hheld, List.mem_singleton] at hposition
  subst hposition
  rw [hheld] at hconflicts
  -- the candidate of the position is the first one of the first cycle
  have hkeys : (laterOrigins 0)[0]?.map (fun c => c.conflictKeys)
      = some ["alpha-instrument:kraken:BTC/USD", "directional-trend:BTC"] := by
    decide +kernel
  obtain ⟨cycle, k, hcycle, hd⟩ := hd
  obtain ⟨rfl, hk⟩ := Runtime.sample.uuid4_injective (hid.symm.trans hcycle)
  injection hk with hk
  subst hk
  rw [hd] at hkeys
  have hoffered : (laterOrigins 1).map (fun c => (c.conflictKeys,
        (c.toAllocation.trialLegs Runtime.sample.upper).toOption.map List.length,
        c.toAllocation.venues, c.toAllocation.instrumentSymbol))
      = [(["alpha-instrument:kraken:BTC/USD", "directional-trend:BTC"], some 0, ["kraken"],
          some "BTC/USD"),
        (["alpha-instrument:kraken:ETH/USD", "directional-trend:ETH"], some 0, ["kraken"],
          some "ETH/USD")] := by
    decide +kernel
  have hat := congrArg (fun offered => offered[i]?) hoffered
  rw [List.getElem?_map, hc] at hat
  rcases i with _ | _ | i
  · -- the same market
    obtain ⟨-, hat⟩ := Prod.mk.inj (Option.some.inj hat)
    obtain ⟨hlegs, hat⟩ := Prod.mk.inj hat
    obtain ⟨hvenues, hsymbol⟩ := Prod.mk.inj hat
    obtain ⟨-, -, -, htrialLegs, -, -, -, -, htrialVenues, -, htrialSymbol, -⟩ :=
      trialFromAllocation_eq_ok htrial
    rw [htrialLegs] at hlegs
    have hnolegs : trial.settlementLegs = [] := List.length_eq_zero_iff.mp (Option.some.inj hlegs)
    have hown : trialConflicts trial = ["venue-symbol:kraken:BTC/USD"] := by
      rw [trialConflicts, hnolegs, htrialVenues, hvenues, htrialSymbol, hsymbol]
      rfl
    rw [hown, hconflicts]
    exact fun hdisjoint => hdisjoint List.mem_cons_self List.mem_cons_self
  · -- ether
    obtain ⟨hether, -⟩ := Prod.mk.inj (Option.some.inj hat)
    refine absurd ?_ hshared
    rw [KeysDisjoint, hether, show d.conflictKeys = _ from Option.some.inj hkeys]
    simp
  · cases hat

end InefficiencyEngine.Portfolio
