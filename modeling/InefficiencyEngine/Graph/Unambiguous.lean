import InefficiencyEngine.Graph.NewestView

namespace InefficiencyEngine.Graph

open Portfolio (Instant MarketKind Positive IntervalHours)

/-!
# When the market graph is the newest view

`newestView_iff` proves that the graph is the newest view of the quotes exactly when the quotes are
unambiguous.  In one direction every field of an instrument is settled, so that any order of the
quotes leaves the same record; in the other the orders that make a difference are written down.
-/

/-- The observation times are distinct for each instrument. -/
def DistinctTimes {α : Type} (id : α → String) (time : α → Instant) (rows : List α) : Prop :=
  rows.Pairwise (fun a b => id a = id b → time a ≠ time b)

variable {R : TextRuntime} {now : Instant} {funding funding' : List FundingQuote}
  {market market' : List MarketQuote} {id : String} {instrument a b : CanonicalInstrument}

/-! ### The parts of the graph -/

theorem mem_instruments :
    instrument ∈ (buildMarketGraph R now funding market).instruments
      ↔ instrumentOf R (pricesOf R market instrument.instrumentId)
          (fundingOf R funding instrument.instrumentId) = some instrument := by
  rw [← get?_instruments, ← mem_values_iff]
  exact mem_sortOn

theorem mem_edges {edge : MarketGraphEdge} :
    edge ∈ (buildMarketGraph R now funding market).edges ↔ edge ∈ allEdges R funding market :=
  mem_sortOn.trans (holds_edges R funding market).mem_values

/-- The times of an instrument's quotes are distinct. -/
theorem DistinctTimes.filter {α : Type} {id : α → String} {time : α → Instant} {rows : List α}
    (h : DistinctTimes id time rows) (key : String) :
    (rows.filter (fun a => id a = key)).Pairwise (fun a b => time a ≠ time b) := by
  refine List.Pairwise.imp_of_mem (fun {a b} ha hb hab => hab ?_) (List.Pairwise.filter _ h)
  have ha' : id a = key := by simpa using (List.mem_filter.mp ha).2
  have hb' : id b = key := by simpa using (List.mem_filter.mp hb).2
  exact ha'.trans hb'.symm

/-- Two listings share the id of an instrument when they are written alike. -/
theorem instrumentId_eq_iff {l l' : Listing} :
    l.instrumentId R = l'.instrumentId R ↔ SameSlugs R l l' := by
  unfold Listing.instrumentId
  rw [canonicalInstrumentId_inj]
  have hidem : ∀ l : Listing, normalizedContractKey l.marketKind (some l.key) = l.key := fun l =>
    normalizedContractKey_idem l.marketKind l.contractKey
  rw [hidem, hidem]
  constructor
  · rintro ⟨hvenue, hkind, hasset, hkey⟩
    exact ⟨hvenue, hasset, hkind, hkey⟩
  · rintro ⟨hvenue, hasset, hkind, hkey⟩
    exact ⟨hvenue, hkind, hasset, hkey⟩

namespace SameInstrument

variable (h : SameInstrument a b)
include h

theorem instrumentId : a.instrumentId = b.instrumentId := by rw [← h.record]

theorem assetId : a.assetId = b.assetId := by rw [← h.record]

theorem quoteCurrency : a.quoteCurrency = b.quoteCurrency := by rw [← h.record]

theorem expiresAt : a.expiresAt = b.expiresAt := by rw [← h.record]

end SameInstrument

/-- An equivalence reads only what same instruments have in common. -/
theorem equivalenceEdge_congr {a' b' : CanonicalInstrument} (h : SameInstrument a b)
    (h' : SameInstrument a' b') :
    equivalenceEdge a.assetId a a' = equivalenceEdge b.assetId b b' := by
  rw [equivalenceEdge, equivalenceEdge, h.instrumentId, h.assetId, h.quoteCurrency,
    h'.instrumentId, h'.quoteCurrency]

/-! ### One edge for two instruments -/

/-- **Equivalences.** Two instruments of an asset are joined by exactly one edge. -/
theorem existsUnique_joins {left right : CanonicalInstrument}
    (hleft : left ∈ (buildMarketGraph R now funding market).instruments)
    (hright : right ∈ (buildMarketGraph R now funding market).instruments)
    (hasset : left.assetId = right.assetId) (hne : left.instrumentId ≠ right.instrumentId) :
    ∃! edge, edge ∈ (buildMarketGraph R now funding market).edges ∧ Joins edge left right := by
  -- the edge goes from the smaller id to the larger one
  have key : ∀ {left right : CanonicalInstrument},
      left ∈ (instrumentsDict R funding market).values →
      right ∈ (instrumentsDict R funding market).values → left.assetId = right.assetId →
      left.instrumentId < right.instrumentId →
      ∃! edge, edge ∈ allEdges R funding market ∧ Joins edge left right := by
    intro left right hleft hright hasset hlt
    have hmem : equivalenceEdge left.assetId left right ∈ allEdges R funding market :=
      List.mem_append_right _ (mem_equivalenceEdges_values.mpr
        ⟨left, hleft, right, hright, hasset, hlt, rfl⟩)
    refine ⟨equivalenceEdge left.assetId left right, ⟨hmem, rfl, Or.inl ⟨rfl, rfl⟩⟩, ?_⟩
    rintro edge ⟨hedge, hrelation, hends⟩
    refine edge_eq_of_edgeId_eq hmem hedge ?_
    rw [(wellNamed_of_mem_allEdges hedge).name, hrelation]
    rcases hends with ⟨hsource, htarget⟩ | ⟨hsource, htarget⟩
    · rw [hsource, htarget]
      rfl
    · -- an equivalence does not go from the larger id to the smaller one
      rcases List.mem_append.mp hedge with hlink | hequivalence
      · obtain ⟨listing, -, hlink⟩ := List.mem_flatMap.mp hlink
        exact absurd hrelation (wellNamed_of_mem_links hlink).2.1
      · obtain ⟨l, -, r, -, -, hlr, rfl⟩ := mem_equivalenceEdges_values.mp hequivalence
        rw [show l.instrumentId = right.instrumentId from hsource,
          show r.instrumentId = left.instrumentId from htarget] at hlr
        exact absurd hlr (lt_asymm hlt)
  have hvalue : ∀ {i : CanonicalInstrument},
      i ∈ (buildMarketGraph R now funding market).instruments →
      i ∈ (instrumentsDict R funding market).values := fun hi => mem_sortOn.mp hi
  simp only [mem_edges]
  rcases lt_or_gt_of_ne hne with hlt | hlt
  · exact key (hvalue hleft) (hvalue hright) hasset hlt
  · obtain ⟨edge, ⟨hedge, hjoins⟩, hunique⟩ := key (hvalue hright) (hvalue hleft) hasset.symm hlt
    have hswap : ∀ {e : MarketGraphEdge} {l r : CanonicalInstrument}, Joins e l r → Joins e r l :=
      fun h => ⟨h.1, h.2.symm⟩
    exact ⟨edge, ⟨hedge, hswap hjoins⟩, fun e he => hunique e ⟨he.1, hswap he.2⟩⟩

/-! ### Unambiguous quotes give one graph -/

/-- Records with the same fields are the same. -/
theorem record_eq (hnames : ∃ l, Named R l a ∧ ∃ l', Named R l' b ∧ SameListing R l l')
    (hid : a.instrumentId = b.instrumentId) (hcurrency : a.quoteCurrency = b.quoteCurrency)
    (hexpiry : a.expiresAt = b.expiresAt) (hobserved : a.observedAt = b.observedAt)
    (hprice : a.latestPrice = b.latestPrice) (hrate : a.latestFunding = b.latestFunding) :
    { a with providerSymbols := b.providerSymbols, sources := b.sources } = b := by
  obtain ⟨l, hl, l', hl', hsame⟩ := hnames
  have hslugs : SameSlugs R l l' := by
    rw [← instrumentId_eq_iff, ← hl.instrumentId, ← hl'.instrumentId, hid]
  have hasset : a.assetId = b.assetId := by
    rw [hl.assetId, hl'.assetId, canonicalAssetId, hslugs.asset]
    rfl
  have hvenueId : a.venueId = b.venueId := by
    rw [hl.venueId, hl'.venueId, hsame.venue]
  have hvenue : a.venue = b.venue := by rw [hl.venue, hl'.venue, hsame.venue]
  have hassetName : a.asset = b.asset := by rw [hl.asset, hl'.asset, hsame.asset]
  have hkind : a.marketKind = b.marketKind := by rw [hl.marketKind, hl'.marketKind, hsame.marketKind]
  have hkey : a.contractKey = b.contractKey := by rw [hl.contractKey, hl'.contractKey, hsame.key]
  rw [hid, hasset, hvenueId, hvenue, hassetName, hkind, hkey, hcurrency, hexpiry, hobserved, hprice,
    hrate]

section Settled

variable (hmarket : DistinctTimes (fun quote => quote.listing.instrumentId R) MarketQuote.time market)
  (hfunding : DistinctTimes (fun quote => quote.listing.instrumentId R) FundingQuote.time funding)
include hmarket hfunding

/-- A value that is settled is the same for every order of the quotes. -/
theorem read_eq_of_settled {β : Type} {read : CanonicalInstrument → Option β}
    {val : MarketQuote → Option β} {val' : FundingQuote → Option β}
    (hread : ∀ prices funding, (instrumentOf R prices funding).map (fun i => (i.observedAt, read i))
      = writeTwice MarketQuote.time val FundingQuote.time val' prices funding)
    (hsettled : SettledTwice MarketQuote.time val FundingQuote.time val' (pricesOf R market id)
      (fundingOf R funding id))
    (hperm : market'.Perm market) (hperm' : funding'.Perm funding)
    (ha : instrumentOf R (pricesOf R market' id) (fundingOf R funding' id) = some a)
    (hb : instrumentOf R (pricesOf R market id) (fundingOf R funding id) = some b) :
    read a = read b := by
  rw [← held_of_map (hread _ _) ha, ← held_of_map (hread _ _) hb]
  exact hsettled.held_eq (hmarket.filter id) (hfunding.filter id) (hperm.filter _)
    (hperm'.filter _)

/-- **Settled instruments.** Unambiguous quotes make the same instrument in every order. -/
theorem Unambiguous.sameInstrument (h : Unambiguous R funding market) (hperm : market'.Perm market)
    (hperm' : funding'.Perm funding)
    (ha : instrumentOf R (pricesOf R market' id) (fundingOf R funding' id) = some a)
    (hb : instrumentOf R (pricesOf R market id) (fundingOf R funding id) = some b) :
    SameInstrument a b := by
  have hprices : (pricesOf R market' id).Perm (pricesOf R market id) := hperm.filter _
  have hfundings : (fundingOf R funding' id).Perm (fundingOf R funding id) := hperm'.filter _
  have hid : a.instrumentId = b.instrumentId := by
    have ha' := (get?_instruments funding' market' id).trans ha
    have hb' := (get?_instruments funding market id).trans hb
    rw [(of_get?_instruments ha').1, (of_get?_instruments hb').1]
  have hnames : ∃ l, Named R l a ∧ ∃ l', Named R l' b ∧ SameListing R l l' := by
    obtain ⟨-, l, hl, hnamed⟩ := of_get?_instruments ((get?_instruments funding' market' id).trans ha)
    obtain ⟨-, l', hl', hnamed'⟩ := of_get?_instruments ((get?_instruments funding market id).trans hb)
    refine ⟨l, hnamed, l', hnamed', h.names l ?_ l' hl' ?_⟩
    · exact ((hperm.map _).append (hperm'.map _)).mem_iff.mp hl
    · rw [← instrumentId_eq_iff, ← hnamed.instrumentId, ← hnamed'.instrumentId, hid]
  have hobserved : a.observedAt = b.observedAt := by
    have hle : ∀ t, a.observedAt ≤ t ↔ b.observedAt ≤ t := fun t => by
      rw [observedAt_le_iff ha, observedAt_le_iff hb]
      refine and_congr (forall_congr' fun q => ?_) (forall_congr' fun q => ?_)
      · rw [hprices.mem_iff]
      · rw [hfundings.mem_iff]
    exact le_antisymm ((hle _).mpr (le_refl _)) ((hle _).mp (le_refl _))
  have hprice : a.latestPrice = b.latestPrice := by
    refine read_eq_of_settled hmarket hfunding (fun _ _ => price_instrumentOf) ?_ hperm hperm' ha hb
    by_cases hempty : pricesOf R market id = []
    · exact Or.inr ⟨none, Or.inr ⟨by simp [hempty], rfl⟩, fun _ _ _ => Or.inl rfl⟩
    · obtain ⟨quote, hnewest⟩ := exists_newest MarketQuote.time hempty
      exact Or.inr ⟨some quote.latestPrice, Or.inl ⟨quote, hnewest, rfl, rfl⟩,
        fun _ _ _ => Or.inl rfl⟩
  have hrate : a.latestFunding = b.latestFunding := by
    refine read_eq_of_settled hmarket hfunding (fun _ _ => rate_instrumentOf) ?_ hperm hperm' ha hb
    by_cases hempty : fundingOf R funding id = []
    · refine Or.inr ⟨none, Or.inr ⟨fun _ _ => rfl, rfl⟩, ?_⟩
      simp [hempty]
    · -- the newest funding quote is no older than the market quotes
      obtain ⟨quote, hquote, hnewest⟩ := exists_newest FundingQuote.time hempty
      obtain ⟨hmem, hquoteId⟩ := List.mem_filter.mp hquote
      have hquoteId : quote.listing.instrumentId R = id := of_decide_eq_true hquoteId
      obtain ⟨newer, hnewer, hnewerId, hfresh⟩ := h.fresh quote hmem
      refine Or.inl ⟨quote, ⟨hquote, hnewest⟩, fun price hprice => ?_, rfl⟩
      obtain ⟨hpriceMem, hpriceId⟩ := List.mem_filter.mp hprice
      have hle := hfresh price hpriceMem ((of_decide_eq_true hpriceId).trans hquoteId.symm)
      refine hle.trans (hnewest newer (List.mem_filter.mpr ⟨hnewer, decide_eq_true ?_⟩))
      exact hnewerId.trans hquoteId
  refine ⟨record_eq hnames hid ?_ ?_ hobserved hprice hrate, fun source => ?_, fun source => ?_⟩
  · exact read_eq_of_settled hmarket hfunding (fun _ _ => currency_instrumentOf) (h.currency id)
      hperm hperm' ha hb
  · exact read_eq_of_settled hmarket hfunding (fun _ _ => expiry_instrumentOf) (h.expiry id)
      hperm hperm' ha hb
  · rw [get?_providerSymbols ha, get?_providerSymbols hb]
    exact oneSymbol_iff.mp (h.symbols id) _ _ hprices hfundings source
  · rw [mem_sources ha, mem_sources hb]
    refine or_congr (exists_congr fun q => ?_) (exists_congr fun q => ?_)
    · rw [hprices.mem_iff]
    · rw [hfundings.mem_iff]

end Settled

/-- The quotes of an instrument are there in every order. -/
theorem instrumentOf_isSome_perm (hperm : market'.Perm market) (hperm' : funding'.Perm funding)
    (id : String) :
    (instrumentOf R (pricesOf R market' id) (fundingOf R funding' id)).isSome
      = (instrumentOf R (pricesOf R market id) (fundingOf R funding id)).isSome := by
  have hprices : (pricesOf R market' id).Perm (pricesOf R market id) := hperm.filter _
  have hfundings : (fundingOf R funding' id).Perm (fundingOf R funding id) := hperm'.filter _
  rw [Bool.eq_iff_iff, ← not_iff_not, Option.not_isSome_iff_eq_none, Option.not_isSome_iff_eq_none,
    instrumentOf_eq_none_iff, instrumentOf_eq_none_iff, ← List.length_eq_zero_iff,
    ← List.length_eq_zero_iff, hprices.length_eq, hfundings.length_eq, List.length_eq_zero_iff,
    List.length_eq_zero_iff]

/-- Lists with the same keys, whose rows of one key are related, are related. -/
theorem forall₂_of_map_eq {α κ : Type} {key : α → κ} {r : α → α → Prop} {xs ys : List α}
    (hkeys : xs.map key = ys.map key) (h : ∀ x ∈ xs, ∀ y ∈ ys, key x = key y → r x y) :
    List.Forall₂ r xs ys := by
  induction xs generalizing ys with
  | nil =>
    cases ys with
    | nil => exact List.Forall₂.nil
    | cons y ys => cases hkeys
  | cons x xs ih =>
    cases ys with
    | nil => cases hkeys
    | cons y ys =>
      obtain ⟨hkey, hrest⟩ := List.cons.inj hkeys
      refine List.Forall₂.cons (h x List.mem_cons_self y List.mem_cons_self hkey) (ih hrest ?_)
      exact fun x' hx' y' hy' => h x' (List.mem_cons_of_mem x hx') y' (List.mem_cons_of_mem y hy')

theorem exists_of_mem_forall₂ {α : Type} {r : α → α → Prop} {xs ys : List α}
    (h : List.Forall₂ r xs ys) {x : α} (hx : x ∈ xs) : ∃ y ∈ ys, r x y := by
  induction h with
  | nil => cases hx
  | cons hxy _ ih =>
    rcases List.mem_cons.mp hx with rfl | hrest
    · exact ⟨_, List.mem_cons_self, hxy⟩
    · obtain ⟨y, hy, hr⟩ := ih hrest
      exact ⟨y, List.mem_cons_of_mem _ hy, hr⟩

/-- The ids of the instruments are the same for every order. -/
theorem map_instrumentId_perm (hperm : market'.Perm market) (hperm' : funding'.Perm funding) :
    (buildMarketGraph R now funding' market').instruments.map CanonicalInstrument.instrumentId
      = (buildMarketGraph R now funding market).instruments.map CanonicalInstrument.instrumentId := by
  -- the ids are sorted and distinct, so they are equal when they have the same members
  have hstrict : ∀ funding market,
      ((buildMarketGraph R now funding market).instruments.map
        CanonicalInstrument.instrumentId).Pairwise (· < ·) := fun funding market =>
    List.pairwise_map.mpr (pairwise_lt_sortOn (holds_instruments R funding market).nodup_map_key)
  -- an instrument of one order has one of the same id in the other
  have hmem : ∀ {funding funding' : List FundingQuote} {market market' : List MarketQuote},
      market'.Perm market → funding'.Perm funding → ∀ id,
      id ∈ (buildMarketGraph R now funding' market').instruments.map
        CanonicalInstrument.instrumentId →
      id ∈ (buildMarketGraph R now funding market).instruments.map
        CanonicalInstrument.instrumentId := by
    intro funding funding' market market' hperm hperm' id hid
    obtain ⟨i, hi, rfl⟩ := List.mem_map.mp hid
    have hsome := instrumentOf_isSome_perm (R := R) hperm hperm' i.instrumentId
    rw [mem_instruments.mp hi] at hsome
    obtain ⟨j, hj⟩ := Option.isSome_iff_exists.mp hsome.symm
    have hget := (get?_instruments funding market i.instrumentId).trans hj
    have hjid := (of_get?_instruments hget).1
    refine List.mem_map.mpr ⟨j, mem_instruments.mpr ?_, hjid⟩
    rw [hjid]
    exact hj
  have hpermIds := (List.perm_ext_iff_of_nodup ((hstrict funding' market').imp ne_of_lt)
    ((hstrict funding market).imp ne_of_lt)).mpr
    (fun id => ⟨hmem hperm hperm' id, hmem hperm.symm hperm'.symm id⟩)
  exact hpermIds.eq_of_pairwise (fun _ _ _ _ hab hba => absurd hab (lt_asymm hba))
    (hstrict funding' market') (hstrict funding market)

section Graphs

variable (hmarket : DistinctTimes (fun quote => quote.listing.instrumentId R) MarketQuote.time market)
  (hfunding : DistinctTimes (fun quote => quote.listing.instrumentId R) FundingQuote.time funding)
include hmarket hfunding

/-- Every instrument is there in another order too. -/
theorem Unambiguous.exists_sameInstrument (h : Unambiguous R funding market)
    (hperm : market'.Perm market) (hperm' : funding'.Perm funding) :
    (∀ i ∈ (instrumentsDict R funding' market').values,
      ∃ j ∈ (instrumentsDict R funding market).values, SameInstrument i j)
    ∧ ∀ j ∈ (instrumentsDict R funding market).values,
      ∃ i ∈ (instrumentsDict R funding' market').values, SameInstrument i j := by
  have hsome := fun id => instrumentOf_isSome_perm (R := R) hperm hperm' id
  constructor
  · intro i hi
    have hi := mem_values_iff.mp hi
    rw [get?_instruments] at hi
    obtain ⟨j, hj⟩ := Option.isSome_iff_exists.mp
      ((hsome i.instrumentId).symm.trans (Option.isSome_iff_exists.mpr ⟨i, hi⟩))
    have hsame := h.sameInstrument hmarket hfunding hperm hperm' hi hj
    refine ⟨j, mem_values_iff.mpr ?_, hsame⟩
    rw [get?_instruments, ← hsame.instrumentId]
    exact hj
  · intro j hj
    have hj := mem_values_iff.mp hj
    rw [get?_instruments] at hj
    obtain ⟨i, hi⟩ := Option.isSome_iff_exists.mp
      ((hsome j.instrumentId).trans (Option.isSome_iff_exists.mpr ⟨j, hj⟩))
    have hsame := h.sameInstrument hmarket hfunding hperm hperm' hi hj
    refine ⟨i, mem_values_iff.mpr ?_, hsame⟩
    rw [get?_instruments, hsame.instrumentId]
    exact hi

/-- **One graph.** Unambiguous quotes make the same graph in every order. Every instrument of
    one order has its like in the other, so the nodes are paired by their ids and the edges by
    those of their ends. -/
theorem Unambiguous.sameGraph (h : Unambiguous R funding market) (hperm : market'.Perm market)
    (hperm' : funding'.Perm funding) :
    SameGraph (buildMarketGraph R now funding' market') (buildMarketGraph R now funding market) := by
  obtain ⟨hforth, hback⟩ := h.exists_sameInstrument hmarket hfunding hperm hperm'
  refine ⟨?_, forall₂_of_map_eq (map_instrumentId_perm hperm hperm') ?_, ?_⟩
  -- the time of the graph is the latest of the quotes
  · show (List.max? _).getD now = (List.max? _).getD now
    rw [max?_eq_of_perm ((hperm.map _).append (hperm'.map _))]
  -- instruments of one id are alike
  · intro i hi j hj hid
    have hi := mem_instruments.mp hi
    have hj := mem_instruments.mp hj
    rw [hid] at hi
    exact h.sameInstrument hmarket hfunding hperm hperm' hi hj
  -- the edges of listings, and the equivalences between like instruments
  · refine (holds_edges R funding' market').sortOn_values_congr (holds_edges R funding market)
      (fun edge => ?_)
    rw [allEdges, allEdges, List.mem_append, List.mem_append]
    refine or_congr ?_ ?_
    · exact (((hperm.map _).append (hperm'.map _)).flatMap_right _).mem_iff
    · rw [mem_equivalenceEdges_values, mem_equivalenceEdges_values]
      constructor
      · rintro ⟨left, hleft, right, hright, hasset, hlt, rfl⟩
        obtain ⟨left', hleft', hsame⟩ := hforth left hleft
        obtain ⟨right', hright', hsame'⟩ := hforth right hright
        refine ⟨left', hleft', right', hright', ?_, ?_, equivalenceEdge_congr hsame hsame'⟩
        · rw [← hsame.assetId, ← hsame'.assetId, hasset]
        · rw [← hsame.instrumentId, ← hsame'.instrumentId]
          exact hlt
      · rintro ⟨left, hleft, right, hright, hasset, hlt, rfl⟩
        obtain ⟨left', hleft', hsame⟩ := hback left hleft
        obtain ⟨right', hright', hsame'⟩ := hback right hright
        refine ⟨left', hleft', right', hright', ?_, ?_, (equivalenceEdge_congr hsame hsame').symm⟩
        · rw [hsame.assetId, hsame'.assetId, hasset]
        · rw [hsame.instrumentId, hsame'.instrumentId]
          exact hlt

/-- The graph of unambiguous quotes is their newest view. -/
theorem Unambiguous.isNewestView (h : Unambiguous R funding market) :
    IsNewestView R now funding market where
  price i hi quote hnewest :=
    latestPrice_of_newest (hmarket.filter i.instrumentId) hnewest (mem_instruments.mp hi)
  rate i hi quote hnewest := by
    refine latestFunding_of_newest (hfunding.filter i.instrumentId) hnewest (fun price hprice => ?_)
      (mem_instruments.mp hi)
    obtain ⟨hmem, hquoteId⟩ := List.mem_filter.mp hnewest.1
    have hquoteId : quote.listing.instrumentId R = i.instrumentId := of_decide_eq_true hquoteId
    obtain ⟨newer, hnewer, hnewerId, hfresh⟩ := h.fresh quote hmem
    obtain ⟨hpriceMem, hpriceId⟩ := List.mem_filter.mp hprice
    have hle := hfresh price hpriceMem ((of_decide_eq_true hpriceId).trans hquoteId.symm)
    refine hle.trans (hnewest.2 newer (List.mem_filter.mpr ⟨hnewer, decide_eq_true ?_⟩))
    exact hnewerId.trans hquoteId
  stable funding' market' hperm' hperm := h.sameGraph hmarket hfunding hperm hperm'
  edge left hleft right hright hasset hne := existsUnique_joins hleft hright hasset hne
  apart l hl l' hl' hid := h.names l hl l' hl' (instrumentId_eq_iff.mp hid)

end Graphs

/-! ### The newest view needs unambiguous quotes -/

section Needed

variable (h : IsNewestView R now funding market)
include h

/-- In the newest view, any order of an instrument's quotes makes the same instrument. -/
theorem IsNewestView.sameInstrument {prices : List MarketQuote} {fundings : List FundingQuote}
    (hprices : prices.Perm (pricesOf R market id)) (hfundings : fundings.Perm (fundingOf R funding id)) :
    (instrumentOf R prices fundings = none
      ∧ instrumentOf R (pricesOf R market id) (fundingOf R funding id) = none)
    ∨ ∃ a b, instrumentOf R prices fundings = some a
      ∧ instrumentOf R (pricesOf R market id) (fundingOf R funding id) = some b
      ∧ SameInstrument a b := by
  -- the orders of one instrument's quotes extend to orders of the whole view
  obtain ⟨market', hperm, hmarket'⟩ := exists_perm_filter hprices
  obtain ⟨funding', hperm', hfunding'⟩ := exists_perm_filter hfundings
  have hsome := instrumentOf_isSome_perm (R := R) hperm hperm' id
  rw [show pricesOf R market' id = prices from hmarket',
    show fundingOf R funding' id = fundings from hfunding'] at hsome
  -- whether there is an instrument does not depend on the order
  cases ha : instrumentOf R prices fundings with
  | none =>
    rw [ha] at hsome
    exact Or.inl ⟨rfl, by simpa using hsome.symm⟩
  | some a =>
    -- the instrument of the reordered view is one of its graph
    have hget : (instrumentsDict R funding' market').get? id = some a := by
      rw [get?_instruments, show pricesOf R market' id = prices from hmarket',
        show fundingOf R funding' id = fundings from hfunding', ha]
    have haId := (of_get?_instruments hget).1
    have hmem : a ∈ (buildMarketGraph R now funding' market').instruments := by
      rw [mem_instruments, haId, ← get?_instruments]
      exact hget
    -- the graphs of the two orders agree instrument by instrument
    obtain ⟨b, hb, hsame⟩ := exists_of_mem_forall₂ (h.stable _ _ hperm' hperm).instruments hmem
    refine Or.inr ⟨a, b, rfl, ?_, hsame⟩
    have hb' := mem_instruments.mp hb
    rw [← hsame.instrumentId, haId] at hb'
    exact hb'

/-- A value of the instruments is settled. -/
theorem IsNewestView.settledTwice {β : Type} {read : CanonicalInstrument → Option β}
    {val : MarketQuote → Option β} {val' : FundingQuote → Option β}
    (hmarket : DistinctTimes (fun quote => quote.listing.instrumentId R) MarketQuote.time market)
    (hfunding : DistinctTimes (fun quote => quote.listing.instrumentId R) FundingQuote.time funding)
    (hread : ∀ prices funding, (instrumentOf R prices funding).map (fun i => (i.observedAt, read i))
      = writeTwice MarketQuote.time val FundingQuote.time val' prices funding)
    (hsame : ∀ a b, SameInstrument a b → read a = read b) (id : String) :
    SettledTwice MarketQuote.time val FundingQuote.time val' (pricesOf R market id)
      (fundingOf R funding id) := by
  refine (settledTwice_iff (hmarket.filter id) (hfunding.filter id)).mpr ?_
  intro prices fundings hperm hperm'
  rcases h.sameInstrument hperm hperm' with ⟨hnone, hnone'⟩ | ⟨a, b, ha, hb, hab⟩
  · rw [← hread, ← hread, hnone]
    exact congrArg (fun found : Option CanonicalInstrument =>
      held (found.map (fun i => (i.observedAt, read i)))) hnone'.symm
  · rw [held_of_map (hread _ _) ha]
    exact (hsame a b hab).trans (held_of_map (hread _ _) hb).symm

/-- The quotes of the newest view are unambiguous. -/
theorem IsNewestView.unambiguous
    (hmarket : DistinctTimes (fun quote => quote.listing.instrumentId R) MarketQuote.time market)
    (hfunding : DistinctTimes (fun quote => quote.listing.instrumentId R) FundingQuote.time funding) :
    Unambiguous R funding market where
  names a ha b hb hslugs := h.apart a ha b hb (instrumentId_eq_iff.mpr hslugs)
  fresh quote hquote := by
    by_contra hstale
    push Not at hstale
    -- the instrument of the quote has a newest funding quote, whose rate it does not have
    have hmem : quote ∈ fundingOf R funding (quote.listing.instrumentId R) :=
      List.mem_filter.mpr ⟨hquote, decide_eq_true rfl⟩
    obtain ⟨newest, hnewest⟩ := exists_newest FundingQuote.time (List.ne_nil_of_mem hmem)
    have hexists : instrumentOf R (pricesOf R market (quote.listing.instrumentId R))
        (fundingOf R funding (quote.listing.instrumentId R)) ≠ none := by
      rw [Ne, instrumentOf_eq_none_iff]
      exact fun hnil => List.ne_nil_of_mem hmem hnil.2
    obtain ⟨i, hi⟩ := Option.ne_none_iff_exists'.mp hexists
    have hget := (get?_instruments funding market _).trans hi
    have hid := (of_get?_instruments hget).1
    have hnone : i.latestFunding = none := by
      refine latestFunding_of_stale (fun other hother => ?_) hi
      obtain ⟨hotherMem, hotherId⟩ := List.mem_filter.mp hother
      obtain ⟨price, hprice, hpriceId, hlt⟩ := hstale other hotherMem (of_decide_eq_true hotherId)
      exact ⟨price, List.mem_filter.mpr ⟨hprice, decide_eq_true hpriceId⟩, hlt⟩
    have hrate := h.rate i (mem_instruments.mpr (by rw [hid]; exact hi)) newest
      (by rw [hid]; exact hnewest)
    rw [hnone] at hrate
    cases hrate
  currency id := h.settledTwice hmarket hfunding (fun _ _ => currency_instrumentOf)
    (fun _ _ hab => hab.quoteCurrency) id
  expiry id := h.settledTwice hmarket hfunding (fun _ _ => expiry_instrumentOf)
    (fun _ _ hab => hab.expiresAt) id
  symbols id := by
    rw [oneSymbol_iff]
    intro prices fundings hperm hperm' source
    rcases h.sameInstrument hperm hperm' with ⟨hnone, hnone'⟩ | ⟨a, b, ha, hb, hab⟩
    · obtain ⟨hprices, hfundings⟩ := instrumentOf_eq_none_iff.mp hnone
      obtain ⟨hprices', hfundings'⟩ := instrumentOf_eq_none_iff.mp hnone'
      rw [hprices, hfundings, hprices', hfundings']
    · rw [← get?_providerSymbols ha, ← get?_providerSymbols hb, hab.symbols]

end Needed

/-- **The newest view.**  For quotes whose times are distinct for each instrument, the market graph
    carries the values of the newest quotes, is the same in every order of the quotes, joins the
    instruments of an asset by one edge each, and keeps quotes of different instruments apart,
    exactly when the quotes are unambiguous. -/
theorem newestView_iff (R : TextRuntime) (now : Instant) (funding : List FundingQuote)
    (market : List MarketQuote)
    (hmarket : DistinctTimes (fun quote => quote.listing.instrumentId R) MarketQuote.time market)
    (hfunding : DistinctTimes (fun quote => quote.listing.instrumentId R) FundingQuote.time funding) :
    IsNewestView R now funding market ↔ Unambiguous R funding market :=
  ⟨fun h => h.unambiguous hmarket hfunding, fun h => h.isNewestView hmarket hfunding⟩

/-! ### Sample quotes -/

/-- `str.upper` on ASCII letters leaves no lower-case letter. -/
theorem not_lower_toUpper (c : Char) : ¬ ('a' ≤ c.toUpper ∧ c.toUpper ≤ 'z') := by
  unfold Char.toUpper
  split
  · rename_i h
    simp only [Char.le_def, UInt32.le_iff_toNat_le, UInt32.toNat_add] at h ⊢
    have ha : 'a'.val.toNat = 97 := rfl
    have hz : 'z'.val.toNat = 122 := rfl
    have hshift : ('A'.val - 'a'.val).toNat = 4294967264 := rfl
    omega
  · rename_i h
    exact h

/-- The text functions, for ASCII text without blanks at its ends. -/
def asciiText : TextRuntime where
  upper text := String.ofList (text.toList.map Char.toUpper)
  lower text := String.ofList (text.toList.map Char.toLower)
  strip text := text
  not_lower_of_mem_upper text c hc := by
    rw [String.toList_ofList] at hc
    obtain ⟨d, -, rfl⟩ := List.mem_map.mp hc
    exact not_lower_toUpper d

/-- A market quote of a perpetual. -/
def samplePrice (observedAt : Instant) : MarketQuote where
  venue := "HlPerp"
  asset := "BTC"
  marketKind := .perpetual
  symbol := "BTC"
  mid := 100250
  observedAt := observedAt
  quoteCurrency := some "USD"
  contractKey := some "continuous"
  expiresAt := none
  bid := none
  ask := none
  source := "hyperliquid:context"

/-- A funding quote of the same perpetual. -/
def sampleFunding (observedAt : Instant) : FundingQuote where
  venue := "HlPerp"
  asset := "BTC"
  rate := 1 / 10000
  intervalHours := ⟨1, by norm_num⟩
  symbol := none
  nextFundingTime := none
  observedAt := observedAt
  quoteCurrency := some "USD"
  contractKey := some "continuous"
  source := "hyperliquid:funding"

/-- Quotes of one perpetual whose newest funding quote is newer than its market quotes are
    unambiguous. -/
theorem unambiguous_samples {prices fundings : List Instant} {newest : Instant}
    (hnewest : newest ∈ fundings) (hfundings : ∀ t ∈ fundings, t ≤ newest)
    (hprices : ∀ t ∈ prices, t ≤ newest) :
    Unambiguous asciiText (fundings.map sampleFunding) (prices.map samplePrice) := by
  have hprice : ∀ id, ∀ q ∈ pricesOf asciiText (prices.map samplePrice) id,
      ∃ t ∈ prices, samplePrice t = q :=
    fun id q hq => List.mem_map.mp (List.mem_of_mem_filter hq)
  have hfunding : ∀ id, ∀ q ∈ fundingOf asciiText (fundings.map sampleFunding) id,
      ∃ t ∈ fundings, sampleFunding t = q :=
    fun id q hq => List.mem_map.mp (List.mem_of_mem_filter hq)
  have hlast : ∀ id, fundingOf asciiText (fundings.map sampleFunding) id ≠ [] →
      Newest FundingQuote.time (fundingOf asciiText (fundings.map sampleFunding) id)
        (sampleFunding newest) := by
    intro id hne
    obtain ⟨q, hq⟩ := List.exists_mem_of_ne_nil _ hne
    obtain ⟨t, -, rfl⟩ := hfunding id q hq
    refine ⟨List.mem_filter.mpr ⟨List.mem_map_of_mem hnewest, (List.mem_filter.mp hq).2⟩, ?_⟩
    intro other hother
    obtain ⟨u, hu, rfl⟩ := hfunding id other hother
    exact hfundings u hu
  refine ⟨?_, ?_, fun id => ?_, fun id => ?_, fun id => ?_⟩
  · have hall : ∀ l ∈ listings (fundings.map sampleFunding) (prices.map samplePrice),
        SameListing asciiText l (samplePrice 0).listing := by
      intro l hl
      rcases List.mem_append.mp hl with hl | hl
      all_goals
        obtain ⟨quote, hquote, rfl⟩ := List.mem_map.mp hl
        obtain ⟨t, -, rfl⟩ := List.mem_map.mp hquote
        exact ⟨rfl, rfl, rfl, rfl⟩
    intro a ha b hb _
    obtain ⟨h₁, h₂, h₃, h₄⟩ := hall a ha
    obtain ⟨h₁', h₂', h₃', h₄'⟩ := hall b hb
    exact ⟨h₁.trans h₁'.symm, h₂.trans h₂'.symm, h₃.trans h₃'.symm, h₄.trans h₄'.symm⟩
  · intro quote hquote
    obtain ⟨t, -, rfl⟩ := List.mem_map.mp hquote
    refine ⟨sampleFunding newest, List.mem_map_of_mem hnewest, rfl, fun price hmem _ => ?_⟩
    obtain ⟨u, hu, rfl⟩ := List.mem_map.mp hmem
    exact hprices u hu
  · -- both kinds of quotes name the currency
    by_cases hnil : fundingOf asciiText (fundings.map sampleFunding) id = []
    · by_cases hnil' : pricesOf asciiText (prices.map samplePrice) id = []
      · exact Or.inr ⟨none, Or.inr ⟨by simp [hnil'], rfl⟩, by simp [hnil]⟩
      · obtain ⟨q, hq⟩ := exists_newest MarketQuote.time hnil'
        obtain ⟨t, -, rfl⟩ := hprice id q hq.1
        exact Or.inr ⟨_, Or.inl ⟨_, hq, rfl, rfl⟩, by simp [hnil]⟩
    · refine Or.inl ⟨sampleFunding newest, hlast id hnil, fun price hmem => ?_, rfl⟩
      obtain ⟨t, ht, rfl⟩ := hprice id price hmem
      exact hprices t ht
  · refine Or.inr ⟨none, Or.inr ⟨fun q hq => ?_, rfl⟩, fun _ _ _ => Or.inl rfl⟩
    obtain ⟨t, -, rfl⟩ := hprice id q hq
    rfl
  · refine ⟨fun a ha b hb _ => ?_, fun a ha b hb _ _ => ?_⟩
    · obtain ⟨t, -, rfl⟩ := hprice id a ha
      obtain ⟨u, -, rfl⟩ := hprice id b hb
      rfl
    · obtain ⟨t, -, rfl⟩ := hfunding id a ha
      obtain ⟨u, -, rfl⟩ := hfunding id b hb
      rfl

/-- Two quotes of either kind, the newest one a funding quote: the view is the newest one. -/
theorem newestView_iff_fundingLater :
    IsNewestView asciiText 0 ([4, 2].map sampleFunding) ([1, 3].map samplePrice) :=
  (newestView_iff asciiText 0 _ _ (by simp [DistinctTimes, MarketQuote.time, samplePrice])
    (by simp [DistinctTimes, FundingQuote.time, sampleFunding])).mpr
    (unambiguous_samples (List.mem_cons_self) (by decide) (by decide))

/-- **Counterexample.** A funding quote that is older than the market quote of its perpetual never
    writes the funding rate. -/
theorem not_newestView_fundingEarlier :
    ¬ IsNewestView asciiText 0 [sampleFunding 1] [samplePrice 2] := by
  intro h
  have hid : (sampleFunding 1).listing.instrumentId asciiText
      = "crypto:instrument:hlperp:perpetual:BTC:continuous" := by decide +kernel
  have hgraph : (buildMarketGraph asciiText 0 [sampleFunding 1] [samplePrice 2]).instruments.map
      (fun i => (i.instrumentId, i.latestFunding.isSome))
        = [("crypto:instrument:hlperp:perpetual:BTC:continuous", false)] := by decide +kernel
  have hmem := List.mem_singleton_self
    ("crypto:instrument:hlperp:perpetual:BTC:continuous", false)
  rw [← hgraph] at hmem
  obtain ⟨i, hi, heq⟩ := List.mem_map.mp hmem
  obtain ⟨hiId, hnone⟩ := Prod.mk.inj heq
  have hfunding : fundingOf asciiText [sampleFunding 1] i.instrumentId = [sampleFunding 1] := by
    rw [hiId]
    exact List.filter_cons_of_pos (decide_eq_true hid)
  have hrate := h.rate i hi (sampleFunding 1) (by rw [hfunding]; simp [Newest])
  rw [hrate] at hnone
  cases hnone

end InefficiencyEngine.Graph
