import InefficiencyEngine.Graph.Instruments

namespace InefficiencyEngine.Graph

open Portfolio (Instant MarketKind Positive IntervalHours)

/-!
# The edges of the market graph

The dictionary of edges holds the links of all listings and one equivalence for every two
instruments of an asset (`holds_edges`).  It is keyed by the names of the edges, which determine
them (`edge_eq_of_edgeId_eq`), so no edge replaces another one.
-/

/-! ### Pairs -/

/-- The pairs of a list in strict order are the pairs of its elements in that order. -/
theorem mem_orderedPairs {α κ : Type} [LinearOrder κ] {key : α → κ} {rows : List α}
    (hsorted : rows.Pairwise (fun a b => key a < key b)) {left right : α} :
    (left, right) ∈ orderedPairs rows ↔ left ∈ rows ∧ right ∈ rows ∧ key left < key right := by
  induction rows with
  | nil => simp [orderedPairs]
  | cons a rest ih =>
    rw [List.pairwise_cons] at hsorted
    obtain ⟨hhead, hrest⟩ := hsorted
    rw [orderedPairs, List.mem_append, ih hrest, List.mem_map, List.mem_cons, List.mem_cons]
    constructor
    · rintro (⟨b, hb, heq⟩ | ⟨hleft, hright, hlt⟩)
      · obtain ⟨rfl, rfl⟩ := Prod.mk.inj heq
        exact ⟨Or.inl rfl, Or.inr hb, hhead b hb⟩
      · exact ⟨Or.inr hleft, Or.inr hright, hlt⟩
    · rintro ⟨rfl | hleft, rfl | hright, hlt⟩
      · exact absurd hlt (lt_irrefl _)
      · exact Or.inl ⟨right, hright, rfl⟩
      · exact absurd hlt (lt_asymm (hhead left hleft))
      · exact Or.inr ⟨hleft, hright, hlt⟩

/-- Rows with different keys are sorted strictly. -/
theorem pairwise_lt_sortOn {α κ : Type} [LinearOrder κ] {key : α → κ} {rows : List α}
    (hnodup : (rows.map key).Nodup) : (sortOn key rows).Pairwise (fun a b => key a < key b) := by
  have hne : (sortOn key rows).Pairwise (fun a b => key a ≠ key b) := by
    have hmap : ((sortOn key rows).map key).Nodup := ((perm_sortOn rows).map key).nodup_iff.mpr hnodup
    exact List.pairwise_map.mp hmap
  exact (List.pairwise_and_iff.mpr ⟨pairwise_sortOn rows, hne⟩).imp (fun h => lt_of_le_of_ne h.1 h.2)

/-- **Equivalences.** There is one for any two instruments of an asset, in the order of their
    ids. The source groups the instruments by asset, sorts each group by id and takes the pairs
    in order, which is the comparison of the ids. -/
theorem mem_equivalenceEdges {instruments : List CanonicalInstrument} {edge : MarketGraphEdge}
    (hnodup : (instruments.map CanonicalInstrument.instrumentId).Nodup) :
    edge ∈ equivalenceEdges instruments
      ↔ ∃ left ∈ instruments, ∃ right ∈ instruments, left.assetId = right.assetId
          ∧ left.instrumentId < right.instrumentId
          ∧ edge = equivalenceEdge left.assetId left right := by
  -- a group has all instruments of its asset
  have hgroup : ∀ item ∈ (Dict.group CanonicalInstrument.assetId instruments).items,
      item.2 = instruments.filter (fun i => i.assetId = item.1) := by
    intro item hitem
    have hget := (Dict.mem_items_iff _).mp hitem
    rw [Dict.get?_group] at hget
    split at hget
    · cases hget
    · exact (Option.some.inj hget).symm
  -- and its ids are distinct, so the sorted group is strictly increasing
  have hsorted : ∀ item ∈ (Dict.group CanonicalInstrument.assetId instruments).items,
      (sortOn CanonicalInstrument.instrumentId item.2).Pairwise
        (fun a b => a.instrumentId < b.instrumentId) := by
    intro item hitem
    refine pairwise_lt_sortOn ?_
    rw [hgroup item hitem]
    exact hnodup.sublist (List.filter_sublist.map _)
  rw [equivalenceEdges, List.mem_flatMap]
  constructor
  · rintro ⟨item, hitem, hedge⟩
    obtain ⟨⟨left, right⟩, hpair, rfl⟩ := List.mem_map.mp hedge
    obtain ⟨hleft, hright, hlt⟩ := (mem_orderedPairs (hsorted item hitem)).mp hpair
    rw [mem_sortOn] at hleft hright
    obtain ⟨hleft, hasset⟩ := (Dict.of_mem_items_group hitem).2 left hleft
    obtain ⟨hright, hasset'⟩ := (Dict.of_mem_items_group hitem).2 right hright
    exact ⟨left, hleft, right, hright, hasset.trans hasset'.symm, hlt, by rw [hasset]⟩
  · rintro ⟨left, hleft, right, hright, hasset, hlt, rfl⟩
    obtain ⟨item, hitem, hkey, hmem⟩ :=
      Dict.exists_mem_items_group CanonicalInstrument.assetId hleft
    refine ⟨item, hitem, List.mem_map.mpr ⟨(left, right), ?_, by rw [hkey]⟩⟩
    rw [mem_orderedPairs (hsorted item hitem), mem_sortOn, mem_sortOn]
    refine ⟨hmem, ?_, hlt⟩
    rw [hgroup item hitem, hkey]
    simp [hright, hasset]

/-! ### The instruments under their ids -/

variable {R : TextRuntime} {funding : List FundingQuote} {market : List MarketQuote}

/-- The listings of all quotes. -/
def listings (funding : List FundingQuote) (market : List MarketQuote) : List Listing :=
  market.map MarketQuote.listing ++ funding.map FundingQuote.listing

/-- An instrument is found under its id, and has the names of a listing. -/
theorem of_get?_instruments {id : String} {instrument : CanonicalInstrument}
    (h : (instrumentsDict R funding market).get? id = some instrument) :
    instrument.instrumentId = id ∧ ∃ listing ∈ listings funding market, Named R listing instrument := by
  rw [get?_instruments] at h
  obtain ⟨listing, hlisting, hnamed⟩ := exists_named h
  have hid : listing ∈ listings funding market ∧ listing.instrumentId R = id := by
    rw [listings]
    rcases List.mem_append.mp hlisting with hmem | hmem
    · obtain ⟨quote, hquote, rfl⟩ := List.mem_map.mp hmem
      obtain ⟨hquote, hid⟩ := List.mem_filter.mp hquote
      exact ⟨List.mem_append_left _ (List.mem_map_of_mem hquote), of_decide_eq_true hid⟩
    · obtain ⟨quote, hquote, rfl⟩ := List.mem_map.mp hmem
      obtain ⟨hquote, hid⟩ := List.mem_filter.mp hquote
      exact ⟨List.mem_append_right _ (List.mem_map_of_mem hquote), of_decide_eq_true hid⟩
  exact ⟨hnamed.instrumentId.trans hid.2, listing, hid.1, hnamed⟩

/-- The dictionary holds its instruments under their ids. -/
theorem holds_instruments (R : TextRuntime) (funding : List FundingQuote)
    (market : List MarketQuote) :
    Dict.Holds CanonicalInstrument.instrumentId (instrumentsDict R funding market).values
      (instrumentsDict R funding market) := by
  intro id instrument
  constructor
  · intro h
    refine ⟨?_, (of_get?_instruments h).1⟩
    exact List.mem_map.mpr ⟨(id, instrument), (Dict.mem_items_iff _).mpr h, rfl⟩
  · rintro ⟨hmem, rfl⟩
    obtain ⟨⟨id, i⟩, hitem, rfl⟩ := List.mem_map.mp hmem
    have hget := (Dict.mem_items_iff _).mp hitem
    rw [(of_get?_instruments hget).1]
    exact hget

theorem mem_values_iff {instrument : CanonicalInstrument} :
    instrument ∈ (instrumentsDict R funding market).values
      ↔ (instrumentsDict R funding market).get? instrument.instrumentId = some instrument :=
  ((holds_instruments R funding market _ _).trans (and_iff_left rfl)).symm

/-! ### All edges -/

/-- The edges that the loops store. -/
def allEdges (R : TextRuntime) (funding : List FundingQuote) (market : List MarketQuote) :
    List MarketGraphEdge :=
  (listings funding market).flatMap (Listing.links R)
    ++ equivalenceEdges (instrumentsDict R funding market).values

theorem edges_placePrices (state : GraphState) (market : List MarketQuote) :
    (placePrices R state market).edges
      = ((market.map MarketQuote.listing).flatMap (Listing.links R)).foldl storeLink state.edges := by
  induction market generalizing state with
  | nil => rfl
  | cons quote rest ih =>
    rw [List.map_cons, List.flatMap_cons, List.foldl_append]
    exact ih _

theorem edges_placeFunding (state : GraphState) (funding : List FundingQuote) :
    (placeFunding R state funding).edges
      = ((funding.map FundingQuote.listing).flatMap (Listing.links R)).foldl storeLink state.edges := by
  induction funding generalizing state with
  | nil => rfl
  | cons quote rest ih =>
    rw [List.map_cons, List.flatMap_cons, List.foldl_append]
    exact ih _

/-- An edge that has the name of its ends, which are nodes. -/
structure WellNamed (edge : MarketGraphEdge) : Prop where
  name : edge.edgeId = edgeId edge.sourceId edge.targetId edge.relationship
  source : NodeName edge.sourceId
  target : NodeName edge.targetId

theorem nodeName_instrumentId {instrument : CanonicalInstrument}
    (h : instrument ∈ (instrumentsDict R funding market).values) :
    NodeName instrument.instrumentId := by
  obtain ⟨-, listing, -, hnamed⟩ := of_get?_instruments (mem_values_iff.mp h)
  rw [hnamed.instrumentId]
  exact nodeName_canonicalInstrumentId R _ _ _ _

theorem wellNamed_of_mem_links {listing : Listing} {edge : MarketGraphEdge}
    (h : edge ∈ listing.links R) : WellNamed edge ∧ edge.relationship ≠ .economicEquivalence
      ∧ edge.metadata = none := by
  have hinstrument : NodeName (listing.instrumentId R) := nodeName_canonicalInstrumentId R _ _ _ _
  simp only [Listing.links, List.mem_cons, List.not_mem_nil, or_false] at h
  rcases h with rfl | rfl
  · exact ⟨⟨rfl, nodeName_canonicalVenueId R _, hinstrument⟩, by simp [linkEdge], rfl⟩
  · exact ⟨⟨rfl, hinstrument, nodeName_canonicalAssetId R _⟩, by simp [linkEdge], rfl⟩

/-- The equivalences of the graph. -/
theorem mem_equivalenceEdges_values {edge : MarketGraphEdge} :
    edge ∈ equivalenceEdges (instrumentsDict R funding market).values
      ↔ ∃ left ∈ (instrumentsDict R funding market).values,
          ∃ right ∈ (instrumentsDict R funding market).values, left.assetId = right.assetId
          ∧ left.instrumentId < right.instrumentId
          ∧ edge = equivalenceEdge left.assetId left right :=
  mem_equivalenceEdges (holds_instruments R funding market).nodup_map_key

theorem wellNamed_of_mem_allEdges {edge : MarketGraphEdge} (h : edge ∈ allEdges R funding market) :
    WellNamed edge := by
  rcases List.mem_append.mp h with hlink | hequivalence
  · obtain ⟨listing, -, hedge⟩ := List.mem_flatMap.mp hlink
    exact (wellNamed_of_mem_links hedge).1
  · obtain ⟨left, hleft, right, hright, -, -, rfl⟩ := mem_equivalenceEdges_values.mp hequivalence
    exact ⟨rfl, nodeName_instrumentId hleft, nodeName_instrumentId hright⟩

/-- **Names of edges.** Edges of the graph with one name are the same edge. -/
theorem edge_eq_of_edgeId_eq {edge other : MarketGraphEdge} (h : edge ∈ allEdges R funding market)
    (h' : other ∈ allEdges R funding market) (hid : other.edgeId = edge.edgeId) : other = edge := by
  have hnamed := wellNamed_of_mem_allEdges h
  have hnamed' := wellNamed_of_mem_allEdges h'
  rw [hnamed.name, hnamed'.name] at hid
  obtain ⟨hsource, htarget, hrelation⟩ :=
    edgeId_inj hnamed'.source hnamed'.target hnamed.source hnamed.target hid
  have hname : other.edgeId = edge.edgeId := by
    rw [hnamed.name, hnamed'.name, hsource, htarget, hrelation]
  -- what is left is the metadata
  suffices hmetadata : other.metadata = edge.metadata by
    obtain ⟨_, _, _, _, _⟩ := edge
    obtain ⟨_, _, _, _, _⟩ := other
    simp_all
  rcases List.mem_append.mp h with hlink | hequivalence
  · obtain ⟨listing, -, hedge⟩ := List.mem_flatMap.mp hlink
    obtain ⟨-, hne, hnone⟩ := wellNamed_of_mem_links hedge
    rcases List.mem_append.mp h' with hlink' | hequivalence'
    · obtain ⟨listing', -, hedge'⟩ := List.mem_flatMap.mp hlink'
      rw [hnone, (wellNamed_of_mem_links hedge').2.2]
    · obtain ⟨left, -, right, -, -, -, rfl⟩ := mem_equivalenceEdges_values.mp hequivalence'
      exact absurd hrelation.symm hne
  · obtain ⟨left, hleft, right, hright, hasset, -, rfl⟩ :=
      mem_equivalenceEdges_values.mp hequivalence
    rcases List.mem_append.mp h' with hlink' | hequivalence'
    · obtain ⟨listing', -, hedge'⟩ := List.mem_flatMap.mp hlink'
      exact absurd hrelation (wellNamed_of_mem_links hedge').2.1
    · obtain ⟨left', hleft', right', hright', hasset', -, rfl⟩ :=
        mem_equivalenceEdges_values.mp hequivalence'
      -- instruments with one id are one instrument
      have hleft₂ : left' = left := by
        have hget := mem_values_iff.mp hleft'
        rw [show left'.instrumentId = left.instrumentId from hsource, mem_values_iff.mp hleft] at hget
        exact (Option.some.inj hget).symm
      have hright₂ : right' = right := by
        have hget := mem_values_iff.mp hright'
        rw [show right'.instrumentId = right.instrumentId from htarget,
          mem_values_iff.mp hright] at hget
        exact (Option.some.inj hget).symm
      rw [hleft₂, hright₂]

/-- The edges after all loops. -/
def edgesDict (R : TextRuntime) (funding : List FundingQuote) (market : List MarketQuote) :
    Dict String MarketGraphEdge :=
  (equivalenceEdges (instrumentsDict R funding market).values).foldl storeEdge
    (placeFunding R (placePrices R .empty market) funding).edges

/-- **The dictionary** holds all edges under their names. -/
theorem holds_edges (R : TextRuntime) (funding : List FundingQuote) (market : List MarketQuote) :
    Dict.Holds MarketGraphEdge.edgeId (allEdges R funding market) (edgesDict R funding market) := by
  have hunique : ∀ edge ∈ allEdges R funding market, ∀ other ∈ allEdges R funding market,
      other.edgeId = edge.edgeId → other = edge :=
    fun edge h other h' hid => edge_eq_of_edgeId_eq h h' hid
  have hlinks : Dict.Holds MarketGraphEdge.edgeId
      ([] ++ (listings funding market).flatMap (Listing.links R))
      (placeFunding R (placePrices R .empty market) funding).edges := by
    rw [edges_placeFunding, edges_placePrices, ← List.foldl_append, ← List.flatMap_append]
    refine Dict.Holds.foldl (fun h hkey => Dict.Holds.setDefault h hkey) Dict.holds_empty ?_
    exact fun edge h other h' => hunique edge (List.mem_append_left _ h) other
      (List.mem_append_left _ h')
  rw [List.nil_append] at hlinks
  exact Dict.Holds.foldl (fun h hkey => Dict.Holds.set h hkey) hlinks hunique

end InefficiencyEngine.Graph
