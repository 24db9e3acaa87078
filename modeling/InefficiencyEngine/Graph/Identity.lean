import InefficiencyEngine.Lib.Delimited
import InefficiencyEngine.Portfolio.Market

namespace InefficiencyEngine.Graph

open Portfolio

/-!
# The market graph — identities

Assets, venues, instruments and edges of the market graph are named by texts.  An instrument's
name holds its venue and contract as slugs, which drop everything but letters and digits, so
`canonicalInstrumentId_inj` is about the slugs: two instruments share a name exactly when they agree
on them, on the market kind and on the asset.  The name of an edge determines its ends
(`edgeId_inj`).
-/

/-- The text functions of the platform. -/
structure TextRuntime where
  /-- `str.upper`. -/
  upper : String → String
  /-- `str.lower`. -/
  lower : String → String
  /-- `str.strip`. -/
  strip : String → String
  /-- No lower-case letter is left in upper case. -/
  not_lower_of_mem_upper : ∀ text, ∀ c ∈ (upper text).toList, ¬ ('a' ≤ c ∧ c ≤ 'z')

/-! ### Slugs -/

/-- `[a-z0-9]`. -/
def isSlugChar (c : Char) : Bool := ('a' ≤ c && c ≤ 'z') || ('0' ≤ c && c ≤ '9')

/-- `re.sub(r"[^a-z0-9]+", "-", text)`: a run of other characters becomes one hyphen. -/
def hyphenate (inRun : Bool) : List Char → List Char
  | [] => []
  | c :: rest =>
    if isSlugChar c then c :: hyphenate false rest
    else if inRun then hyphenate true rest
    else '-' :: hyphenate true rest

/-- `text.strip("-")`. -/
def stripHyphens (text : List Char) : List Char :=
  ((text.dropWhile (· = '-')).reverse.dropWhile (· = '-')).reverse

/-- `_slug`. -/
def slug (R : TextRuntime) (value : String) : String :=
  let normalized := stripHyphens (hyphenate false (R.lower (R.strip value)).toList)
  if normalized = [] then "unknown" else String.ofList normalized

/-- The characters of a slug. -/
def SlugText (text : List Char) : Prop := ∀ c ∈ text, isSlugChar c ∨ c = '-'

theorem slugText_hyphenate (inRun : Bool) (text : List Char) : SlugText (hyphenate inRun text) := by
  induction text generalizing inRun with
  | nil => simp [SlugText, hyphenate]
  | cons c rest ih =>
    rw [hyphenate]
    by_cases hc : isSlugChar c
    · rw [if_pos hc]
      exact List.forall_mem_cons.mpr ⟨Or.inl hc, ih false⟩
    · rw [if_neg hc]
      cases inRun with
      | true => exact ih true
      | false => exact List.forall_mem_cons.mpr ⟨Or.inr rfl, ih true⟩

theorem SlugText.stripHyphens {text : List Char} (h : SlugText text) :
    SlugText (stripHyphens text) := by
  intro c hc
  rw [Graph.stripHyphens, List.mem_reverse] at hc
  have hdrop := (List.dropWhile_sublist _).subset hc
  rw [List.mem_reverse] at hdrop
  exact h c ((List.dropWhile_sublist _).subset hdrop)

theorem slugText_slug (R : TextRuntime) (value : String) : SlugText (slug R value).toList := by
  rw [slug]
  split
  · have hall : "unknown".toList.all (fun c => isSlugChar c ∨ c = '-') = true := by decide +kernel
    exact fun c hc => of_decide_eq_true (List.all_eq_true.mp hall c hc)
  · rw [String.toList_ofList]
    exact (slugText_hyphenate false _).stripHyphens

/-- A character that is no letter, digit or hyphen is in no slug. -/
theorem SlugText.notMem {text : List Char} (h : SlugText text) {c : Char} (hc : ¬ isSlugChar c)
    (hne : c ≠ '-') : c ∉ text := by
  intro hmem
  rcases h c hmem with hslug | heq
  · exact hc hslug
  · exact hne heq

/-! ### Names -/

/-- `normalized_contract_key`. -/
def normalizedContractKey (marketKind : MarketKind) (contractKey : Option String) : String :=
  match contractKey.filter (· ≠ "") with
  | some key => key
  | none =>
    match marketKind with
    | .spot => "spot"
    | .perpetual => "continuous"
    | .future => "unspecified"

/-- `canonical_asset_id`. -/
def canonicalAssetId (R : TextRuntime) (asset : String) : String :=
  "crypto:asset:" ++ R.upper (R.strip asset)

/-- `canonical_venue_id`. -/
def canonicalVenueId (R : TextRuntime) (venue : String) : String :=
  "crypto:venue:" ++ slug R venue

/-- `canonical_instrument_id`. -/
def canonicalInstrumentId (R : TextRuntime) (venue asset : String) (marketKind : MarketKind)
    (contractKey : Option String) : String :=
  "crypto:instrument:" ++ slug R venue ++ ":" ++ marketKind.value ++ ":"
    ++ R.upper (R.strip asset) ++ ":" ++ slug R (normalizedContractKey marketKind contractKey)

/-- A contract key is normal after one normalization. -/
theorem normalizedContractKey_idem (marketKind : MarketKind) (contractKey : Option String) :
    normalizedContractKey marketKind (some (normalizedContractKey marketKind contractKey))
      = normalizedContractKey marketKind contractKey := by
  have hne : normalizedContractKey marketKind contractKey ≠ "" := by
    unfold normalizedContractKey
    cases hkey : contractKey.filter (· ≠ "") with
    | some key => simpa using (Option.filter_eq_some_iff.mp hkey).2
    | none => cases marketKind <;> simp
  generalize normalizedContractKey marketKind contractKey = key at hne ⊢
  simp [normalizedContractKey, Option.filter, hne]

theorem MarketKind.value_injective {a b : MarketKind} (h : a.value = b.value) : a = b := by
  cases a <;> cases b <;> first | rfl | exact absurd h (by decide)

theorem MarketKind.notMem_value (marketKind : MarketKind) :
    ':' ∉ marketKind.value.toList ∧ '>' ∉ marketKind.value.toList := by
  cases marketKind <;> decide

/-- The separator of a name as a list of characters. -/
private theorem toList_colon : (":" : String).toList = [':'] := rfl

/-- An instrument's name as a list of characters. -/
theorem toList_canonicalInstrumentId (R : TextRuntime) (venue asset : String) (kind : MarketKind)
    (key : Option String) :
    (canonicalInstrumentId R venue asset kind key).toList
      = "crypto:instrument:".toList ++ ((slug R venue).toList ++ ':' :: (kind.value.toList ++ ':' ::
          ((R.upper (R.strip asset)).toList
            ++ ':' :: (slug R (normalizedContractKey kind key)).toList))) := by
  unfold canonicalInstrumentId
  rw [String.toList_append, String.toList_append, String.toList_append, String.toList_append,
    String.toList_append, String.toList_append, String.toList_append, toList_colon]
  simp only [List.append_assoc, List.cons_append, List.nil_append]

/-- **Shared names.** Two instruments have one name exactly when they agree on the market kind, on
    the asset, and on what the slugs keep of venue and contract. -/
theorem canonicalInstrumentId_inj {R : TextRuntime} {venue venue' asset asset' : String}
    {kind kind' : MarketKind} {key key' : Option String} :
    canonicalInstrumentId R venue asset kind key = canonicalInstrumentId R venue' asset' kind' key'
      ↔ slug R venue = slug R venue' ∧ kind = kind'
        ∧ R.upper (R.strip asset) = R.upper (R.strip asset')
        ∧ slug R (normalizedContractKey kind key) = slug R (normalizedContractKey kind' key') := by
  have hcolon : ∀ value, ':' ∉ (slug R value).toList := fun value =>
    (slugText_slug R value).notMem (by decide) (by decide)
  refine ⟨fun h => ?_, fun h => ?_⟩
  · have hlist := congrArg String.toList h
    rw [toList_canonicalInstrumentId, toList_canonicalInstrumentId] at hlist
    have hrest := List.append_cancel_left hlist
    obtain ⟨hvenue, hrest⟩ := (append_cons_inj (hcolon _) (hcolon _)).mp hrest
    obtain ⟨hkind, hrest⟩ := (append_cons_inj (MarketKind.notMem_value kind).1
      (MarketKind.notMem_value kind').1).mp hrest
    obtain ⟨hasset, hkey⟩ := (append_cons_inj_right (hcolon _) (hcolon _)).mp hrest
    exact ⟨String.toList_inj.mp hvenue, MarketKind.value_injective (String.toList_inj.mp hkind),
      String.toList_inj.mp hasset, String.toList_inj.mp hkey⟩
  · obtain ⟨hvenue, hkind, hasset, hkey⟩ := h
    unfold canonicalInstrumentId
    rw [hvenue, hasset, hkey, hkind]

/-! ### Edges -/

/-- `GraphRelationship`. -/
inductive GraphRelationship
  | lists
  | represents
  | economicEquivalence
  deriving DecidableEq

/-- `GraphRelationship.value`. -/
def GraphRelationship.value : GraphRelationship → String
  | .lists => "lists"
  | .represents => "represents"
  | .economicEquivalence => "economic_equivalence"

/-- `_edge_id`. -/
def edgeId (sourceId targetId : String) (relationship : GraphRelationship) : String :=
  relationship.value ++ ":" ++ sourceId ++ "->" ++ targetId

/-- The name of an asset, a venue or an instrument: it starts with a `c`, which does not follow
    the tip of an arrow in it. -/
def NodeName (name : String) : Prop := Part '>' 'c' name.toList

/-- A text without the tip of an arrow. -/
theorem isChain_of_notMem {text : List Char} (h : '>' ∉ text) :
    text.IsChain (fun u v => ¬ (u = '>' ∧ v = 'c')) := by
  induction text with
  | nil => exact List.IsChain.nil
  | cons a rest ih =>
    rw [List.mem_cons, not_or] at h
    cases rest with
    | nil => exact List.IsChain.singleton a
    | cons b rest => exact List.isChain_cons_cons.mpr ⟨fun hab => h.1 hab.1.symm, ih h.2⟩

/-- A text without the letter. -/
theorem isChain_of_notMem_letter {text : List Char} (h : 'c' ∉ text) :
    text.IsChain (fun u v => ¬ (u = '>' ∧ v = 'c')) := by
  induction text with
  | nil => exact List.IsChain.nil
  | cons a rest ih =>
    rw [List.mem_cons, not_or] at h
    cases rest with
    | nil => exact List.IsChain.singleton a
    | cons b rest =>
      refine List.isChain_cons_cons.mpr ⟨fun hab => h.2 ?_, ih h.2⟩
      rw [hab.2]
      exact List.mem_cons_self

/-- Two such texts with another character between them. -/
theorem isChain_append_cons {text text' : List Char} {sep : Char} (hsep : sep ≠ '>')
    (hne : sep ≠ 'c') (h : text.IsChain (fun u v => ¬ (u = '>' ∧ v = 'c')))
    (h' : text'.IsChain (fun u v => ¬ (u = '>' ∧ v = 'c'))) :
    (text ++ sep :: text').IsChain (fun u v => ¬ (u = '>' ∧ v = 'c')) := by
  refine List.isChain_append.mpr ⟨h, ?_, fun u _ v hv hab => hne ?_⟩
  · cases text' with
    | nil => exact List.IsChain.singleton sep
    | cons b rest => exact List.isChain_cons_cons.mpr ⟨fun hab => hsep hab.1, h'⟩
  · simp only [List.head?_cons, Option.mem_def, Option.some.injEq] at hv
    rw [hv]
    exact hab.2

/-- Upper-case text has no letter that starts a name. -/
theorem notMem_upper (R : TextRuntime) (text : String) : 'c' ∉ (R.upper text).toList :=
  fun hmem => R.not_lower_of_mem_upper text 'c' hmem (by decide)

theorem nodeName_canonicalVenueId (R : TextRuntime) (venue : String) :
    NodeName (canonicalVenueId R venue) := by
  have hlist : (canonicalVenueId R venue).toList
      = "crypto:venue".toList ++ ':' :: (slug R venue).toList := by
    unfold canonicalVenueId
    rw [String.toList_append]
    rfl
  refine ⟨by rw [hlist]; rfl, ?_⟩
  rw [hlist]
  refine isChain_append_cons (by decide) (by decide) (isChain_of_notMem (by decide)) ?_
  exact isChain_of_notMem ((slugText_slug R venue).notMem (by decide) (by decide))

theorem nodeName_canonicalAssetId (R : TextRuntime) (asset : String) :
    NodeName (canonicalAssetId R asset) := by
  have hlist : (canonicalAssetId R asset).toList
      = "crypto:asset".toList ++ ':' :: (R.upper (R.strip asset)).toList := by
    unfold canonicalAssetId
    rw [String.toList_append]
    rfl
  refine ⟨by rw [hlist]; rfl, ?_⟩
  rw [hlist]
  refine isChain_append_cons (by decide) (by decide) (isChain_of_notMem (by decide)) ?_
  exact isChain_of_notMem_letter (notMem_upper R _)

theorem nodeName_canonicalInstrumentId (R : TextRuntime) (venue asset : String) (kind : MarketKind)
    (key : Option String) : NodeName (canonicalInstrumentId R venue asset kind key) := by
  have hslug : ∀ value, '>' ∉ (slug R value).toList := fun value =>
    (slugText_slug R value).notMem (by decide) (by decide)
  have hlist : "crypto:instrument:".toList = "crypto:instrument".toList ++ [':'] := rfl
  refine ⟨by rw [toList_canonicalInstrumentId]; rfl, ?_⟩
  rw [toList_canonicalInstrumentId, hlist, List.append_assoc, List.singleton_append]
  -- part after part: the asset alone may hold an arrow, but no lower-case letter
  refine isChain_append_cons (by decide) (by decide) (isChain_of_notMem (by decide)) ?_
  refine isChain_append_cons (by decide) (by decide) (isChain_of_notMem (hslug _)) ?_
  refine isChain_append_cons (by decide) (by decide)
    (isChain_of_notMem (MarketKind.notMem_value kind).2) ?_
  exact isChain_append_cons (by decide) (by decide) (isChain_of_notMem_letter (notMem_upper R _))
    (isChain_of_notMem (hslug _))

theorem GraphRelationship.value_injective {a b : GraphRelationship} (h : a.value = b.value) :
    a = b := by
  cases a <;> cases b <;> first | rfl | exact absurd h (by decide)

theorem GraphRelationship.notMem_value (relationship : GraphRelationship) :
    ':' ∉ relationship.value.toList := by
  cases relationship <;> decide

/-- **Edges.** The name of an edge between named nodes determines it. -/
theorem edgeId_inj {source target source' target' : String} {relation relation' : GraphRelationship}
    (hsource : NodeName source) (htarget : NodeName target) (hsource' : NodeName source')
    (htarget' : NodeName target')
    (h : edgeId source target relation = edgeId source' target' relation') :
    source = source' ∧ target = target' ∧ relation = relation' := by
  have harrow : ("->" : String).toList = ['-', '>'] := rfl
  have hlist := congrArg String.toList h
  unfold edgeId at hlist
  simp only [String.toList_append, List.append_assoc, toList_colon, harrow, List.cons_append,
    List.nil_append] at hlist
  obtain ⟨hrelation, hrest⟩ :=
    (append_cons_inj relation.notMem_value relation'.notMem_value).mp hlist
  obtain ⟨hs, ht⟩ := arrow_inj (by decide) (by decide) hsource' hsource htarget htarget' hrest
  exact ⟨String.toList_inj.mp hs, String.toList_inj.mp ht,
    GraphRelationship.value_injective (String.toList_inj.mp hrelation)⟩

end InefficiencyEngine.Graph
