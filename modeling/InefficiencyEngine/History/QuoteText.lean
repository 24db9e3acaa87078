import InefficiencyEngine.History.Sample
import InefficiencyEngine.Lib.Lines
import Mathlib.Data.Rat.Encodable
import Mathlib.Logic.Equiv.List

namespace InefficiencyEngine.History

open Portfolio

/-!
# The JSON texts of a quote

Two serializers write the same object: pydantic's `model_dump_json` lists the fields in the
order of the class, and `_json` sorts the keys.  The lineage hash of a live append is taken of
the first text, that of a row of `market_quotes` of the second.  Since the texts begin with
different fields, the two hashes of a quote always differ.
-/

/-! ### The two serializers -/

/-- One member of a JSON object. -/
def jsonMember (field : String × String) : String := "\"" ++ field.1 ++ "\":" ++ field.2

/-- The members of a JSON object, separated by commas. -/
def jsonMembers : List (String × String) → String
  | [] => ""
  | [field] => jsonMember field
  | field :: rest => jsonMember field ++ "," ++ jsonMembers rest

/-- A JSON object without blanks. -/
def jsonObject (fields : List (String × String)) : String :=
  "\x7b" ++ jsonMembers fields ++ "\x7d"

/-- The fields of `MarketQuote`. -/
def quoteFields : List String :=
  ["venue", "asset", "market_kind", "symbol", "quote_currency", "contract_key", "expires_at", "bid",
    "ask", "mid", "observed_at", "source"]

/-- `model_dump_json`, given the JSON texts of the fields. -/
def modelDumpJson (value : QuoteRecord → String → String) (quote : QuoteRecord) : String :=
  jsonObject (quoteFields.map (fun name => (name, value quote name)))

/-- `_json`, which sorts the keys. -/
def sortedJson (value : QuoteRecord → String → String) (quote : QuoteRecord) : String :=
  jsonObject ((quoteFields.insertionSort (· ≤ ·)).map (fun name => (name, value quote name)))

/-- The libraries the two paths use.  A text that is loaded again gives the same quote. -/
structure QuoteRuntime where
  /-- The JSON text of a field, as pydantic writes it. -/
  pydanticValue : QuoteRecord → String → String
  /-- The JSON text of a field, as the `json` module writes it. -/
  jsonValue : QuoteRecord → String → String
  modelDumpJson_injective : Function.Injective (modelDumpJson pydanticValue)
  sortedJson_injective : Function.Injective (sortedJson jsonValue)
  /-- `hashlib.sha256(text.encode()).hexdigest()`. -/
  sha256 : String → String
  sha256_injective : Function.Injective sha256
  sha256_ne_empty : ∀ text, sha256 text ≠ ""

namespace QuoteRuntime

variable (S : QuoteRuntime)

/-- `PartitionedMarketHistory._lineage`. -/
def liveLineage (quote : QuoteRecord) : String := S.sha256 (modelDumpJson S.pydanticValue quote)

/-- The column `lineage_hash` of a row of `market_quotes`, as `_payload_rows` computes it. -/
def rowLineage (quote : QuoteRecord) : String := S.sha256 (sortedJson S.jsonValue quote)

/-- What `append` makes of a quote. -/
def liveRecord (quote : QuoteRecord) : HistoryRecord := ⟨none, S.liveLineage quote, quote⟩

/-- What the migration makes of a row of `market_quotes`. -/
def importRecord (id : ℕ) (quote : QuoteRecord) : HistoryRecord :=
  ⟨some (id + 1 : ℕ), S.rowLineage quote, quote⟩

theorem liveLineage_injective : Function.Injective S.liveLineage :=
  S.sha256_injective.comp S.modelDumpJson_injective

theorem rowLineage_injective : Function.Injective S.rowLineage :=
  S.sha256_injective.comp S.sortedJson_injective

end QuoteRuntime

/-- An object begins with the name of its first field. -/
theorem jsonObject_cons (name value : String) (rest : List (String × String)) :
    ∃ tail, (jsonObject ((name, value) :: rest)).toList = '\x7b' :: '"' :: (name.toList ++ tail) := by
  cases rest with
  | nil =>
    refine ⟨("\":" ++ value ++ "\x7d").toList, ?_⟩
    simp [jsonObject, jsonMembers, jsonMember, String.toList_append]
  | cons field rest =>
    refine ⟨("\":" ++ value ++ "," ++ jsonMembers (field :: rest) ++ "\x7d").toList, ?_⟩
    simp [jsonObject, jsonMembers, jsonMember, String.toList_append]

/-- The two texts of quotes begin with different fields. -/
theorem modelDumpJson_ne_sortedJson (value value' : QuoteRecord → String → String)
    (quote quote' : QuoteRecord) : modelDumpJson value quote ≠ sortedJson value' quote' := by
  have hsorted : ∃ rest, quoteFields.insertionSort (· ≤ ·) = "ask" :: rest := by
    refine ⟨(quoteFields.insertionSort (· ≤ ·)).tail, ?_⟩
    decide +kernel
  obtain ⟨rest, hrest⟩ := hsorted
  intro heq
  rw [modelDumpJson, sortedJson, hrest, quoteFields] at heq
  simp only [List.map_cons] at heq
  obtain ⟨tail, htail⟩ := jsonObject_cons "venue" (value quote "venue") _
  obtain ⟨tail', htail'⟩ := jsonObject_cons "ask" (value' quote' "ask")
    (rest.map (fun name => (name, value' quote' name)))
  rw [heq, htail'] at htail
  simp at htail

/-- **The two hashes of quotes differ**, also those of one quote. -/
theorem QuoteRuntime.liveLineage_ne_rowLineage (S : QuoteRuntime) (quote quote' : QuoteRecord) :
    S.liveLineage quote ≠ S.rowLineage quote' :=
  fun heq => modelDumpJson_ne_sortedJson _ _ _ _ (S.sha256_injective heq)

/-! ### A runtime with real texts for one quote -/

/-- The code points of a text. -/
def codePoints (text : String) : List ℕ := text.toList.map Char.toNat

theorem codePoints_injective : Function.Injective codePoints := by
  intro a b h
  refine String.toList_injective (List.map_injective_iff.mpr (fun c d hcd => ?_) h)
  exact Char.toNat_inj.mp hcd

/-- All fields of a quote. -/
def quoteKey (quote : QuoteRecord) :
    List (Option (List ℕ)) × List (Option ℤ) × List (Option ℚ) :=
  ([codePoints quote.venue, codePoints quote.asset, codePoints quote.marketKind.value,
      codePoints quote.symbol, codePoints quote.source, quote.quoteCurrency.map codePoints,
      quote.contractKey.map codePoints],
    [quote.observedAt, quote.expiresAt],
    [quote.mid.val, quote.bid.map Subtype.val, quote.ask.map Subtype.val])

theorem marketKind_value_injective : Function.Injective MarketKind.value := by
  intro a b h
  cases a <;> cases b <;> first | rfl | exact absurd h (by decide)

theorem quoteKey_injective : Function.Injective quoteKey := by
  intro a b h
  obtain ⟨⟨venue, asset, kind, symbol, mid, observedAt⟩, currency, contract, expires, bid, ask,
    source, hspread, hdated⟩ := a
  obtain ⟨⟨venue', asset', kind', symbol', mid', observedAt'⟩, currency', contract', expires', bid',
    ask', source', hspread', hdated'⟩ := b
  simp only [quoteKey, Prod.mk.injEq, List.cons.injEq, Option.some.injEq, and_true] at h
  obtain ⟨⟨hvenue, hasset, hkind, hsymbol, hsource, hcurrency, hcontract⟩, ⟨hobserved, hexpires⟩,
    hmid, hbid, hask⟩ := h
  obtain rfl := codePoints_injective hvenue
  obtain rfl := codePoints_injective hasset
  obtain rfl := marketKind_value_injective (codePoints_injective hkind)
  obtain rfl := codePoints_injective hsymbol
  obtain rfl := codePoints_injective hsource
  obtain rfl := hobserved
  obtain rfl := Subtype.ext hmid
  obtain rfl := Option.map_injective codePoints_injective hcurrency
  obtain rfl := Option.map_injective codePoints_injective hcontract
  obtain rfl := hexpires
  obtain rfl := Option.map_injective Subtype.val_injective hbid
  obtain rfl := Option.map_injective Subtype.val_injective hask
  rfl

/-- The JSON texts of the quote of the examples. -/
def bitcoinTexts : List (String × String) :=
  [("venue", "\"kraken\""), ("asset", "\"BTC\""), ("market_kind", "\"spot\""),
    ("symbol", "\"BTC-USD\""), ("quote_currency", "null"), ("contract_key", "null"),
    ("expires_at", "null"), ("bid", "null"), ("ask", "null"), ("mid", "60000.0"),
    ("observed_at", "\"1970-01-01T00:00:00Z\""), ("source", "\"public-rest\"")]

/-- The JSON texts of a quote: those of the examples' quote are real, any other quote has a number
    of its own under `first`. -/
def sampleValue (first : String) (quote : QuoteRecord) (name : String) : String :=
  if quoteKey quote = quoteKey (bitcoinQuote 0) then
    (bitcoinTexts.lookup name).getD "null"
  else if name = first then
    unary (Encodable.encode (quoteKey quote))
  else
    "null"

/-- The text of an object with at least two fields, from its first value on. -/
theorem jsonObject_append (name value : String) (field : String × String)
    (rest : List (String × String)) :
    jsonObject ((name, value) :: field :: rest)
      = "\x7b\"" ++ name ++ "\":" ++ (value ++ ("," ++ (jsonMembers (field :: rest) ++ "\x7d"))) := by
  refine String.toList_injective ?_
  simp [jsonObject, jsonMembers, jsonMember, String.toList_append]

/-- The texts of the sample tell quotes apart. The sampled quote has its real text and every
    other one a unary number and nulls, so the first field already tells them apart. -/
theorem sampleText_injective {first second : String} {rest : List String}
    (hfirst : first ∉ second :: rest)
    (hreal : ∃ c tail, ((bitcoinTexts.lookup first).getD "null").toList = c :: tail
      ∧ c ≠ '0' ∧ c ≠ ',') :
    Function.Injective (fun quote => jsonObject ((first :: second :: rest).map
      (fun name => (name, sampleValue first quote name)))) := by
  obtain ⟨c, tail, hlookup, hzero, hcomma⟩ := hreal
  have hnull : ∀ quote, quoteKey quote ≠ quoteKey (bitcoinQuote 0) →
      (second :: rest).map (fun name => (name, sampleValue first quote name))
        = (second :: rest).map (fun name => (name, "null")) := by
    intro quote hquote
    refine List.map_congr_left (fun name hname => ?_)
    have hne : name ≠ first := fun heq => hfirst (heq ▸ hname)
    rw [sampleValue, if_neg hquote, if_neg hne]
  -- two objects with equal texts agree from the first value on
  have hvalues : ∀ {quote quote' : QuoteRecord}, jsonObject ((first :: second :: rest).map
      (fun name => (name, sampleValue first quote name))) = jsonObject ((first :: second :: rest).map
      (fun name => (name, sampleValue first quote' name))) →
      ∃ text text', (sampleValue first quote first).toList ++ ',' :: text
          = (sampleValue first quote' first).toList ++ ',' :: text'
        ∧ (quoteKey quote ≠ quoteKey (bitcoinQuote 0) →
          quoteKey quote' ≠ quoteKey (bitcoinQuote 0) → text = text') := by
    intro quote quote' heq
    simp only [List.map_cons] at heq
    rw [jsonObject_append, jsonObject_append] at heq
    have hlist := congrArg String.toList heq
    simp only [String.toList_append, List.append_assoc, List.append_cancel_left_eq] at hlist
    refine ⟨_, _, hlist, fun hquote hquote' => ?_⟩
    have hsame := (hnull quote hquote).trans (hnull quote' hquote').symm
    simp only [List.map_cons] at hsame
    rw [hsame]
  -- the first value of a real text is no number
  have hmixed : ∀ {quote quote' : QuoteRecord}, quoteKey quote = quoteKey (bitcoinQuote 0) →
      quoteKey quote' ≠ quoteKey (bitcoinQuote 0) → ∀ text text' : List Char,
      (sampleValue first quote first).toList ++ ',' :: text
        ≠ (sampleValue first quote' first).toList ++ ',' :: text' := by
    intro quote quote' hquote hquote' text text' heq
    rw [sampleValue, if_pos hquote, hlookup, sampleValue, if_neg hquote', if_pos rfl, unary,
      String.toList_ofList] at heq
    cases hcode : Encodable.encode (quoteKey quote') with
    | zero =>
      rw [hcode] at heq
      injection heq with hhead
      exact hcomma hhead
    | succ n =>
      rw [hcode, List.replicate_succ] at heq
      injection heq with hhead
      exact hzero hhead
  intro quote quote' heq
  obtain ⟨text, text', hlist, hrest⟩ := hvalues heq
  refine quoteKey_injective ?_
  -- the sampled quote against itself, against another, and two others against each other
  by_cases hquote : quoteKey quote = quoteKey (bitcoinQuote 0)
  · by_cases hquote' : quoteKey quote' = quoteKey (bitcoinQuote 0)
    · rw [hquote, hquote']
    · exact absurd hlist (hmixed hquote hquote' text text')
  · by_cases hquote' : quoteKey quote' = quoteKey (bitcoinQuote 0)
    · exact absurd hlist.symm (hmixed hquote' hquote text' text)
    · rw [hrest hquote hquote', List.append_cancel_right_eq] at hlist
      have hvalue := String.toList_injective hlist
      rw [sampleValue, if_neg hquote, if_pos rfl, sampleValue, if_neg hquote', if_pos rfl] at hvalue
      exact Encodable.encode_injective (unary_injective hvalue)

/-- A runtime whose digests are the texts, marked. -/
def QuoteRuntime.sample : QuoteRuntime where
  pydanticValue := sampleValue "venue"
  jsonValue := sampleValue "ask"
  modelDumpJson_injective :=
    sampleText_injective (by decide) ⟨'"', "kraken\"".toList, by decide, by decide, by decide⟩
  sortedJson_injective := by
    have hsorted : quoteFields.insertionSort (· ≤ ·) = ["ask", "asset", "bid", "contract_key",
        "expires_at", "market_kind", "mid", "observed_at", "quote_currency", "source", "symbol",
        "venue"] := by decide +kernel
    unfold sortedJson
    rw [hsorted]
    exact sampleText_injective (by decide) ⟨'n', "ull".toList, by decide, by decide, by decide⟩
  sha256 text := "#" ++ text
  sha256_injective := mark_injective
  sha256_ne_empty := mark_ne_empty

end InefficiencyEngine.History
