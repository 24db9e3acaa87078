import InefficiencyEngine.History.Calls
import InefficiencyEngine.Lib.Numbers

namespace InefficiencyEngine.History

open Portfolio

/-!
# A runtime and quotes to run histories with

`HistoryRuntime.sample` satisfies what the history relies on of its libraries; the checksum of
a file is the number of its rows.
-/

/-- No upper-case letter is the letter `a`. -/
theorem toUpper_ne_a (c : Char) : c.toUpper ≠ 'a' := by
  intro h
  unfold Char.toUpper at h
  split at h
  · rename_i hlower
    have hval := congrArg (fun d : Char => d.val.toNat) h
    have hge := UInt32.le_iff_toNat_le.mp hlower.1
    have hle := UInt32.le_iff_toNat_le.mp hlower.2
    simp only [UInt32.toNat_add, UInt32.toNat_sub] at hval hge hle
    have hA : 'A'.val.toNat = 65 := by decide
    have ha : 'a'.val.toNat = 97 := by decide
    have hz : 'z'.val.toNat = 122 := by decide
    rw [hA, ha] at hval
    omega
  · rename_i hlower
    subst h
    exact hlower (by decide)

/-- `str.upper` on ASCII texts. -/
def upperAscii (text : String) : String := String.ofList (text.toList.map Char.toUpper)

/-- A runtime for histories. -/
def HistoryRuntime.sample : HistoryRuntime where
  upper := upperAscii
  upper_ne_multiAsset text h := by
    have hlist := congrArg String.toList h
    rw [upperAscii, String.toList_ofList] at hlist
    have hmem : 'a' ∈ text.toList.map Char.toUpper := by
      rw [hlist]
      decide
    obtain ⟨c, -, hc⟩ := List.mem_map.mp hmem
    exact toUpper_ne_a c hc
  uuid4 := Nat.pair
  uuid4_injective := pair_injective2
  pathText path := path.directory.venue ++ "/" ++ path.directory.asset ++ "/"
    ++ toString path.name.uuid
  checksum rows := toString rows.length
  lineageDigest lineages := String.join lineages

/-- A quote of the spot market for bitcoin. -/
def bitcoinQuote (observedAt : Instant) : QuoteRecord where
  venue := "kraken"
  asset := "BTC"
  marketKind := .spot
  symbol := "BTC-USD"
  mid := 60000
  observedAt := observedAt
  quoteCurrency := none
  contractKey := none
  expiresAt := none
  bid := none
  ask := none
  source := "public-rest"
  bid_le_ask := by simp
  dated := by simp

end InefficiencyEngine.History
