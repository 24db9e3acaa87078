import InefficiencyEngine.Lib.Dict
import Mathlib.Data.Rat.Floor
import Mathlib.Algebra.Order.Ring.Rat
import Mathlib.Tactic.Linarith

namespace InefficiencyEngine.Portfolio

/-!
# Market data — quotes, order books, funding, and the indexes over them

The point-in-time inputs of the paper portfolio (`models.py`, `evidence.py`), with
amounts as exact rationals.  A field the source validates with `Field(gt=0)` is a
`Positive`, one validated with `Field(ge=0)` a `ℚ≥0`, so a quote with a price of zero
cannot be built.

The source reads a scan through *two* quote indexes: the portfolio service keeps the
newest observation of an instrument (`portfolioQuoteIndex`), the certification service
whichever observation is listed last (`certificationQuoteIndex`).
-/

/-! ### Scalars -/

/-- An aware datetime, in microseconds. -/
abbrev Instant := Int

/-- `uuid.uuid4().hex`: 32 lowercase digits, which order like the number they spell. -/
abbrev Uuid := ℕ

/-- A value validated with `Field(gt=0)`. -/
abbrev Positive := { q : ℚ // 0 < q }

/-- A positive numeral. -/
theorem pos_ofNat (n : ℕ) : (0 : ℚ) < OfNat.ofNat (n + 1) := Nat.cast_pos.mpr n.succ_pos

/-- Positive numerals are positive values. -/
instance Positive.ofNat (n : ℕ) : OfNat Positive (n + 1) := ⟨⟨OfNat.ofNat (n + 1), pos_ofNat n⟩⟩

@[simp] theorem Positive.val_ofNat (n : ℕ) :
    ((no_index (OfNat.ofNat (n + 1)) : Positive) : ℚ) = (n + 1 : ℕ) := rfl

/-- What a modelled function raises. -/
inductive Raised
  | validationError (model field : String)
  | valueError (message : String)
  | runtimeError (message : String)
  | assertionError (message : String)
  /-- Whatever an injected service or provider raised. -/
  | external (type : String)
  deriving DecidableEq

/-- Validation of a `Field(gt=0)`. -/
def positive (model field : String) (q : ℚ) : Except Raised Positive :=
  if h : 0 < q then .ok ⟨q, h⟩ else .error (.validationError model field)

/-- Validation of a `Field(ge=0)`. -/
def nonNegative (model field : String) (q : ℚ) : Except Raised ℚ≥0 :=
  if h : 0 ≤ q then .ok ⟨q, h⟩ else .error (.validationError model field)

theorem positive_of_lt {model field : String} {q : ℚ} (h : 0 < q) :
    positive model field q = .ok ⟨q, h⟩ := by
  rw [positive, dif_pos h]

theorem nonNegative_of_le {model field : String} {q : ℚ} (h : 0 ≤ q) :
    nonNegative model field q = .ok ⟨q, h⟩ := by
  rw [nonNegative, dif_pos h]

/-- A validated value is the value that was passed in. -/
theorem positive_eq_ok {model field : String} {q : ℚ} {p : Positive}
    (h : positive model field q = .ok p) : (p : ℚ) = q := by
  unfold positive at h
  split at h
  · injection h with h
    rw [← h]
  · cases h

/-- A validated value is the value that was passed in. -/
theorem nonNegative_eq_ok {model field : String} {q : ℚ} {p : ℚ≥0}
    (h : nonNegative model field q = .ok p) : (p : ℚ) = q := by
  unfold nonNegative at h
  split at h
  · injection h with h
    rw [← h]
    rfl
  · cases h

/-- Rounding to the nearest integer, ties to the even one. -/
def roundHalfEven (q : ℚ) : Int :=
  if q - ⌊q⌋ < 1 / 2 then ⌊q⌋
  else if 1 / 2 < q - ⌊q⌋ then ⌊q⌋ + 1
  else if ⌊q⌋ % 2 = 0 then ⌊q⌋
  else ⌊q⌋ + 1

/-- `timedelta(hours=h)`. -/
def timedeltaHours (h : ℚ) : Int := roundHalfEven (h * 3600000000)

/-- `timedelta.total_seconds`. -/
def totalSeconds (duration : Int) : ℚ := duration / 10 ^ 6

/-! ### Enumerations -/

/-- `MarketKind`. -/
inductive MarketKind
  | spot
  | perpetual
  | future
  deriving DecidableEq

/-- `MarketKind.value`. -/
def MarketKind.value : MarketKind → String
  | .spot => "spot"
  | .perpetual => "perpetual"
  | .future => "future"

/-- `MarketKind(text)`, which raises on any other text. -/
def MarketKind.parse (text : String) : Except Raised MarketKind :=
  if text = "spot" then .ok .spot
  else if text = "perpetual" then .ok .perpetual
  else if text = "future" then .ok .future
  else .error (.valueError (text ++ " is not a valid MarketKind"))

/-- The side of a leg, `Literal["long", "short"]`. -/
inductive Side
  | long
  | short
  deriving DecidableEq

/-- The text of a side. -/
def Side.value : Side → String
  | .long => "long"
  | .short => "short"

/-- The side of a taker order. -/
inductive TradeSide
  | buy
  | sell
  deriving DecidableEq

/-! ### Observations -/

/-- A quote of one instrument. -/
structure MarketQuote where
  venue : String
  asset : String
  marketKind : MarketKind
  symbol : String
  mid : Positive
  observedAt : Instant

/-- One level of an order book. -/
structure OrderBookLevel where
  price : Positive
  size : Positive

/-- Visible depth of one instrument: both sides present and a positive spread. -/
structure OrderBookSnapshot where
  venue : String
  asset : String
  marketKind : MarketKind
  symbol : String
  bids : List OrderBookLevel
  asks : List OrderBookLevel
  observedAt : Instant
  bids_ne : bids ≠ []
  asks_ne : asks ≠ []
  spread : ∀ b ∈ bids, ∀ a ∈ asks, (b.price : ℚ) < a.price

/-- The hours between two funding events: positive and at most a day. -/
abbrev IntervalHours : Type := { hours : ℚ // 0 < hours ∧ hours ≤ 24 }

theorem interval_eight : (0 : ℚ) < 8 ∧ (8 : ℚ) ≤ 24 := by norm_num

/-- An observed funding rate. -/
structure FundingQuote where
  venue : String
  asset : String
  rate : ℚ
  intervalHours : IntervalHours
  symbol : Option String
  nextFundingTime : Option Instant
  observedAt : Instant

/-- One completed scan of the market. -/
structure ScanSnapshot where
  scanId : String
  completedAt : Instant
  marketQuotes : List MarketQuote
  orderBooks : List OrderBookSnapshot

/-- The stored observations a settlement consults, in row order. -/
structure Evidence where
  fundingQuotes : List FundingQuote
  marketQuotes : List MarketQuote

/-! ### Instrument indexes -/

/-- `(venue, asset.upper(), market_kind, symbol)`. -/
abbrev InstrumentKey := String × String × String × String

/-- The index key of a quote. -/
def MarketQuote.key (upper : String → String) (quote : MarketQuote) : InstrumentKey :=
  (quote.venue, upper quote.asset, quote.marketKind.value, quote.symbol)

/-- The index key of a book. -/
def OrderBookSnapshot.key (upper : String → String) (book : OrderBookSnapshot) :
    InstrumentKey :=
  (book.venue, upper book.asset, book.marketKind.value, book.symbol)

/-- `CanonicalPaperPortfolioService._quote_index`: the newest observation wins. -/
def portfolioQuoteIndex (upper : String → String) (snapshot : ScanSnapshot) :
    Dict InstrumentKey MarketQuote :=
  Dict.collectNewest (MarketQuote.key upper) MarketQuote.observedAt snapshot.marketQuotes

/-- `AllocationForwardCertificationService._quote_index`: the last listed wins. -/
def certificationQuoteIndex (upper : String → String) (snapshot : ScanSnapshot) :
    Dict InstrumentKey MarketQuote :=
  Dict.collect (MarketQuote.key upper) snapshot.marketQuotes

/-- `AllocationForwardCertificationService._book_index`. -/
def bookIndex (upper : String → String) (snapshot : ScanSnapshot) :
    Dict InstrumentKey OrderBookSnapshot :=
  Dict.collect (OrderBookSnapshot.key upper) snapshot.orderBooks

end InefficiencyEngine.Portfolio
