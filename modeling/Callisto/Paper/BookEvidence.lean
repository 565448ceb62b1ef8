import Callisto.Library.FixedPoint
import Callisto.Library.JsonText
import Callisto.Library.Traversals
import Callisto.Paper.Execution

/-! The displayed book as it is read from the decimal texts of an orderbook payload, and the evidence that is kept of it. -/

namespace Callisto.Paper.Spelled

open Callisto.Library

def priceScale : ℕ := 6

def quantityScale : ℕ := 2

/-- `Decimal` digits, the hash, and how a time is written. -/
structure Platform where
  digits : DigitTable
  sha256 : List Char → String
  isoformat : Instant → String

/-- `_decimal_string`. What is no string has no text. -/
def parseDecimal (digits : DigitTable) (value : Option String) (field : String) (maxScale : ℕ) : Except ProtocolError Decimal :=
  match value.bind fun text => digits.read text.toList with
  | none => .error s!"{field} must be a decimal string"
  | some parsed => if parsed.exponent < -maxScale then .error s!"{field} has more than {maxScale} decimal places" else .ok parsed

def parsePrice (digits : DigitTable) (value : Option String) (field : String) : Except ProtocolError Decimal := do
  let parsed ← parseDecimal digits value field priceScale
  if parsed.value ≤ 0 ∨ 1 ≤ parsed.value then .error s!"{field} must be greater than 0 and less than 1" else .ok parsed

def parseQuantity (digits : DigitTable) (value : Option String) (field : String) : Except ProtocolError Decimal := do
  let parsed ← parseDecimal digits value field quantityScale
  if parsed.value ≤ 0 then .error s!"{field} must be greater than 0" else .ok parsed

/-- `_to_scaled_int` -/
def toScaledInt (value : Decimal) (scale : ℕ) (field : String) : Except ProtocolError ℤ :=
  match value.scaled scale with
  | some units => .ok units
  | none => .error s!"{field} has more than {scale} decimal places"

def Writable (units : ℤ) : Prop := (Nat.toDigits 10 units.natAbs).length ≤ 4300

instance : DecidablePred Writable := fun units => inferInstanceAs (Decidable ((Nat.toDigits 10 units.natAbs).length ≤ 4300))

def digitLimitError : ProtocolError :=
  "Exceeds the limit (4300 digits) for integer string conversion; use sys.set_int_max_str_digits() to increase the limit"

/-- `_from_scaled_int` -/
def fromScaledInt (units : ℤ) (scale : ℕ) : Except ProtocolError Decimal :=
  if Writable units then .ok ⟨units < 0, units.natAbs, -scale⟩ else .error digitLimitError

/-- `format(value, f".{scale}f")` of a number that has just these places. -/
def formatFixed (scale : ℕ) (value : Decimal) : String :=
  String.ofList ((if value.negative then ['-'] else []) ++ fixedText scale value.coefficient)

def unitsText (units : ℤ) (scale : ℕ) : Except ProtocolError String := (fromScaledInt units scale).map (formatFixed scale)

def decimalString (value : Decimal) (scale : ℕ) : Except ProtocolError String := do
  let scaled ← toScaledInt value scale "financial value"
  unitsText scaled scale

structure PaperBookLevel where
  price : Decimal
  quantity : Decimal

structure PaperBook where
  ticker : String
  yesBids : List PaperBookLevel
  noBids : List PaperBookLevel
  sourceOrigin : String
  observedAt : Instant
  fetchedAt : Instant
  evidenceHash : String
  evidenceJson : List Char

def PaperBook.bids (book : PaperBook) : Outcome → List PaperBookLevel
  | .yes => book.yesBids
  | .no => book.noBids

def sideText : Outcome → String
  | .yes => "yes"
  | .no => "no"

/-- `str`, if a value is one. -/
def stringOf : Json → Option String
  | .string text => some text
  | _ => none

/-- `payload.get(name)`; of two fields of one name the last counts. -/
def get (payload : List (String × Json)) (name : String) : Option Json := payload.reverse.lookup name

/-- One turn of the loop of `_parse_levels`, up to the look at the other prices. -/
def parseLevel (digits : DigitTable) (side : Outcome) : Json → Except ProtocolError PaperBookLevel
  | .array [rawPrice, rawQuantity] => do
    let price ← parsePrice digits (stringOf rawPrice) "price"
    let quantity ← parseQuantity digits (stringOf rawQuantity) "quantity"
    .ok ⟨price, quantity⟩
  | _ =>
    let side := sideText side
    .error s!"Kalshi orderbook {side} level must contain price and quantity"

/-- The loop, with the prices that it has seen. They are compared as numbers. -/
def readLevels (digits : DigitTable) (side : Outcome) : List Json → List Decimal → Except ProtocolError (List PaperBookLevel)
  | [], _ => .ok []
  | raw :: rest, seen => do
    let level ← parseLevel digits side raw
    if ∃ other ∈ seen, other.value = level.price.value then
      let side := sideText side
      .error s!"Kalshi orderbook {side} contains a duplicate price"
    else do
      let levels ← readLevels digits side rest (level.price :: seen)
      .ok (level :: levels)

def parseLevels (digits : DigitTable) (side : Outcome) : Option Json → Except ProtocolError (List PaperBookLevel)
  | some (.array value) => readLevels digits side value []
  | _ =>
    let side := sideText side
    .error s!"Kalshi orderbook {side}_dollars must be an array"

def checkTicks (ranges : List PaperPriceRange) : List PaperBookLevel → Except ProtocolError Unit
  | [] => .ok ()
  | level :: rest => do
    let priceUnits ← toScaledInt level.price priceScale "book price"
    if priceIsOnTick priceUnits ranges then checkTicks ranges rest else .error "Kalshi orderbook contains an off-tick price"

/-- The evidence of a level: its price and its quantity to their fixed places. -/
def levelEvidence (level : PaperBookLevel) : Except ProtocolError Json := do
  let price ← decimalString level.price priceScale
  let quantity ← decimalString level.quantity quantityScale
  .ok (.array [.string price, .string quantity])

/-- `_canonical_json` of a payload whose fields stand in the order of their names. -/
def canonicalJson (payload : List (String × Json)) (_sorted : (payload.map Prod.fst).Pairwise (· < ·)) : List Char :=
  JsonText.dumps (.object payload)

def evidencePayload (ticker sourceOrigin observedAt : String) (yesDollars noDollars : List Json) : List (String × Json) :=
  [("no_dollars", .array noDollars), ("observed_at", .string observedAt), ("source_origin", .string sourceOrigin), ("ticker", .string ticker),
    ("yes_dollars", .array yesDollars)]

theorem evidencePayload_sorted (ticker sourceOrigin observedAt : String) (yesDollars noDollars : List Json) :
    ((evidencePayload ticker sourceOrigin observedAt yesDollars noDollars).map Prod.fst).Pairwise (· < ·) := by
  show ["no_dollars", "observed_at", "source_origin", "ticker", "yes_dollars"].Pairwise (· < ·)
  decide +kernel

/-- `_parse_book`, of a client with its origin -/
def parseBook (platform : Platform) (origin ticker : String) (payload : List (String × Json)) (ranges : List PaperPriceRange)
    (observedAt fetchedAt : Instant) : Except ProtocolError PaperBook := do
  let yesBids ← parseLevels platform.digits .yes (get payload "yes_dollars")
  let noBids ← parseLevels platform.digits .no (get payload "no_dollars")
  if yesBids.isEmpty && noBids.isEmpty then .error "Kalshi orderbook displayed depth is empty"
  else do
    checkTicks ranges (yesBids ++ noBids)
    let yesDollars ← yesBids.mapM levelEvidence
    let noDollars ← noBids.mapM levelEvidence
    let evidenceJson := canonicalJson (evidencePayload ticker origin (platform.isoformat observedAt) yesDollars noDollars)
      (evidencePayload_sorted _ _ _ _ _)
    .ok
      { ticker := ticker
        yesBids := yesBids
        noBids := noBids
        sourceOrigin := origin
        observedAt := observedAt
        fetchedAt := fetchedAt
        evidenceHash := platform.sha256 evidenceJson
        evidenceJson := evidenceJson }

/-! ## Units -/

def PaperBookLevel.units (level : PaperBookLevel) : Paper.PaperBookLevel :=
  ⟨(level.price.scaled priceScale).getD 0, (level.quantity.scaled quantityScale).getD 0⟩

structure PaperBookLevel.Sound (level : PaperBookLevel) : Prop where
  price : level.price.scaled priceScale = some level.units.price
  quantity : level.quantity.scaled quantityScale = some level.units.quantity
  price_positive : 0 < level.units.price
  price_below : level.units.price < priceUnits
  quantity_positive : 0 < level.units.quantity

def spell (level : Paper.PaperBookLevel) : PaperBookLevel :=
  ⟨.ofUnits level.price.natAbs priceScale, .ofUnits level.quantity.natAbs quantityScale⟩

variable {digits : DigitTable} {value : Option String} {parsed : Decimal} {field : String}

theorem units_of_parse {scale : ℕ}
    (found : parseDecimal digits value field scale = .ok parsed) : ∃ units, parsed.scaled scale = some units := by
  unfold parseDecimal at found
  split at found
  · cases found
  · split at found
    · cases found
    · rename_i places
      cases found
      exact Decimal.scaled_of_exponent (not_lt.1 places)

theorem value_of_scaled {number : Decimal} {scale : ℕ} {units : ℤ} (counted : number.scaled scale = some units) :
    number.value = units / 10 ^ scale := by
  rw [eq_div_iff (by positivity)]
  exact Decimal.scaled_eq_some_iff.1 counted

theorem parseDecimal_of_price
    (found : parsePrice digits value field = .ok parsed) : parseDecimal digits value field priceScale = .ok parsed := by
  obtain ⟨number, read, checked⟩ := bind_ok.1 found
  split at checked
  · cases checked
  · cases checked
    exact read

theorem parseDecimal_of_quantity
    (found : parseQuantity digits value field = .ok parsed) : parseDecimal digits value field quantityScale = .ok parsed := by
  obtain ⟨number, read, checked⟩ := bind_ok.1 found
  split at checked
  · cases checked
  · cases checked
    exact read

theorem parsePrice_ok
    (found : parsePrice digits value field = .ok parsed) :
    ∃ units, parsed.scaled priceScale = some units ∧ 0 < units ∧ units < priceUnits := by
  obtain ⟨number, read, checked⟩ := bind_ok.1 found
  obtain ⟨units, counted⟩ := units_of_parse read
  split at checked
  · cases checked
  · rename_i bounds
    cases checked
    rw [not_or, not_le, not_le, value_of_scaled counted] at bounds
    have scale : (0 : ℚ) < 10 ^ priceScale := by positivity
    have low : (0 : ℚ) < units := (div_pos_iff_of_pos_right scale).1 bounds.1
    have high : (units : ℚ) < 10 ^ priceScale := (div_lt_one scale).1 bounds.2
    exact ⟨units, counted, by exact_mod_cast low, by exact_mod_cast high⟩

theorem parseQuantity_ok
    (found : parseQuantity digits value field = .ok parsed) : ∃ units, parsed.scaled quantityScale = some units ∧ 0 < units := by
  obtain ⟨number, read, checked⟩ := bind_ok.1 found
  obtain ⟨units, counted⟩ := units_of_parse read
  split at checked
  · cases checked
  · rename_i bounds
    cases checked
    rw [not_le, value_of_scaled counted] at bounds
    have low : (0 : ℚ) < units := (div_pos_iff_of_pos_right (by positivity)).1 bounds
    exact ⟨units, counted, by exact_mod_cast low⟩

theorem parseLevel_sound {side : Outcome} {raw : Json} {level : PaperBookLevel}
    (found : parseLevel digits side raw = .ok level) : level.Sound := by
  unfold parseLevel at found
  split at found
  · obtain ⟨price, priced, found⟩ := bind_ok.1 found
    obtain ⟨quantity, sized, found⟩ := bind_ok.1 found
    cases found
    obtain ⟨units, counted, positive, below⟩ := parsePrice_ok priced
    obtain ⟨amount, measured, some_⟩ := parseQuantity_ok sized
    have unitsEq : (PaperBookLevel.mk price quantity).units = ⟨units, amount⟩ := by
      unfold PaperBookLevel.units
      rw [counted, measured]
      rfl
    exact ⟨by rw [unitsEq]; exact counted, by rw [unitsEq]; exact measured, by rw [unitsEq]; exact positive, by rw [unitsEq]; exact below,
      by rw [unitsEq]; exact some_⟩
  · cases found

theorem PaperBookLevel.Sound.convert_price {level : PaperBookLevel} (sound : level.Sound) (field : String) :
    toScaledInt level.price priceScale field = .ok level.units.price := by
  unfold toScaledInt
  rw [sound.price]

theorem PaperBookLevel.Sound.convert_quantity {level : PaperBookLevel} (sound : level.Sound) (field : String) :
    toScaledInt level.quantity quantityScale field = .ok level.units.quantity := by
  unfold toScaledInt
  rw [sound.quantity]

end Callisto.Paper.Spelled
