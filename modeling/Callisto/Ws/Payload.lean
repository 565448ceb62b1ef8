import Callisto.Ws.Orderbook

/-! Decoded WebSocket payloads and the strict readers of snapshots and deltas. -/

namespace Callisto.Ws

open Callisto.Library

inductive Json where
  | null
  | bool (value : Bool)
  | int (value : ℤ)
  | float (value : ℚ)
  | str (value : String)
  | arr (items : List Json)
  | obj (fields : List (String × Json))

abbrev Fields := List (String × Json)

/-- A finite `Decimal`. -/
structure DecimalValue where
  coefficient : ℤ
  exponent : ℤ
  deriving DecidableEq

/-- The constructors of the standard library that the readers call: `Decimal(text)` where it is finite,
and whether `UUID(text)` succeeds. -/
structure TextOps where
  decimal : String → Option DecimalValue
  isUuid : String → Bool

/-- `str.isspace` of one character. -/
def isSpace (char : Char) : Bool :=
  let code := char.toNat
  (9 ≤ code && code ≤ 13) || (28 ≤ code && code ≤ 32) || code = 133 || code = 160 || code = 5760 ||
    (8192 ≤ code && code ≤ 8202) || code = 8232 || code = 8233 || code = 8239 || code = 8287 || code = 12288

/-- `str.strip`. -/
def strip (text : String) : String :=
  String.ofList ((text.toList.dropWhile isSpace).reverse.dropWhile isSpace).reverse

/-- The market ticker pattern: capital letters, digits, dots and hyphens, at least one. -/
def isMarketTicker (text : String) : Bool :=
  !text.isEmpty && text.toList.all fun char =>
    ('A' ≤ char && char ≤ 'Z') || ('0' ≤ char && char ≤ '9') || char = '.' || char = '-'

abbrev ProtocolError := String

abbrev Reader := Except ProtocolError

def readMapping (field : String) : Option Json → Reader Fields
  | some (.obj fields) => .ok fields
  | _ => .error s!"{field} must be an object"

def readPositiveInteger (field : String) : Option Json → Reader ℤ
  | some (.int value) => if 0 < value then .ok value else .error s!"{field} must be a positive integer"
  | _ => .error s!"{field} must be a positive integer"

def readOptionalNonnegativeInteger (fields : Fields) (field : String) : Reader (Option ℤ) :=
  match Dict.find field fields with
  | none => .ok none
  | some .null => .ok none
  | some (.int value) => if 0 ≤ value then .ok (some value) else .error s!"{field} must be an integer"
  | some _ => .error s!"{field} must be an integer"

def readText (fields : Fields) (field : String) : Reader String :=
  match Dict.find field fields with
  | some (.str value) =>
    if strip value = "" then .error s!"{field} must be a non-empty string" else .ok (strip value)
  | _ => .error s!"{field} must be a non-empty string"

def readOptionalText (fields : Fields) (field : String) : Reader (Option String) :=
  match Dict.find field fields with
  | none => .ok none
  | some .null => .ok none
  | some (.str value) =>
    if strip value = "" then .error s!"{field} must be a non-empty string when present"
    else .ok (some (strip value))
  | some _ => .error s!"{field} must be a non-empty string when present"

/-- The smallest step of a fixed-point field: its number of decimal places and its text. -/
structure Quantum where
  places : ℕ
  text : String

def priceQuantum : Quantum := ⟨6, "0.000001"⟩

def quantityQuantum : Quantum := ⟨2, "0.01"⟩

/-- A fixed-point text in units of its quantum. `quantize` fails on more than 28 digits. -/
def readFixedPoint (ops : TextOps) (field : String) (quantum : Quantum) :
    Option Json → Reader { units : ℤ // |units| < quantityBound }
  | some (.str text) =>
    match ops.decimal text with
    | none => .error s!"{field} must be a finite decimal"
    | some parsed =>
      if parsed.exponent < -quantum.places then
        .error s!"{field} has more precision than Callisto permits ({quantum.text})"
      else
        let units := parsed.coefficient * 10 ^ (parsed.exponent + quantum.places).toNat
        if bounded : |units| < quantityBound then .ok ⟨units, bounded⟩
        else .error s!"{field} is outside Callisto's fixed-point range"
  | _ => .error s!"{field} must be a fixed-point string"

def readIdentity (ops : TextOps) (fields : Fields) : Reader (String × String) := do
  let marketTicker ← readText fields "market_ticker"
  if isMarketTicker marketTicker then
    let marketId ← readText fields "market_id"
    if ops.isUuid marketId then .ok (marketTicker, marketId) else .error "market_id must be a UUID"
  else .error "invalid market_ticker"

def readEnvelope (fields : Fields) (expectedType : String) : Reader (ℤ × ℤ × Fields) :=
  match Dict.find "type" fields with
  | some (.str type) =>
    if type = expectedType then do
      let sid ← readPositiveInteger "sid" (Dict.find "sid" fields)
      let seq ← readPositiveInteger "seq" (Dict.find "seq" fields)
      let message ← readMapping "msg" (Dict.find "msg" fields)
      .ok (sid, seq, message)
    else .error s!"type must be '{expectedType}'"
  | _ => .error s!"type must be '{expectedType}'"

def MarketSide.name : MarketSide → String
  | .yes => "yes"
  | .no => "no"

/-- One more level, whose price must be new. The levels stay sorted while they grow. -/
def addLevel (ops : TextOps) (field : String) (side : MarketSide) (ladder : Ladder) : Json → Reader Ladder
  | .arr [.str rawPrice, .str rawQuantity] => do
    let price ← readFixedPoint ops s!"{field} price" priceQuantum (some (.str rawPrice))
    let quantity ← readFixedPoint ops s!"{field} quantity" quantityQuantum (some (.str rawQuantity))
    if priced : 0 ≤ price.1 ∧ price.1 ≤ priceUnits then
      if sized : 0 < quantity.1 then
        if (Dict.find price.1 ladder.levels).isSome then .error s!"duplicate {side.name} price level"
        else .ok (ladder.withQuantity price.1 quantity.1 priced sized.le)
      else .error "snapshot quantity must be positive"
    else .error "snapshot price must be between 0 and 1"
  | _ => .error "price level must contain exactly two strings"

def readLevels (ops : TextOps) (fields : Fields) (field : String) (side : MarketSide) : Reader Ladder :=
  match (Dict.find field fields).getD (.arr []) with
  | .arr rawLevels => rawLevels.foldlM (addLevel ops field side) Ladder.empty
  | _ => .error s!"{field} must be an array"

def KalshiOrderbookSnapshot.fromPayload (ops : TextOps) (payload : Fields) : Reader KalshiOrderbookSnapshot := do
  let (sid, seq, message) ← readEnvelope payload "orderbook_snapshot"
  let (marketTicker, marketId) ← readIdentity ops message
  let yesLevels ← readLevels ops message "yes_dollars_fp" .yes
  let noLevels ← readLevels ops message "no_dollars_fp" .no
  .ok ⟨sid, seq, marketTicker, marketId, yesLevels, noLevels⟩

def readSide : Option Json → Reader MarketSide
  | some (.str text) =>
    if text = "yes" then .ok .yes
    else if text = "no" then .ok .no
    else .error "side must be 'yes' or 'no'"
  | _ => .error "side must be 'yes' or 'no'"

def KalshiOrderbookDelta.fromPayload (ops : TextOps) (payload : Fields) : Reader KalshiOrderbookDelta := do
  let (sid, seq, message) ← readEnvelope payload "orderbook_delta"
  let (marketTicker, marketId) ← readIdentity ops message
  let price ← readFixedPoint ops "price_dollars" priceQuantum (Dict.find "price_dollars" message)
  let delta ← readFixedPoint ops "delta_fp" quantityQuantum (Dict.find "delta_fp" message)
  if priced : 0 ≤ price.1 ∧ price.1 ≤ priceUnits then
    let side ← readSide (Dict.find "side" message)
    let clientOrderId ← readOptionalText message "client_order_id"
    let subaccount ← readOptionalNonnegativeInteger message "subaccount"
    let timestampMs ← readOptionalNonnegativeInteger message "ts_ms"
    .ok ⟨sid, seq, marketTicker, marketId, price.1, delta.1, side, clientOrderId, subaccount, timestampMs,
      priced, delta.2⟩
  else .error "price_dollars must be between 0 and 1"

/-- A state bound to an acknowledged subscription, with the identity read as a message's is. -/
def KalshiOrderbookState.create (ops : TextOps) (expectedSid : ℤ) (marketTicker marketId : String) :
    Reader KalshiOrderbookState := do
  let sid ← readPositiveInteger "expected_sid" (some (.int expectedSid))
  let (ticker, market) ← readIdentity ops [("market_ticker", .str marketTicker), ("market_id", .str marketId)]
  .ok { expectedSid := sid, marketTicker := ticker, marketId := market }

end Callisto.Ws
