import Callisto.Library.DecimalNumbers
import Callisto.Venues.Kalshi

/-! The readers of the venue's orders and fills from decoded payloads, with the checks in the order of the source. -/

namespace Callisto.Venues

open Callisto.Library
open Callisto.Ws (Fields Json strip)
open Callisto.Execution (BookSide)

/-- The text of a `KalshiProtocolError`. -/
abbrev KalshiError := String

abbrev Parse := Except KalshiError

def requiredText (payload : Fields) (key context : String) : Parse String :=
  match Dict.find key payload with
  | none => .error s!"invalid Kalshi {context} response"
  | some (.str value) => if strip value = "" then .error s!"{key} must be a non-empty string" else .ok (strip value)
  | some _ => .error s!"{key} must be a non-empty string"

def requiredTextAllowEmpty (payload : Fields) (key context : String) : Parse String :=
  match Dict.find key payload with
  | none => .error s!"{key} is required in the Kalshi {context} response"
  | some (.str value) =>
    if value ≠ "" ∧ strip value = "" then .error s!"{key} must be a string and cannot contain only whitespace" else .ok (strip value)
  | some _ => .error s!"{key} must be a string and cannot contain only whitespace"

def optionalText (payload : Fields) (key : String) : Parse (Option String) :=
  match Dict.find key payload with
  | none => .ok none
  | some .null => .ok none
  | some (.str value) => if strip value = "" then .error s!"{key} must be a non-empty string when present" else .ok (some (strip value))
  | some _ => .error s!"{key} must be a non-empty string when present"

def optionalInteger (payload : Fields) (key : String) : Parse (Option ℤ) :=
  match Dict.find key payload with
  | none => .ok none
  | some .null => .ok none
  | some (.int value) => .ok (some value)
  | some _ => .error s!"{key} must be an integer"

structure FixedQuantum where
  places : ℕ
  text : String
  within : places ≤ 6

def countQuantum : FixedQuantum := ⟨2, "0.01", by decide⟩

def dollarQuantum : FixedQuantum := ⟨6, "0.000001", by decide⟩

/-- `_fixed`: the quantized value must have no more than 28 digits. What is kept is the value as it is spelled. -/
def fixed (value : Decimal) (quantum : FixedQuantum) (field : String) : Parse KalshiDecimal :=
  if precise : -(quantum.places : ℤ) ≤ value.exponent then
    if short : value.coefficient * 10 ^ (value.exponent + quantum.places).toNat < 10 ^ 28 then
      .ok {
        negative := value.negative
        digits := value.coefficient * 10 ^ value.exponent.toNat
        places := (-value.exponent).toNat
        exact := by have := quantum.within; omega
        bounded := lt_of_le_of_lt (Nat.mul_le_mul_left _ (Nat.pow_le_pow_right (by decide) (by omega))) short }
    else .error s!"{field} is outside Kalshi's fixed-point range"
  else .error s!"{field} has more precision than Kalshi V2 permits ({quantum.text})"

/-- `_required_fixed`, with `Decimal(text)` where it is finite. -/
def requiredFixed (decimal : String → Option Decimal) (payload : Fields) (key context : String) (quantum : FixedQuantum) :
    Parse KalshiDecimal :=
  match Dict.find key payload with
  | none => .error s!"invalid Kalshi {context} response"
  | some (.str raw) =>
    match decimal raw with
    | none => .error s!"{key} must be a finite decimal"
    | some value => fixed value quantum key
  | some _ => .error s!"{key} must be a fixed-point string"

def readOutcomeSide (text : String) : Parse OutcomeSide :=
  if text = "yes" then .ok .yes else if text = "no" then .ok .no else .error "outcome_side must be 'yes' or 'no'"

def readBookSide (text : String) : Parse BookSide :=
  if text = "bid" then .ok .bid else if text = "ask" then .ok .ask else .error "book_side must be 'bid' or 'ask'"

def checkSides (outcomeSide : OutcomeSide) (bookSide : BookSide) : Parse Unit :=
  if outcomeSide = .yes ↔ bookSide = .bid then .ok () else .error "outcome_side and book_side are inconsistent"

def readOrderType (text : String) : Parse OrderType :=
  if text = "limit" then .ok .limit else if text = "market" then .ok .market else .error "type must be 'limit' or 'market'"

def readOrderStatus (text : String) : Parse OrderStatus :=
  if text = "resting" then .ok .resting else if text = "canceled" then .ok .canceled
  else if text = "executed" then .ok .executed else .error "invalid order status"

def KalshiDecimal.IsPrice (value : KalshiDecimal) : Prop := 0 ≤ value.units ∧ value.units ≤ 1000000

instance (value : KalshiDecimal) : Decidable value.IsPrice := inferInstanceAs (Decidable (_ ∧ _))

def check (holds : Bool) (text : KalshiError) : Parse Unit := if holds then .ok () else .error text

/-- `KalshiOrder.from_payload` -/
def KalshiOrder.fromPayload (decimal : String → Option Decimal) (payload : Fields) : Parse KalshiOrder := do
  let outcomeText ← requiredText payload "outcome_side" "order"
  let bookText ← requiredText payload "book_side" "order"
  let typeText ← requiredText payload "type" "order"
  let statusText ← requiredText payload "status" "order"
  let outcomeSide ← readOutcomeSide outcomeText
  let bookSide ← readBookSide bookText
  checkSides outcomeSide bookSide
  let orderType ← readOrderType typeText
  let status ← readOrderStatus statusText
  let yesPrice ← requiredFixed decimal payload "yes_price_dollars" "order" dollarQuantum
  let noPrice ← requiredFixed decimal payload "no_price_dollars" "order" dollarQuantum
  let fillCount ← requiredFixed decimal payload "fill_count_fp" "order" countQuantum
  let remainingCount ← requiredFixed decimal payload "remaining_count_fp" "order" countQuantum
  let initialCount ← requiredFixed decimal payload "initial_count_fp" "order" countQuantum
  let takerFees ← requiredFixed decimal payload "taker_fees_dollars" "order" dollarQuantum
  let makerFees ← requiredFixed decimal payload "maker_fees_dollars" "order" dollarQuantum
  let takerFillCost ← requiredFixed decimal payload "taker_fill_cost_dollars" "order" dollarQuantum
  let makerFillCost ← requiredFixed decimal payload "maker_fill_cost_dollars" "order" dollarQuantum
  check (yesPrice.IsPrice ∧ noPrice.IsPrice) "order prices must be between 0 and 1"
  check (yesPrice.units + noPrice.units = 1000000) "order yes and no prices must sum to 1"
  check (∀ value ∈ [fillCount, remainingCount, initialCount, takerFees, makerFees, takerFillCost, makerFillCost], 0 ≤ value.units)
    "order counts, fees, and costs cannot be negative"
  let subaccountNumber ← optionalInteger payload "subaccount_number"
  let exchangeIndex ← optionalInteger payload "exchange_index"
  check (subaccountNumber.all fun number => 0 ≤ number ∧ number ≤ 63) "subaccount_number must be between 0 and 63"
  check (exchangeIndex.all fun number => -1 ≤ number) "exchange_index cannot be less than -1"
  let orderId ← requiredText payload "order_id" "order"
  let userId ← requiredText payload "user_id" "order"
  let clientOrderId ← requiredTextAllowEmpty payload "client_order_id" "order"
  let ticker ← requiredText payload "ticker" "order"
  let createdTime ← optionalText payload "created_time"
  let lastUpdateTime ← optionalText payload "last_update_time"
  let expirationTime ← optionalText payload "expiration_time"
  .ok {
    orderId, userId, clientOrderId, ticker, outcomeSide, bookSide, orderType, status, yesPrice, noPrice, fillCount, remainingCount,
    initialCount, takerFees, makerFees, takerFillCost, makerFillCost, createdTime, lastUpdateTime, expirationTime, subaccountNumber,
    exchangeIndex }

/-- `KalshiFill.from_payload` -/
def KalshiFill.fromPayload (decimal : String → Option Decimal) (payload : Fields) : Parse KalshiFill := do
  let outcomeText ← requiredText payload "outcome_side" "fill"
  let bookText ← requiredText payload "book_side" "fill"
  let outcomeSide ← readOutcomeSide outcomeText
  let bookSide ← readBookSide bookText
  checkSides outcomeSide bookSide
  let count ← requiredFixed decimal payload "count_fp" "fill" countQuantum
  let yesPrice ← requiredFixed decimal payload "yes_price_dollars" "fill" dollarQuantum
  let noPrice ← requiredFixed decimal payload "no_price_dollars" "fill" dollarQuantum
  let feeCost ← requiredFixed decimal payload "fee_cost" "fill" dollarQuantum
  check (0 ≤ count.units ∧ 0 ≤ feeCost.units ∧ yesPrice.IsPrice ∧ noPrice.IsPrice) "invalid numeric values in Kalshi fill"
  check (yesPrice.units + noPrice.units = 1000000) "fill yes and no prices must sum to 1"
  let isTaker ← match Dict.find "is_taker" payload with
    | none => .error "invalid Kalshi fill response"
    | some (.bool value) => .ok value
    | some _ => .error "is_taker must be a boolean"
  let subaccountNumber ← optionalInteger payload "subaccount_number"
  check (subaccountNumber.all fun number => 0 ≤ number ∧ number ≤ 63) "subaccount_number must be between 0 and 63"
  let fillId ← requiredText payload "fill_id" "fill"
  let tradeId ← requiredText payload "trade_id" "fill"
  let ticker ← requiredText payload "ticker" "fill"
  let marketTicker ← requiredText payload "market_ticker" "fill"
  check (fillId = tradeId) "fill_id and trade_id must match"
  check (ticker = marketTicker) "ticker and market_ticker must match"
  let orderId ← requiredText payload "order_id" "fill"
  let createdTime ← optionalText payload "created_time"
  let ts ← optionalInteger payload "ts"
  .ok {
    fillId, tradeId, orderId, ticker, marketTicker, outcomeSide, bookSide, count, yesPrice, noPrice, isTaker, feeCost, createdTime,
    subaccountNumber, ts }

end Callisto.Venues
