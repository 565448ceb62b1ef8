import Callisto.Library.Dates
import Callisto.Ws.Payload

/-! The strict readers of private Kalshi payloads. All of their errors are protocol errors but one: a timestamp that no `datetime`
holds in UTC overflows. -/

namespace Callisto.Ws

open Callisto.Library

/-- What a reader raises: a `KalshiPrivateWSProtocolError`, or the `OverflowError` of `astimezone`. -/
inductive PrivateError where
  | protocol (text : String)
  | overflow
  deriving DecidableEq

abbrev PrivateReader := Except PrivateError

def strict {α : Type} : Reader α → PrivateReader α
  | .ok value => .ok value
  | .error text => .error (.protocol text)

def int64Max : ℤ := 2 ^ 63 - 1

def readUuid (ops : TextOps) (fields : Fields) (field : String) : Reader String := do
  let value ← readText fields field
  if ops.isUuid value then .ok value else .error s!"{field} must be a UUID"

def readTicker (fields : Fields) (field : String) : Reader String := do
  let value ← readText fields field
  if isMarketTicker value then .ok value else .error s!"{field} is invalid"

def readInteger (field : String) (minimum maximum : ℤ) : Option Json → Reader ℤ
  | some (.int value) =>
    if minimum ≤ value ∧ value ≤ maximum then .ok value else .error s!"{field} must be an integer between {minimum} and {maximum}"
  | _ => .error s!"{field} must be an integer between {minimum} and {maximum}"

def readOptionalSubaccount (fields : Fields) (field : String) : Reader (Option ℤ) :=
  match Dict.find field fields with
  | none => .ok none
  | some .null => .ok none
  | some value => (readInteger field 0 63 (some value)).map some

def readBoolean (fields : Fields) (field : String) : Reader Bool :=
  match Dict.find field fields with
  | some (.bool value) => .ok value
  | _ => .error s!"{field} must be a boolean"

/-- `_fixed` with a quantum of so many decimal places. -/
def readFixed (ops : TextOps) (fields : Fields) (field : String) (places : ℕ) : Reader DecimalValue :=
  match Dict.find field fields with
  | some (.str raw) =>
    match ops.decimal raw with
    | none => .error s!"{field} must be a finite decimal"
    | some value => if value.exponent < -places then .error s!"{field} has more precision than permitted" else .ok value
  | _ => .error s!"{field} must be a fixed-point string"

def countPlaces : ℕ := 2

def dollarPlaces : ℕ := 4

/-- `value <= 1` -/
def DecimalValue.atMostOne (value : DecimalValue) : Bool :=
  value.coefficient ≤ 0 || (value.exponent ≤ 0 && value.coefficient ≤ 10 ^ value.exponent.natAbs)

inductive BookSide where
  | bid
  | ask
  deriving DecidableEq

def readSideOf (fields : Fields) (field : String) : Reader MarketSide := do
  let value ← readText fields field
  if value = "yes" then .ok .yes else if value = "no" then .ok .no else .error s!"{field} must be 'yes' or 'no'"

def readBookSide (fields : Fields) : Reader BookSide := do
  let value ← readText fields "book_side"
  if value = "bid" then .ok .bid else if value = "ask" then .ok .ask else .error "book_side must be 'bid' or 'ask'"

/-- `outcome_side` and `book_side`, which say the same. -/
def readDirection (fields : Fields) : Reader (MarketSide × BookSide) := do
  let outcome ← readSideOf fields "outcome_side"
  let book ← readBookSide fields
  if (outcome = .yes) ↔ (book = .bid) then .ok (outcome, book) else .error "outcome_side and book_side are inconsistent"

/-! ## Timestamps -/

/-- `_rfc3339_ms` -/
def rfc3339Ms (text field : String) : PrivateReader ℤ :=
  match Dates.rfc3339Micros text with
  | none => .error (.protocol s!"{field} must be RFC3339 with a timezone")
  | some micros => if Dates.minMicros ≤ micros ∧ micros ≤ Dates.maxMicros then .ok (micros / 1000) else .error .overflow

def isNull : Option Json → Bool
  | none => true
  | some .null => true
  | _ => false

/-- `_timestamp_pair` -/
def timestampPair (fields : Fields) (textField msField : String) (required : Bool) : PrivateReader (Option String × Option ℤ) :=
  let textValue := Dict.find textField fields
  let msValue := Dict.find msField fields
  if isNull textValue ∧ isNull msValue ∧ required = false then .ok (none, none)
  else do
    let timestampMs ← strict (readInteger msField 1 int64Max msValue)
    if isNull textValue ∧ required = false then .ok (none, some timestampMs)
    else match textValue with
      | some (.str text) =>
        if strip text = "" then .error (.protocol s!"{textField} must accompany {msField}")
        else do
          let ms ← rfc3339Ms text textField
          if ms = timestampMs then .ok (some text, some timestampMs)
          else .error (.protocol s!"{textField} and {msField} are inconsistent")
      | _ => .error (.protocol s!"{textField} must accompany {msField}")

/-! ## Orders -/

inductive PrivateOrderStatus where
  | resting
  | canceled
  | executed
  deriving DecidableEq

def readStatus (fields : Fields) : Reader PrivateOrderStatus := do
  let status ← readText fields "status"
  if status = "resting" then .ok .resting
  else if status = "canceled" then .ok .canceled
  else if status = "executed" then .ok .executed
  else .error "invalid order status"

structure OrderTerms where
  status : PrivateOrderStatus
  outcomeSide : MarketSide
  bookSide : BookSide
  yesPrice : DecimalValue
  fillCount : DecimalValue
  remainingCount : DecimalValue
  initialCount : DecimalValue
  takerFillCost : DecimalValue
  makerFillCost : DecimalValue
  takerFees : DecimalValue
  makerFees : DecimalValue

def OrderTerms.fromPayload (ops : TextOps) (payload : Fields) : Reader OrderTerms := do
  let (outcome, book) ← readDirection payload
  let legacySide ← readSideOf payload "side"
  if legacySide ≠ outcome then .error "legacy order direction conflicts with canonical direction"
  else
    let isYes ← readBoolean payload "is_yes"
    if isYes ≠ decide (outcome = .yes) then .error "legacy order direction conflicts with canonical direction"
    else
      let status ← readStatus payload
      let yesPrice ← readFixed ops payload "yes_price_dollars" dollarPlaces
      let fillCount ← readFixed ops payload "fill_count_fp" countPlaces
      let remainingCount ← readFixed ops payload "remaining_count_fp" countPlaces
      let initialCount ← readFixed ops payload "initial_count_fp" countPlaces
      let takerFillCost ← readFixed ops payload "taker_fill_cost_dollars" dollarPlaces
      let makerFillCost ← readFixed ops payload "maker_fill_cost_dollars" dollarPlaces
      let takerFees ← readFixed ops payload "taker_fees_dollars" dollarPlaces
      let makerFees ← readFixed ops payload "maker_fees_dollars" dollarPlaces
      if ¬ (0 ≤ yesPrice.coefficient ∧ yesPrice.atMostOne) then .error "yes_price_dollars must be between 0 and 1"
      else if [fillCount, remainingCount, initialCount, takerFillCost, makerFillCost, takerFees, makerFees].any (·.coefficient < 0) then
        .error "order counts, costs, and fees cannot be negative"
      else .ok ⟨status, outcome, book, yesPrice, fillCount, remainingCount, initialCount, takerFillCost, makerFillCost, takerFees, makerFees⟩

/-- What an order says of its identity, read after its timestamps. -/
structure OrderIdentity where
  orderId : String
  userId : String
  ticker : String
  clientOrderId : String
  orderGroupId : Option String
  subaccountNumber : Option ℤ

def OrderIdentity.fromPayload (ops : TextOps) (payload : Fields) : Reader OrderIdentity := do
  let orderId ← readUuid ops payload "order_id"
  let userId ← readUuid ops payload "user_id"
  let ticker ← readTicker payload "ticker"
  let clientOrderId ← readText payload "client_order_id"
  let orderGroupId ← readOptionalText payload "order_group_id"
  let subaccountNumber ← readOptionalSubaccount payload "subaccount_number"
  .ok ⟨orderId, userId, ticker, clientOrderId, orderGroupId, subaccountNumber⟩

structure KalshiPrivateOrder extends OrderTerms, OrderIdentity where
  created : Option String × Option ℤ
  lastUpdate : Option String × Option ℤ
  expiration : Option String × Option ℤ

def KalshiPrivateOrder.fromPayload (ops : TextOps) (payload : Fields) : PrivateReader KalshiPrivateOrder := do
  let terms ← strict (OrderTerms.fromPayload ops payload)
  let created ← timestampPair payload "created_time" "created_ts_ms" true
  let lastUpdate ← timestampPair payload "last_update_time" "last_updated_ts_ms" false
  let expiration ← timestampPair payload "expiration_time" "expiration_ts_ms" false
  let identity ← strict (OrderIdentity.fromPayload ops payload)
  .ok { terms, identity with created, lastUpdate, expiration }

/-! ## Fills and positions -/

structure KalshiPrivateFill where
  tradeId : String
  orderId : String
  marketTicker : String
  isTaker : Bool
  outcomeSide : MarketSide
  bookSide : BookSide
  yesPrice : DecimalValue
  count : DecimalValue
  feeCost : DecimalValue
  timestampMs : ℤ
  postPosition : DecimalValue
  clientOrderId : Option String
  subaccount : Option ℤ

def MarketSide.other : MarketSide → MarketSide
  | .yes => .no
  | .no => .yes

def readExpectedSide (payload : Fields) : Reader MarketSide := do
  let side ← readSideOf payload "side"
  let action ← readText payload "action"
  if action = "buy" then .ok side else if action = "sell" then .ok side.other else .error "action must be 'buy' or 'sell'"

def KalshiPrivateFill.fromPayload (ops : TextOps) (payload : Fields) : Reader KalshiPrivateFill := do
  let (outcome, book) ← readDirection payload
  let expected ← readExpectedSide payload
  if outcome ≠ expected then .error "legacy fill direction conflicts with canonical direction"
  else
    let purchased ← readSideOf payload "purchased_side"
    if purchased ≠ outcome then .error "legacy fill direction conflicts with canonical direction"
    else
      let timestampSeconds ← readInteger "ts" 1 int64Max (Dict.find "ts" payload)
      let timestampMs ← readInteger "ts_ms" 1 int64Max (Dict.find "ts_ms" payload)
      if timestampMs / 1000 ≠ timestampSeconds then .error "ts and ts_ms are inconsistent"
      else
        let yesPrice ← readFixed ops payload "yes_price_dollars" dollarPlaces
        let count ← readFixed ops payload "count_fp" countPlaces
        let fee ← readFixed ops payload "fee_cost" dollarPlaces
        let postPosition ← readFixed ops payload "post_position_fp" countPlaces
        if ¬ (0 ≤ yesPrice.coefficient ∧ yesPrice.atMostOne) ∨ count.coefficient ≤ 0 ∨ fee.coefficient < 0 then
          .error "invalid fill price, count, or fee"
        else
          let tradeId ← readUuid ops payload "trade_id"
          let orderId ← readUuid ops payload "order_id"
          let marketTicker ← readTicker payload "market_ticker"
          let isTaker ← readBoolean payload "is_taker"
          let clientOrderId ← readOptionalText payload "client_order_id"
          let subaccount ← readOptionalSubaccount payload "subaccount"
          .ok ⟨tradeId, orderId, marketTicker, isTaker, outcome, book, yesPrice, count, fee, timestampMs, postPosition, clientOrderId, subaccount⟩

structure KalshiPrivateMarketPosition where
  userId : String
  marketTicker : String
  position : DecimalValue
  positionCost : DecimalValue
  realizedPnl : DecimalValue
  feesPaid : DecimalValue
  positionFeeCost : DecimalValue
  volume : DecimalValue
  subaccount : Option ℤ

def KalshiPrivateMarketPosition.fromPayload (ops : TextOps) (payload : Fields) : Reader KalshiPrivateMarketPosition := do
  let position ← readFixed ops payload "position_fp" countPlaces
  let positionCost ← readFixed ops payload "position_cost_dollars" dollarPlaces
  let realizedPnl ← readFixed ops payload "realized_pnl_dollars" dollarPlaces
  let fees ← readFixed ops payload "fees_paid_dollars" dollarPlaces
  let positionFee ← readFixed ops payload "position_fee_cost_dollars" dollarPlaces
  let volume ← readFixed ops payload "volume_fp" countPlaces
  if fees.coefficient < 0 ∨ positionFee.coefficient < 0 ∨ volume.coefficient < 0 then .error "position fees and volume cannot be negative"
  else
    let userId ← readText payload "user_id"
    let marketTicker ← readTicker payload "market_ticker"
    let subaccount ← readOptionalSubaccount payload "subaccount"
    .ok ⟨userId, marketTicker, position, positionCost, realizedPnl, fees, positionFee, volume, subaccount⟩

inductive PrivatePayload where
  | order (order : KalshiPrivateOrder)
  | fill (fill : KalshiPrivateFill)
  | marketPosition (position : KalshiPrivateMarketPosition)

/-- `getattr(payload, "user_id", None)` -/
def PrivatePayload.userId : PrivatePayload → Option String
  | .order placed => some placed.userId
  | .fill _ => none
  | .marketPosition held => some held.userId

/-! ## When an order overflows -/

/-- A timestamp pair whose milliseconds are read and whose text is an instant that no `datetime` holds. -/
def PairOverflows (fields : Fields) (textField msField : String) : Prop :=
  (∃ ms, readInteger msField 1 int64Max (Dict.find msField fields) = .ok ms) ∧
    ∃ text, Dict.find textField fields = some (.str text) ∧ strip text ≠ "" ∧
      ∃ micros, Dates.rfc3339Micros text = some micros ∧ ¬ (Dates.minMicros ≤ micros ∧ micros ≤ Dates.maxMicros)

def PairReads (fields : Fields) (textField msField : String) (required : Bool) : Prop :=
  ∃ pair, timestampPair fields textField msField required = .ok pair

/-- The first timestamp of an order that is not read, behind terms that are, is one that overflows. -/
def OrderOverflows (ops : TextOps) (payload : Fields) : Prop :=
  (∃ terms, OrderTerms.fromPayload ops payload = .ok terms) ∧
    (PairOverflows payload "created_time" "created_ts_ms" ∨
      PairReads payload "created_time" "created_ts_ms" true ∧
        (PairOverflows payload "last_update_time" "last_updated_ts_ms" ∨
          PairReads payload "last_update_time" "last_updated_ts_ms" false ∧ PairOverflows payload "expiration_time" "expiration_ts_ms"))

theorem strict_ne_overflow {α : Type} (reader : Reader α) : strict reader ≠ .error .overflow := by
  cases reader <;> nofun

theorem bind_overflow {α β : Type} (first : PrivateReader α) (next : α → PrivateReader β) :
    (first >>= next) = .error .overflow ↔ first = .error .overflow ∨ ∃ value, first = .ok value ∧ next value = .error .overflow := by
  cases first with
  | ok value =>
    constructor
    · intro later
      exact .inr ⟨value, rfl, later⟩
    · rintro (early | ⟨_, same, later⟩)
      · exact nomatch early
      · exact Except.ok.inj same ▸ later
  | error error =>
    constructor
    · intro early
      exact .inl (congrArg Except.error (Except.error.inj early))
    · rintro (early | ⟨_, same, -⟩)
      · exact congrArg Except.error (Except.error.inj early)
      · exact nomatch same

theorem strict_ok {α : Type} {reader : Reader α} {value : α} : strict reader = .ok value ↔ reader = .ok value := by
  cases reader with
  | ok other => exact ⟨fun same => congrArg Except.ok (Except.ok.inj same), fun same => congrArg Except.ok (Except.ok.inj same)⟩
  | error text => exact ⟨nofun, nofun⟩

theorem rfc3339Ms_overflow {text field : String} : rfc3339Ms text field = .error .overflow ↔
    ∃ micros, Dates.rfc3339Micros text = some micros ∧ ¬ (Dates.minMicros ≤ micros ∧ micros ≤ Dates.maxMicros) := by
  unfold rfc3339Ms
  cases Dates.rfc3339Micros text with
  | none => exact ⟨nofun, nofun⟩
  | some micros =>
    simp only [Option.some.injEq, exists_eq_left']
    split
    · next held => exact ⟨nofun, fun out => absurd held out⟩
    · next out => exact ⟨fun _ => out, fun _ => rfl⟩

theorem timestampPair_silent {fields : Fields} {textField msField : String} {required : Bool}
    (silent : ∀ text, Dict.find textField fields ≠ some (.str text)) : timestampPair fields textField msField required ≠ .error .overflow := by
  unfold timestampPair
  intro overflows
  simp only at overflows
  split at overflows
  · cases overflows
  · rw [bind_overflow] at overflows
    cases overflows with
    | inl early => exact strict_ne_overflow _ early
    | inr late =>
      obtain ⟨ms, -, later⟩ := late
      split at later <;> cases later

theorem timestampPair_overflow {fields : Fields} {textField msField : String} {required : Bool} :
    timestampPair fields textField msField required = .error .overflow ↔ PairOverflows fields textField msField := by
  by_cases spoken : ∃ text, Dict.find textField fields = some (.str text)
  · obtain ⟨text, found⟩ := spoken
    unfold timestampPair PairOverflows
    simp only [found, isNull, Bool.false_eq_true, false_and, if_false, bind_overflow, strict_ok, strict_ne_overflow, false_or,
      Option.some.injEq, Json.str.injEq, exists_eq_left']
    constructor
    · rintro ⟨ms, read, later⟩
      split at later
      · cases later
      · next visible =>
        rw [bind_overflow] at later
        cases later with
        | inl overflows => exact ⟨⟨ms, read⟩, visible, rfc3339Ms_overflow.mp overflows⟩
        | inr other =>
          obtain ⟨_, -, other⟩ := other
          split at other <;> cases other
    · rintro ⟨⟨ms, read⟩, visible, out⟩
      refine ⟨ms, read, ?_⟩
      rw [if_neg visible, bind_overflow]
      exact .inl (rfc3339Ms_overflow.mpr out)
  · have silent : ∀ text, Dict.find textField fields ≠ some (.str text) := fun text found => spoken ⟨text, found⟩
    constructor
    · intro overflows
      exact absurd overflows (timestampPair_silent silent)
    · rintro ⟨_, text, found, _⟩
      exact absurd found (silent text)

theorem order_overflow {ops : TextOps} {payload : Fields} :
    KalshiPrivateOrder.fromPayload ops payload = .error .overflow ↔ OrderOverflows ops payload := by
  have last (terms : OrderTerms) (created lastUpdate expiration : Option String × Option ℤ) :
      (strict (OrderIdentity.fromPayload ops payload) >>= fun identity : OrderIdentity =>
        (.ok { terms, identity with created, lastUpdate, expiration } : PrivateReader KalshiPrivateOrder)) ≠ .error .overflow := by
    intro overflows
    rw [bind_overflow] at overflows
    rcases overflows with early | ⟨_, -, later⟩
    · exact strict_ne_overflow _ early
    · exact nomatch later
  unfold KalshiPrivateOrder.fromPayload OrderOverflows PairReads
  simp only [bind_overflow, strict_ok, strict_ne_overflow, timestampPair_overflow, false_or]
  constructor
  · rintro ⟨terms, termsRead, first | ⟨created, createdRead, second | ⟨updated, updatedRead, third | ⟨_, -, identity, -, later⟩⟩⟩⟩
    · exact ⟨⟨terms, termsRead⟩, .inl first⟩
    · exact ⟨⟨terms, termsRead⟩, .inr ⟨⟨created, createdRead⟩, .inl second⟩⟩
    · exact ⟨⟨terms, termsRead⟩, .inr ⟨⟨created, createdRead⟩, .inr ⟨⟨updated, updatedRead⟩, third⟩⟩⟩
    · exact nomatch later
  · rintro ⟨⟨terms, termsRead⟩, first | ⟨⟨created, createdRead⟩, second | ⟨⟨updated, updatedRead⟩, third⟩⟩⟩
    · exact ⟨terms, termsRead, .inl first⟩
    · exact ⟨terms, termsRead, .inr ⟨created, createdRead, .inl second⟩⟩
    · exact ⟨terms, termsRead, .inr ⟨created, createdRead, .inr ⟨updated, updatedRead, .inl third⟩⟩⟩

end Callisto.Ws
