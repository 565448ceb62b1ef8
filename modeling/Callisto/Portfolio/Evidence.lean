import Callisto.Venues.Kalshi
import Mathlib.Data.List.MinMax
import Mathlib.Data.String.Basic

/-! The modeled evidence of a portfolio sweep: payloads, their hashes, and the deduplication of what the traversals return. -/

namespace Callisto.Portfolio

open Callisto.Library Callisto.Venues
open Callisto.Execution (BookSide)

/-- The exceptions of a coverage sweep that a caller tells apart. -/
inductive CoverageError where
  | conflict (text : String)
  | lease (text : String)
  | valueError (text : String)
  | readFailed
  deriving DecidableEq

abbrev Coverage := Except CoverageError

/-- `_order_payload` -/
structure OrderPayload where
  orderId : String
  providerUserHash : String
  clientOrderId : String
  ticker : String
  outcomeSide : OutcomeSide
  bookSide : BookSide
  orderType : Venues.OrderType
  status : OrderStatus
  yesPrice : KalshiDecimal
  noPrice : KalshiDecimal
  fillCount : KalshiDecimal
  remainingCount : KalshiDecimal
  initialCount : KalshiDecimal
  takerFees : KalshiDecimal
  makerFees : KalshiDecimal
  takerFillCost : KalshiDecimal
  makerFillCost : KalshiDecimal
  createdTime : Option String
  lastUpdateTime : Option String
  expirationTime : Option String
  subaccountNumber : Option ℤ
  exchangeIndex : Option ℤ
  deriving DecidableEq

/-- The fields of `_ORDER_IMMUTABLE_FIELDS`. -/
structure OrderIdentity where
  orderId : String
  providerUserHash : String
  clientOrderId : String
  ticker : String
  outcomeSide : OutcomeSide
  bookSide : BookSide
  orderType : Venues.OrderType
  yesPrice : KalshiDecimal
  noPrice : KalshiDecimal
  initialCount : KalshiDecimal
  createdTime : Option String
  expirationTime : Option String
  subaccountNumber : Option ℤ
  exchangeIndex : Option ℤ
  deriving DecidableEq

/-- `_fill_payload`: every field of the fill. -/
abbrev FillPayload := KalshiFill

inductive Hashed where
  | order (payload : OrderPayload)
  | identity (payload : OrderIdentity)
  | fill (payload : FillPayload)
  | selection (orders fills : List (String × String))

/-- SHA-256 of a user id and of canonical JSON, as hexadecimal texts. -/
structure Sha256 where
  user : String → String
  evidence : Hashed → String

variable (sha : Sha256)

def orderPayload (order : KalshiOrder) : OrderPayload where
  orderId := order.orderId
  providerUserHash := sha.user order.userId
  clientOrderId := order.clientOrderId
  ticker := order.ticker
  outcomeSide := order.outcomeSide
  bookSide := order.bookSide
  orderType := order.orderType
  status := order.status
  yesPrice := order.yesPrice
  noPrice := order.noPrice
  fillCount := order.fillCount
  remainingCount := order.remainingCount
  initialCount := order.initialCount
  takerFees := order.takerFees
  makerFees := order.makerFees
  takerFillCost := order.takerFillCost
  makerFillCost := order.makerFillCost
  createdTime := order.createdTime
  lastUpdateTime := order.lastUpdateTime
  expirationTime := order.expirationTime
  subaccountNumber := order.subaccountNumber
  exchangeIndex := order.exchangeIndex

def orderIdentity (payload : OrderPayload) : OrderIdentity where
  orderId := payload.orderId
  providerUserHash := payload.providerUserHash
  clientOrderId := payload.clientOrderId
  ticker := payload.ticker
  outcomeSide := payload.outcomeSide
  bookSide := payload.bookSide
  orderType := payload.orderType
  yesPrice := payload.yesPrice
  noPrice := payload.noPrice
  initialCount := payload.initialCount
  createdTime := payload.createdTime
  expirationTime := payload.expirationTime
  subaccountNumber := payload.subaccountNumber
  exchangeIndex := payload.exchangeIndex

def orderHash (order : KalshiOrder) : String := sha.evidence (.order (orderPayload sha order))

def identityHash (order : KalshiOrder) : String := sha.evidence (.identity (orderIdentity (orderPayload sha order)))

def fillHash (fill : KalshiFill) : String := sha.evidence (.fill fill)

/-- `_provider_datetime` -/
def providerDatetime (value : Option String) (fieldName : String) : Coverage ℤ :=
  match value with
  | none => .error (.conflict s!"Kalshi {fieldName} is required for durable evidence")
  | some text =>
    match readInstant text with
    | .ok instant => .ok instant
    | .error _ => .error (.conflict s!"Kalshi {fieldName} must be database-exact RFC3339")

def orderUpdatedAt (order : KalshiOrder) : Coverage ℤ := providerDatetime order.updateTime "order update time"

def fillCreatedAt (fill : KalshiFill) : Coverage ℤ :=
  match fill.createdTime with
  | some text => providerDatetime (some text) "fill created_time"
  | none =>
    match fill.ts with
    | some seconds =>
      if seconds < 0 then .error (.conflict "Kalshi fill requires created_time or non-negative ts")
      else .ok (1000000 * (seconds + 62135596800))
    | none => .error (.conflict "Kalshi fill requires created_time or non-negative ts")

/-- `sorted(set(texts))` -/
def sortedSet (texts : List String) : List String := texts.dedup.insertionSort (· ≤ ·)

def groupOf {α : Type} (key : α → String) (name : String) (records : List α) : List α := records.filter fun record => key record = name

def Conflicting (snapshots : List KalshiOrder) : Prop :=
  ∃ first ∈ snapshots, ∃ second ∈ snapshots, orderIdentity (orderPayload sha first) ≠ orderIdentity (orderPayload sha second)

def TimeConflicting (timed : List (KalshiOrder × ℤ)) : Prop :=
  ∃ first ∈ timed, ∃ second ∈ timed, first.2 = second.2 ∧ orderHash sha first.1 ≠ orderHash sha second.1

instance (snapshots : List KalshiOrder) : Decidable (Conflicting sha snapshots) :=
  inferInstanceAs (Decidable (∃ first ∈ snapshots, ∃ second ∈ snapshots, _ ≠ _))

instance (timed : List (KalshiOrder × ℤ)) : Decidable (TimeConflicting sha timed) :=
  inferInstanceAs (Decidable (∃ first ∈ timed, ∃ second ∈ timed, _ ∧ _))

def withTime (snapshot : KalshiOrder) : Coverage (KalshiOrder × ℤ) := do
  let updatedAt ← orderUpdatedAt snapshot
  .ok (snapshot, updatedAt)

def latest (timed : List (KalshiOrder × ℤ)) : List KalshiOrder :=
  (timed.filter fun entry => (timed.map Prod.snd).max? = some entry.2).map Prod.fst

/-- The snapshot of an order id that is kept, and what its snapshots contradict each other in. -/
def selectOrder (orderId : String) (snapshots : List KalshiOrder) : Coverage (Option KalshiOrder × List String) :=
  if Conflicting sha snapshots then .ok (snapshots.argmin (orderHash sha), [s!"order_identity_conflict:{orderId}"])
  else do
    let timed ← snapshots.mapM withTime
    .ok ((latest timed).argmin (orderHash sha),
      if TimeConflicting sha timed then [s!"equal_timestamp_order_conflict:{orderId}"] else [])

abbrev ById (α : Type) := List (String × α)

def keepOrder (records : List KalshiOrder) (orderId : String) : Coverage (ById KalshiOrder × List String) := do
  let (order, conflicts) ← selectOrder sha orderId (groupOf KalshiOrder.orderId orderId records)
  .ok (order.toList.map fun order => (orderId, order), conflicts)

/-- `_dedupe_orders` -/
def dedupeOrders (records : List KalshiOrder) : Coverage (ById KalshiOrder × List String) := do
  let selected ← (sortedSet (records.map KalshiOrder.orderId)).mapM (keepOrder sha records)
  .ok (selected.flatMap Prod.fst, selected.flatMap Prod.snd)

def keepFill (records : List KalshiFill) (fillId : String) : Coverage (ById KalshiFill) :=
  let evidence := groupOf KalshiFill.fillId fillId records
  if ∃ first ∈ evidence, ∃ second ∈ evidence, first ≠ second then
    .error (.conflict s!"fill_id '{fillId}' returned divergent evidence")
  else .ok (evidence.getLast?.toList.map fun fill => (fillId, fill))

/-- `_dedupe_fills` -/
def dedupeFills (records : List KalshiFill) : Coverage (ById KalshiFill) := do
  let selected ← (sortedSet (records.map KalshiFill.fillId)).mapM (keepFill records)
  .ok selected.flatten

/-- `_merge_fills` -/
def mergeFills (current historical : ById KalshiFill) : Coverage (ById KalshiFill) :=
  dedupeFills (current.map Prod.snd ++ historical.map Prod.snd)

end Callisto.Portfolio
