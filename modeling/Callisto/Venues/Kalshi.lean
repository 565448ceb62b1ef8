import Callisto.Execution.Records

/-! The read models of the venue: orders, fills, pages and the times they are dated with. -/

namespace Callisto.Venues

open Callisto.Library
open Callisto.Execution (BookSide)

/-- A finite `Decimal` of a read model, by its fixed-point text: a sign, the digits and how many of them are decimal places. -/
structure KalshiDecimal where
  negative : Bool := false
  digits : ℕ
  places : ℕ
  exact : places ≤ 6
  bounded : digits < 10 ^ 28
  deriving DecidableEq

def KalshiDecimal.zero : KalshiDecimal := ⟨false, 0, 0, by decide, by decide⟩

def KalshiDecimal.units (value : KalshiDecimal) : ℤ :=
  let magnitude : ℤ := value.digits * 10 ^ (6 - value.places)
  if value.negative then -magnitude else magnitude

inductive OutcomeSide where
  | yes
  | no
  deriving DecidableEq

inductive OrderType where
  | limit
  | market
  deriving DecidableEq

inductive OrderStatus where
  | resting
  | canceled
  | executed
  deriving DecidableEq

structure KalshiOrder where
  orderId : String
  userId : String
  clientOrderId : String
  ticker : String
  outcomeSide : OutcomeSide
  bookSide : BookSide
  orderType : OrderType
  status : OrderStatus
  yesPrice : KalshiDecimal
  noPrice : KalshiDecimal
  fillCount : KalshiDecimal
  remainingCount : KalshiDecimal
  initialCount : KalshiDecimal
  takerFees : KalshiDecimal
  makerFees : KalshiDecimal
  takerFillCost : KalshiDecimal
  makerFillCost : KalshiDecimal
  createdTime : Option String
  lastUpdateTime : Option String
  expirationTime : Option String
  subaccountNumber : Option ℤ
  exchangeIndex : Option ℤ
  deriving DecidableEq

structure KalshiFill where
  fillId : String
  tradeId : String
  orderId : String
  ticker : String
  marketTicker : String
  outcomeSide : OutcomeSide
  bookSide : BookSide
  count : KalshiDecimal
  yesPrice : KalshiDecimal
  noPrice : KalshiDecimal
  isTaker : Bool
  feeCost : KalshiDecimal
  createdTime : Option String
  subaccountNumber : Option ℤ
  ts : Option ℤ
  deriving DecidableEq

structure Page (α : Type) where
  records : List α
  cursor : String

/-- How a traversal fails: the client raises at a page, or a cursor comes back. -/
inductive TraversalError where
  | readFailed
  | cursorRepeated
  deriving DecidableEq

/-- `_traverse`, with the pages that the client serves: the records and the number of pages read. -/
def traverseFrom {α : Type} (seenCursors : List String) : List (Page α) → Except TraversalError (List α × ℕ)
  | [] => .error .readFailed
  | page :: rest =>
    if page.cursor = "" then .ok (page.records, 1)
    else if page.cursor ∈ seenCursors then .error .cursorRepeated
    else do
      let (records, pages) ← traverseFrom (page.cursor :: seenCursors) rest
      .ok (page.records ++ records, pages + 1)

def traverse {α : Type} (pages : List (Page α)) : Except TraversalError (List α × ℕ) := traverseFrom [] pages

inductive TimeError where
  | notRfc3339
  | tooPrecise
  deriving DecidableEq

def readDigits (text : List Char) : Option ℕ :=
  if text.all Char.isDigit then some (text.foldl (fun number char => 10 * number + (char.toNat - '0'.toNat)) 0) else none

def isLeapYear (year : ℕ) : Bool := year % 4 = 0 && (year % 100 ≠ 0 || year % 400 = 0)

def daysInMonth (year month : ℕ) : ℕ :=
  if month = 2 then (if isLeapYear year then 29 else 28) else if month ∈ [4, 6, 9, 11] then 30 else 31

def daysBefore (year month day : ℕ) : ℕ :=
  365 * (year - 1) + (year - 1) / 4 - (year - 1) / 100 + (year - 1) / 400 +
    ((List.range' 1 (month - 1)).map (daysInMonth year)).sum + (day - 1)

/-- The seconds of an offset `Z`, `+HH:MM` or `-HH:MM`. -/
def readOffset : List Char → Option ℤ
  | ['Z'] => some 0
  | [sign, h1, h2, ':', m1, m2] => do
    let hours ← readDigits [h1, h2]
    let minutes ← readDigits [m1, m2]
    if hours < 24 ∧ minutes < 60 then
      let seconds : ℤ := 3600 * hours + 60 * minutes
      if sign = '+' then some seconds else if sign = '-' then some (-seconds) else none
    else none
  | _ => none

def readSeconds : List Char → Option ℤ
  | [y1, y2, y3, y4, '-', o1, o2, '-', d1, d2, 'T', h1, h2, ':', m1, m2, ':', s1, s2] => do
    let year ← readDigits [y1, y2, y3, y4]
    let month ← readDigits [o1, o2]
    let day ← readDigits [d1, d2]
    let hour ← readDigits [h1, h2]
    let minute ← readDigits [m1, m2]
    let second ← readDigits [s1, s2]
    if 1 ≤ year ∧ 1 ≤ month ∧ month ≤ 12 ∧ 1 ≤ day ∧ day ≤ daysInMonth year month ∧ hour < 24 ∧ minute < 60 ∧ second < 60 then
      some (86400 * daysBefore year month day + 3600 * hour + 60 * minute + second)
    else none
  | _ => none

/-- The text has the shape, where a `0` of the shape is any digit. -/
def hasShape (shape : String) (text : List Char) : Bool :=
  text.length = shape.length && (shape.toList.zip text).all fun pair =>
    if pair.1 = '0' then pair.2.isDigit else pair.1 = pair.2

/-- The instant of an RFC 3339 text with at most six digits after the seconds, in microseconds. -/
def readInstant (text : String) : Except TimeError ℤ :=
  let chars := text.toList
  let rest := chars.drop 19
  let dotted := rest.head? = some '.'
  let fraction := if dotted then (rest.drop 1).takeWhile Char.isDigit else []
  let offset := if dotted then (rest.drop 1).dropWhile Char.isDigit else rest
  if !hasShape "0000-00-00T00:00:00" (chars.take 19) || (dotted && fraction.isEmpty) ||
      !(offset = ['Z'] || hasShape "+00:00" offset || hasShape "-00:00" offset) then .error .notRfc3339
  else if 6 < fraction.length then .error .tooPrecise
  else
    match readSeconds (chars.take 19), readDigits fraction, readOffset offset with
    | some seconds, some digits, some shift =>
      .ok (1000000 * (seconds - shift) + digits * 10 ^ (6 - fraction.length))
    | _, _, _ => .error .notRfc3339

/-- `last_update_time or created_time` -/
def KalshiOrder.updateTime (order : KalshiOrder) : Option String :=
  match order.lastUpdateTime with
  | some text => if text = "" then order.createdTime else some text
  | none => order.createdTime

end Callisto.Venues
