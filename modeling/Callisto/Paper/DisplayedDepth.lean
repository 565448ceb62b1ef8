import Callisto.Library.DecimalNumbers
import Callisto.Paper.Execution

/-! The simulated fills on the decimal numbers of a book and of a request, with the exact conversions of the source. -/

namespace Callisto.Paper.Displayed

open Callisto.Library

def priceScale : ℕ := 6

def quantityScale : ℕ := 2

structure BookLevel where
  price : Decimal
  quantity : Decimal
  deriving DecidableEq

structure PriceRange where
  start : Decimal
  stop : Decimal
  step : Decimal

structure Book where
  yesBids : List BookLevel
  noBids : List BookLevel

def Book.bids (book : Book) : Outcome → List BookLevel
  | .yes => book.yesBids
  | .no => book.noBids

/-- `_to_scaled_int` -/
def toScaledInt (value : Decimal) (scale : ℕ) (field : String) : Except ProtocolError ℤ :=
  match value.scaled scale with
  | some units => .ok units
  | none => .error s!"{field} has more than {scale} decimal places"

/-- `_price_is_on_tick`: the ranges behind the first one that admits the price are not read. -/
def priceIsOnTick (price : ℤ) : List PriceRange → Except ProtocolError Bool
  | [] => .ok false
  | range :: rest => do
    let start ← toScaledInt range.start priceScale "price range start"
    let stop ← toScaledInt range.stop priceScale "price range end"
    let step ← toScaledInt range.step priceScale "price range step"
    if start ≤ price ∧ price ≤ stop then
      if step = 0 then .error "integer modulo by zero"
      else if (price - start) % step = 0 then .ok true
      else priceIsOnTick price rest
    else priceIsOnTick price rest

def checkLevel (ranges : List PriceRange) (price quantity : ℤ) : Except ProtocolError DepthLevel :=
  if priced : 0 < price ∧ price < priceUnits then do
    let onTick ← priceIsOnTick price ranges
    if onTick then
      if sized : 0 < quantity then .ok ⟨⟨price, priced.1, priced.2⟩, quantity, sized⟩
      else .error "book quantity must be greater than 0"
    else .error "book price is not valid for the market price ranges"
  else .error "book price must be greater than 0 and less than 1"

def readLevel (ranges : List PriceRange) (level : BookLevel) : Except ProtocolError DepthLevel := do
  let price ← toScaledInt level.price priceScale "book price"
  let quantity ← toScaledInt level.quantity quantityScale "book quantity"
  checkLevel ranges price quantity

def fillFrom (reasons : FillReasons) (formulaVersion : String) (accepts : ℤ → Prop) [DecidablePred accepts]
    (executionPrice : Price → Except ProtocolError Price) (side : Outcome) (validated : List DepthLevel) (quantity : ℤ)
    (positive : 0 < quantity) : Except ProtocolError PaperFillResult := do
  let walk ← walkDepth executionPrice side (bestFirst validated) (Walk.start positive : Walk quantity accepts)
  .ok (walk.result validated reasons formulaVersion)

def simulateIoc (limitField : String) (reasons : FillReasons) (formulaVersion : String) (accepts : ℤ → ℤ → Prop)
    [∀ limit, DecidablePred (accepts limit)] (executionPrice : Price → Except ProtocolError Price) (side : Outcome)
    (levels : List BookLevel) (quantity limit : Decimal) (ranges : List PriceRange) : Except ProtocolError PaperFillResult := do
  let quantityUnits ← toScaledInt quantity quantityScale "quantity"
  if positive : 0 < quantityUnits then do
    let limitUnits ← toScaledInt limit priceScale limitField
    if limitUnits ≤ 0 ∨ priceUnits ≤ limitUnits then .error s!"{limitField} must be greater than 0 and less than 1"
    else do
      let onTick ← priceIsOnTick limitUnits ranges
      if onTick then do
        let validated ← levels.mapM (readLevel ranges)
        fillFrom reasons formulaVersion (accepts limitUnits) executionPrice side validated quantityUnits positive
      else .error s!"{limitField} is not valid for the market price ranges"
  else .error "quantity must be greater than 0"

theorem complement_pos (source : Price) : 0 < priceUnits - source.units := sub_pos.2 source.below

theorem complement_below (source : Price) : priceUnits - source.units < priceUnits := sub_lt_self _ source.positive

def complementPrice (ranges : List PriceRange) (source : Price) : Except ProtocolError Price := do
  let onTick ← priceIsOnTick (priceUnits - source.units) ranges
  if onTick then
    .ok ⟨priceUnits - source.units, complement_pos source, complement_below source⟩
  else .error "complementary execution price is not valid for the market price ranges"

def simulateBuyIoc (book : Book) (outcome : Outcome) (quantity limitPrice : Decimal) (ranges : List PriceRange) :
    Except ProtocolError PaperFillResult :=
  simulateIoc "limit_price" buyReasons "kalshi-complementary-depth-ioc-v1" (fun limit price => price ≤ limit)
    (complementPrice ranges) outcome.other (book.bids outcome.other) quantity limitPrice ranges

def simulateSellIoc (book : Book) (outcome : Outcome) (quantity minimumPrice : Decimal) (ranges : List PriceRange) :
    Except ProtocolError PaperFillResult :=
  simulateIoc "minimum_price" sellReasons "kalshi-owned-depth-sell-ioc-v1" (fun minimum price => minimum ≤ price)
    .ok outcome (book.bids outcome) quantity minimumPrice ranges

end Callisto.Paper.Displayed
