import Callisto.Library.Rounding
import Mathlib.Data.List.Sort

/-! The simulated immediate-or-cancel fill of a paper order against a displayed book. Prices are
millionths of a dollar, quantities hundredths of a contract, and notionals their products. -/

namespace Callisto.Paper

open Callisto.Library

inductive Outcome where
  | yes
  | no
  deriving DecidableEq, Repr

def Outcome.other : Outcome → Outcome
  | .yes => .no
  | .no => .yes

def priceUnits : ℤ := 1000000

abbrev Instant := ℤ

structure PaperBookLevel where
  price : ℤ
  quantity : ℤ
  deriving DecidableEq

structure PaperPriceRange where
  start : ℤ
  stop : ℤ
  step : ℤ
  step_pos : 0 < step
  deriving DecidableEq

structure PaperBook where
  ticker : String
  yesBids : List PaperBookLevel
  noBids : List PaperBookLevel
  sourceOrigin : String
  observedAt : Instant
  fetchedAt : Instant
  evidenceHash : String
  deriving DecidableEq

def PaperBook.bids (book : PaperBook) : Outcome → List PaperBookLevel
  | .yes => book.yesBids
  | .no => book.noBids

structure PaperMarket where
  ticker : String
  eventTicker : String
  priceRanges : List PaperPriceRange
  feeRuleVersion : String
  feeWaiverExpiration : Instant
  observedAt : Instant
  fetchedAt : Instant
  evidenceHash : String
  deriving DecidableEq

structure PaperQuote where
  market : PaperMarket
  book : PaperBook
  deriving DecidableEq

/-- The text of a `KalshiPaperProtocolError`. -/
abbrev ProtocolError := String

def priceIsOnTick (price : ℤ) (ranges : List PaperPriceRange) : Bool :=
  ranges.any fun range =>
    decide (range.start ≤ price) && decide (price ≤ range.stop) && decide ((price - range.start) % range.step = 0)

structure Price where
  units : ℤ
  positive : 0 < units
  below : units < priceUnits
  deriving DecidableEq

structure DepthLevel where
  price : Price
  quantity : ℤ
  positive : 0 < quantity

def readLevel (ranges : List PaperPriceRange) (level : PaperBookLevel) : Except ProtocolError DepthLevel :=
  if priced : 0 < level.price ∧ level.price < priceUnits then
    if priceIsOnTick level.price ranges then
      if sized : 0 < level.quantity then .ok ⟨⟨level.price, priced.1, priced.2⟩, level.quantity, sized⟩
      else .error "book quantity must be greater than 0"
    else .error "book price is not valid for the market price ranges"
  else .error "book price must be greater than 0 and less than 1"

/-- `sorted(levels, reverse=True)` of the pairs of price and quantity. -/
def bestFirst (levels : List DepthLevel) : List DepthLevel :=
  levels.insertionSort fun first second => second.price.units < first.price.units ∨
    second.price.units = first.price.units ∧ second.quantity ≤ first.quantity

structure PaperFill where
  sequence : ℕ
  quantity : ℤ
  price : ℤ
  notional : ℤ
  sourceBidPrice : ℤ
  sourceSide : Outcome
  deriving DecidableEq

/-- The walk over the levels so far: fills at accepted prices, and what is left of the request. -/
structure Walk (requested : ℤ) (accepts : ℤ → Prop) where
  remaining : ℤ
  notional : ℤ
  fills : List PaperFill
  remaining_nonneg : 0 ≤ remaining
  filled : (fills.map PaperFill.quantity).sum + remaining = requested
  notional_sum : notional = (fills.map PaperFill.notional).sum
  priced : ∀ fill ∈ fills, 0 < fill.quantity ∧ 0 < fill.price ∧ fill.price < priceUnits ∧ accepts fill.price ∧
    fill.notional = fill.price * fill.quantity

namespace Walk

variable {requested : ℤ} {accepts : ℤ → Prop}

def start (positive : 0 < requested) : Walk requested accepts where
  remaining := requested
  notional := 0
  fills := []
  remaining_nonneg := positive.le
  filled := by simp
  notional_sum := rfl
  priced := by simp

def take (walk : Walk requested accepts) (source price : Price) (side : Outcome) (units : ℤ)
    (accepted : accepts price.units) (positive : 0 < units) (left : units ≤ walk.remaining) :
    Walk requested accepts where
  remaining := walk.remaining - units
  notional := walk.notional + price.units * units
  fills := walk.fills ++ [⟨walk.fills.length + 1, units, price.units, price.units * units, source.units, side⟩]
  remaining_nonneg := by omega
  filled := by
    have before := walk.filled
    simp only [List.map_append, List.map_cons, List.map_nil, List.sum_append, List.sum_cons, List.sum_nil]
    omega
  notional_sum := by simp [walk.notional_sum]
  priced := by
    intro fill member
    rcases List.mem_append.1 member with old | new
    · exact walk.priced fill old
    · rw [List.mem_singleton.1 new]
      exact ⟨positive, price.positive, price.below, accepted, rfl⟩

theorem filled_nonneg (walk : Walk requested accepts) : 0 ≤ requested - walk.remaining := by
  have sum : 0 ≤ (walk.fills.map PaperFill.quantity).sum := by
    apply List.sum_nonneg
    intro quantity member
    obtain ⟨fill, filled, rfl⟩ := List.mem_map.1 member
    exact (walk.priced fill filled).1.le
  have total := walk.filled
  omega

theorem notional_nonneg (walk : Walk requested accepts) : 0 ≤ walk.notional := by
  rw [walk.notional_sum]
  apply List.sum_nonneg
  intro notional member
  obtain ⟨fill, filled, rfl⟩ := List.mem_map.1 member
  obtain ⟨quantity, price, -, -, product⟩ := walk.priced fill filled
  rw [product]
  exact (Int.mul_pos price quantity).le

end Walk

/-- The loop over the levels, best first. A level whose execution price is not accepted is skipped. -/
def walkDepth {requested : ℤ} {accepts : ℤ → Prop} [DecidablePred accepts]
    (executionPrice : Price → Except ProtocolError Price) (side : Outcome) :
    List DepthLevel → Walk requested accepts → Except ProtocolError (Walk requested accepts)
  | [], walk => .ok walk
  | level :: rest, walk => do
    let price ← executionPrice level.price
    if accepted : accepts price.units then
      if positive : 0 < min walk.remaining level.quantity then
        let next := walk.take level.price price side (min walk.remaining level.quantity) accepted positive
          (min_le_left _ _)
        if next.remaining = 0 then .ok next else walkDepth executionPrice side rest next
      else walkDepth executionPrice side rest walk
    else walkDepth executionPrice side rest walk

inductive FillStatus where
  | filled
  | partlyFilled
  | noFill
  deriving DecidableEq, Repr

/-- What a simulated fill returns. The fee is in units of `10 ^ -18` dollars. -/
structure PaperFillResult where
  status : FillStatus
  reason : String
  requestedQuantity : ℤ
  filledQuantity : ℤ
  remainingQuantity : ℤ
  averageFillPrice : Option ℤ
  notional : ℤ
  fee : ℤ
  fills : List PaperFill
  formulaVersion : String
  filled_nonneg : 0 ≤ filledQuantity
  remaining_nonneg : 0 ≤ remainingQuantity
  conserved : filledQuantity + remainingQuantity = requestedQuantity
  notional_nonneg : 0 ≤ notional
  fee_waived : fee = 0

/-- The reasons of a kind of order, for no depth, no crossing depth, a full and a partial fill. -/
structure FillReasons where
  empty : String
  uncrossed : String
  filled : String
  partlyFilled : String

/-- The mean price in units of `10 ^ -18` dollars, ties to even. -/
def averageFillPrice (notional filled : ℤ) : Option ℤ :=
  if filled = 0 then none else some (Rounding.halfEven (notional * 10 ^ 12).toNat filled.toNat)

def Walk.result {requested : ℤ} {accepts : ℤ → Prop} (walk : Walk requested accepts) (levels : List DepthLevel)
    (reasons : FillReasons) (formulaVersion : String) : PaperFillResult where
  status := if requested - walk.remaining = 0 then .noFill else if walk.remaining = 0 then .filled else .partlyFilled
  reason :=
    if requested - walk.remaining = 0 then (if levels.isEmpty then reasons.empty else reasons.uncrossed)
    else if walk.remaining = 0 then reasons.filled else reasons.partlyFilled
  requestedQuantity := requested
  filledQuantity := requested - walk.remaining
  remainingQuantity := walk.remaining
  averageFillPrice := averageFillPrice walk.notional (requested - walk.remaining)
  notional := walk.notional
  fee := 0
  fills := walk.fills
  formulaVersion := formulaVersion
  filled_nonneg := walk.filled_nonneg
  remaining_nonneg := walk.remaining_nonneg
  conserved := by omega
  notional_nonneg := walk.notional_nonneg
  fee_waived := rfl

/-- The simulation that both sides share: the checks of the request, the levels, and the walk over them. -/
def simulateIoc (limitField : String) (reasons : FillReasons) (formulaVersion : String) (accepts : ℤ → ℤ → Prop)
    [∀ limit, DecidablePred (accepts limit)] (executionPrice : Price → Except ProtocolError Price) (side : Outcome)
    (levels : List PaperBookLevel) (quantity limit : ℤ) (ranges : List PaperPriceRange) :
    Except ProtocolError PaperFillResult :=
  if positive : 0 < quantity then
    if limit ≤ 0 ∨ priceUnits ≤ limit then .error s!"{limitField} must be greater than 0 and less than 1"
    else if ¬ priceIsOnTick limit ranges then .error s!"{limitField} is not valid for the market price ranges"
    else do
      let validated ← levels.mapM (readLevel ranges)
      let walk ← walkDepth executionPrice side (bestFirst validated)
        (Walk.start positive : Walk quantity (accepts limit))
      .ok (walk.result validated reasons formulaVersion)
  else .error "quantity must be greater than 0"

def buyReasons : FillReasons :=
  ⟨"displayed_depth_empty", "limit_does_not_cross_displayed_depth", "displayed_depth_filled_ioc",
    "displayed_depth_partially_filled_ioc"⟩

def sellReasons : FillReasons :=
  ⟨"displayed_owned_depth_empty", "minimum_does_not_cross_owned_depth", "displayed_owned_depth_filled_ioc",
    "displayed_owned_depth_partially_filled_ioc"⟩

/-- A buyer of one outcome meets a bid for the other at the complement of its price. -/
def complementPrice (ranges : List PaperPriceRange) (source : Price) : Except ProtocolError Price :=
  if priceIsOnTick (priceUnits - source.units) ranges then
    .ok ⟨priceUnits - source.units, by have := source.below; omega, by have := source.positive; omega⟩
  else .error "complementary execution price is not valid for the market price ranges"

def simulateBuyIoc (book : PaperBook) (outcome : Outcome) (quantity limitPrice : ℤ)
    (ranges : List PaperPriceRange) : Except ProtocolError PaperFillResult :=
  simulateIoc "limit_price" buyReasons "kalshi-complementary-depth-ioc-v1" (fun limit price => price ≤ limit)
    (complementPrice ranges) outcome.other (book.bids outcome.other) quantity limitPrice ranges

def simulateSellIoc (book : PaperBook) (outcome : Outcome) (quantity minimumPrice : ℤ)
    (ranges : List PaperPriceRange) : Except ProtocolError PaperFillResult :=
  simulateIoc "minimum_price" sellReasons "kalshi-owned-depth-sell-ioc-v1" (fun minimum price => minimum ≤ price)
    .ok outcome (book.bids outcome) quantity minimumPrice ranges

end Callisto.Paper
