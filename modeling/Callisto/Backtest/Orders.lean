import Mathlib.Data.Rat.Defs
import Mathlib.Algebra.Order.Field.Rat

/-! Orders and fills of the backtest. Prices, sizes and dollars are exact rationals. -/

namespace Callisto.Backtest

abbrev Instant := ℤ

inductive Side where
  | buy
  | sell
  deriving DecidableEq, Repr

def Side.opposing : Side → Side
  | .buy => .sell
  | .sell => .buy

theorem Side.eq_opposing {side other : Side} (different : side ≠ other) : side = other.opposing := by
  cases side with
  | buy => cases other with
    | buy => exact absurd rfl different
    | sell => rfl
  | sell => cases other with
    | buy => rfl
    | sell => exact absurd rfl different

inductive Tif where
  | gtc
  | ioc
  | fak
  | fok
  | gtd
  deriving DecidableEq, Repr

inductive OrderState where
  | pending
  | working
  | partially
  | filled
  | cancelled
  | rejected
  deriving DecidableEq, Repr

/-- What the matching engine notes on a fill: the impact charged to a taker, or the maker flag with
the fill probability that capped a resting match. -/
structure FillNotes where
  impactBps : Option ℚ := none
  maker : Bool := false
  fillProbability : Option ℚ := none
  deriving DecidableEq

structure Fill where
  orderId : String
  tokenId : String
  side : Side
  price : ℚ
  size : ℚ
  feeUsd : ℚ
  occurredAt : Instant
  fillIndex : ℕ
  venueSequence : Option ℤ := none
  notes : FillNotes := {}
  deriving DecidableEq

def Fill.notionalUsd (fill : Fill) : ℚ := fill.price * fill.size

end Callisto.Backtest
