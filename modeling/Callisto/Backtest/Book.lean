import Callisto.Backtest.Orders
import Callisto.Library.Dict

/-! Book snapshots, what is left of one after the matches of an interval, and the place of an order in
the queue at its price. -/

namespace Callisto.Backtest

open Callisto.Library

def slack : ℚ := 1 / 10 ^ 12

structure PriceLevel where
  price : ℚ
  size : ℚ
  deriving DecidableEq

structure BookSnapshot where
  tokenId : String
  observedAt : Instant
  bids : List PriceLevel
  asks : List PriceLevel
  sequence : Option ℤ := none
  deriving DecidableEq

namespace BookSnapshot

def bestBid (snapshot : BookSnapshot) : Option ℚ := snapshot.bids.head?.map PriceLevel.price

def bestAsk (snapshot : BookSnapshot) : Option ℚ := snapshot.asks.head?.map PriceLevel.price

def mid (snapshot : BookSnapshot) : Option ℚ :=
  match snapshot.bestBid, snapshot.bestAsk with
  | some bid, some ask => some ((bid + ask) / 2)
  | _, _ => none

def opposite (snapshot : BookSnapshot) : Side → List PriceLevel
  | .sell => snapshot.bids
  | .buy => snapshot.asks

def own (snapshot : BookSnapshot) : Side → List PriceLevel
  | .buy => snapshot.bids
  | .sell => snapshot.asks

end BookSnapshot

def Side.Beyond (side : Side) (limit price : ℚ) : Prop :=
  match side with
  | .sell => price + slack < limit
  | .buy => limit < price - slack

instance (side : Side) (limit price : ℚ) : Decidable (side.Beyond limit price) := by
  unfold Side.Beyond
  cases side <;> infer_instance

/-- What one fill took from a displayed level: the index of the level, and the limit of the order. -/
structure Taking where
  side : Side
  level : ℕ
  limit : ℚ
  size : ℚ
  deriving DecidableEq

/-- A snapshot with the liquidity consumed since. The engine reads the consumption by price; `takings`
records besides which level every fill was taken from, and is not read by the engine. -/
structure ResidualBook where
  snapshot : BookSnapshot
  consumedBids : Dict ℚ ℚ := Dict.empty
  consumedAsks : Dict ℚ ℚ := Dict.empty
  takings : List Taking := []

namespace ResidualBook

def consumed (book : ResidualBook) (taker : Side) (price : ℚ) : ℚ :=
  match taker with
  | .sell => (book.consumedBids.get? price).getD 0
  | .buy => (book.consumedAsks.get? price).getD 0

/-- The levels that takers of this side meet, each with what is left of it. -/
def remaining (book : ResidualBook) (taker : Side) : List (ℚ × ℚ) :=
  (book.snapshot.opposite taker).map fun level => (level.price, max 0 (level.size - book.consumed taker level.price))

def remainingBids (book : ResidualBook) : List (ℚ × ℚ) := book.remaining .sell

def remainingAsks (book : ResidualBook) : List (ℚ × ℚ) := book.remaining .buy

def consume (book : ResidualBook) (taker : Side) (price size : ℚ) : ResidualBook :=
  match taker with
  | .sell => { book with consumedBids := book.consumedBids.set price (book.consumed .sell price + size) }
  | .buy => { book with consumedAsks := book.consumedAsks.set price (book.consumed .buy price + size) }

def take (book : ResidualBook) (taking : Taking) (price : ℚ) : ResidualBook :=
  { book.consume taking.side price taking.size with takings := book.takings ++ [taking] }

@[simp] theorem consumed_consume (book : ResidualBook) (taker side : Side) (at_ price size : ℚ) :
    (book.consume taker at_ size).consumed side price =
      book.consumed side price + if taker = side ∧ at_ = price then size else 0 := by
  cases taker <;> cases side <;> by_cases same : at_ = price <;> simp [consume, consumed, Dict.get?_set, same]

@[simp] theorem snapshot_take (book : ResidualBook) (taking : Taking) (price : ℚ) :
    (book.take taking price).snapshot = book.snapshot := by
  unfold take consume
  cases taking.side <;> rfl

@[simp] theorem takings_take (book : ResidualBook) (taking : Taking) (price : ℚ) :
    (book.take taking price).takings = book.takings ++ [taking] := rfl

@[simp] theorem consumed_take (book : ResidualBook) (taking : Taking) (at_ : ℚ) (side : Side) (price : ℚ) :
    (book.take taking at_).consumed side price =
      book.consumed side price + if taking.side = side ∧ at_ = price then taking.size else 0 :=
  consumed_consume book taking.side side at_ price taking.size

def ownConsumed (book : ResidualBook) : Side → Dict ℚ ℚ
  | .buy => book.consumedBids
  | .sell => book.consumedAsks

end ResidualBook

def eligibleDepth (side : Side) (limit : ℚ) (levels : List (ℚ × ℚ)) : ℚ :=
  ((levels.filter fun level => match side with
    | .buy => ¬ level.1 + slack < limit
    | .sell => ¬ limit < level.1 - slack).map fun level => max 0 level.2).sum

/-- The queue ahead once the book has moved on: a fraction of the depth that others took off it is gone. -/
def decayedQueue (tradeFraction : ℚ) (old new : ResidualBook) (side : Side) (limit queueAhead : ℚ) : ℚ :=
  let depth (snapshot : BookSnapshot) := eligibleDepth side limit
    ((snapshot.own side).map fun level => (level.price, level.size))
  let ownConsumed := eligibleDepth side limit (old.ownConsumed side).entries
  let externalConsumed := max 0 (depth old.snapshot - depth new.snapshot - ownConsumed) * tradeFraction
  max 0 (queueAhead - externalConsumed)

/-- The part of the size at its own price that counts as ahead of an order. -/
def makerQueueAheadFraction : ℚ := 65 / 100

def computeQueueAheadShares (snapshot : BookSnapshot) (side : Side) (limitPrice : ℚ) : ℚ :=
  let levels := (snapshot.own side).filter fun level => 0 < level.price ∧ 0 < level.size
  let isBetter (level : PriceLevel) : Bool := match side with
    | .buy => limitPrice + slack < level.price
    | .sell => level.price < limitPrice - slack
  let better := ((levels.filter isBetter).map PriceLevel.size).sum
  let sameLevel := ((levels.filter fun level =>
    ¬ isBetter level ∧ |level.price - limitPrice| ≤ 1 / 10 ^ 9).map PriceLevel.size).sum
  better + sameLevel * makerQueueAheadFraction

end Callisto.Backtest
