import Callisto.Backtest.Book
import Mathlib.Data.Rat.Floor

/-! The rules of the venue: what it rejects at submission, how it rounds a price, and when an order meets
the book. -/

namespace Callisto.Backtest

structure OrderRule where
  tickSize : ℚ := 1 / 100
  minNotionalUsd : ℚ := 1
  maxPrice : ℚ := 99 / 100
  minPrice : ℚ := 1 / 100
  deriving DecidableEq

/-- Why the venue rejects an order, with the amounts that its text prints. -/
inductive RejectReason where
  | postOnlyWithTakerTif (tif : Tif)
  | nonPositiveSize
  | nonPositivePrice
  | belowMinNotional (notional minimum : ℚ)
  | postOnlyCrossesBook
  | fokInsufficientLiquidity
  deriving DecidableEq

def Tif.IsTaker : Tif → Prop
  | .ioc | .fak | .fok => True
  | .gtc | .gtd => False

instance : DecidablePred Tif.IsTaker := fun tif =>
  match tif with
  | .ioc | .fak | .fok => isTrue trivial
  | .gtc | .gtd => isFalse id

namespace OrderRule

def clamp (value low high : ℚ) : ℚ := max low (min high value)

def roundPrice (rules : OrderRule) (price : ℚ) (side : Side) : ℚ :=
  if rules.tickSize ≤ 0 then price
  else
    let steps := price / rules.tickSize
    let rounded := match side with
      | .buy => ⌈steps - 1 / 10 ^ 9⌉ * rules.tickSize
      | .sell => ⌊steps + 1 / 10 ^ 9⌋ * rules.tickSize
    clamp rounded rules.minPrice rules.maxPrice

def validateSubmit (rules : OrderRule) (side : Side) (price size : ℚ) (tif : Tif) (postOnly : Bool) :
    Except RejectReason (Option ℚ) :=
  if postOnly ∧ tif.IsTaker then .error (.postOnlyWithTakerTif tif)
  else if size ≤ 0 then .error .nonPositiveSize
  else if price ≤ 0 then .error .nonPositivePrice
  else
    let rounded := rules.roundPrice price side
    let notional := rounded * size
    if notional + 1 / 10 ^ 9 < rules.minNotionalUsd then
      .error (.belowMinNotional notional rules.minNotionalUsd)
    else .ok (if slack < |rounded - price| then some rounded else none)

end OrderRule

def BookSnapshot.isMarketable (snapshot : BookSnapshot) (side : Side) (price : ℚ) : Bool :=
  match side with
  | .buy => snapshot.bestAsk.any fun ask => ask ≤ price + slack
  | .sell => snapshot.bestBid.any fun bid => price - slack ≤ bid

def BookSnapshot.crossesBook (snapshot : BookSnapshot) (side : Side) (price : ℚ) : Bool :=
  snapshot.isMarketable side price

end Callisto.Backtest
