import Callisto.Backtest.Orders
import Mathlib.Tactic.Positivity

namespace Callisto.Backtest

/-- The venue's quadratic taker curve, in dollars a share, at a price clamped to the unit interval. -/
def polymarketTakerFee (price : ℚ) : ℚ :=
  let clamped := max 0 (min 1 price)
  clamped * (1/4) * (clamped * (1 - clamped)) ^ 2

/-- Fees of fills and of profitable closes, with the defaults of the venue. -/
structure FeeModel where
  takerBps : ℚ := 0
  makerBps : ℚ := 0
  perFillGasUsd : ℚ := 5/1000
  resolutionFeeRate : ℚ := 0
  negriskConversionGasUsd : ℚ := 1/100
  makerRebateBps : ℚ := 0
  makerRebateMaxSpreadBps : ℚ := 50
  useTakerFeeCurve : Bool := true
  cryptoFeeMultiplier : ℚ := 1
  deriving DecidableEq

namespace FeeModel

/-- Whether a maker fill is close enough to the mid for the rebate; with no mid every fill is. -/
def insideBand (fees : FeeModel) (price : ℚ) : Option ℚ → Bool
  | some mid => if 0 < mid then decide (|price - mid| / mid * 10000 ≤ fees.makerRebateMaxSpreadBps) else true
  | none => true

/-- The fee of one fill: the bps fee on its notional and the gas, less an in-band maker rebate. -/
def fillFee (fees : FeeModel) (price size : ℚ) (isMaker : Bool) (isNegrisk : Bool := false)
    (midPrice : Option ℚ := none) : ℚ :=
  let gas := max 0 fees.perFillGasUsd + if isNegrisk then max 0 fees.negriskConversionGasUsd else 0
  if isMaker then
    let makerFee := if 0 < fees.makerBps then price * size * (fees.makerBps / 10000) else 0
    let rebateCredit :=
      if 0 < fees.makerRebateBps ∧ fees.insideBand price midPrice then
        price * size * (fees.makerRebateBps / 10000)
      else 0
    makerFee + gas - rebateCredit
  else
    let takerFee :=
      if fees.useTakerFeeCurve then polymarketTakerFee price * size * max 0 fees.cryptoFeeMultiplier
      else price * size * (fees.takerBps / 10000)
    takerFee + gas

def resolutionFee (fees : FeeModel) (grossWinningsUsd : ℚ) : ℚ :=
  if grossWinningsUsd ≤ 0 then 0 else grossWinningsUsd * max 0 fees.resolutionFeeRate

end FeeModel

end Callisto.Backtest
