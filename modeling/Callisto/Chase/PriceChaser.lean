import Callisto.Library.Decimals
import Callisto.Library.Runs

/-! Retries of an order at prices that chase the market, against a venue where earlier orders may still rest. -/

namespace Callisto.Chase

open Callisto.Library Callisto.Library.Runs Callisto.Library.Decimals

inductive Side where
  | buy
  | sell
  deriving DecidableEq

structure PriceChaseConfig where
  maxRetries : ℕ := 5
  priceIncrementPerRetry : ℚ := 1 / 200
  maxTotalChase : ℚ := 1 / 50
  finalRetryOrderType : String := "GTD"
  finalRetryGtdSeconds : ℕ := 61
  maxSlippagePercent : ℚ := 2
  chaseOnFirstRetry : Bool := true
  increment_nonneg : 0 ≤ priceIncrementPerRetry := by norm_num
  total_nonneg : 0 ≤ maxTotalChase := by norm_num
  slippage_nonneg : 0 ≤ maxSlippagePercent := by norm_num

def clamp (price : ℚ) : ℚ := max (1 / 100) (min (99 / 100) price)

def rawAdjustment (config : PriceChaseConfig) (originalPrice : ℚ) (attempt : ℕ) : ℚ :=
  let chaseSteps := if config.chaseOnFirstRetry then attempt else attempt - 1
  min (min (chaseSteps * config.priceIncrementPerRetry) config.maxTotalChase) (originalPrice * (config.maxSlippagePercent / 100))

/-- The market price is not used; only the first attempt is not rounded. -/
def calculateChasePrice (config : PriceChaseConfig) (originalPrice : ℚ) (side : Side) (attempt : ℕ) : ℚ × String :=
  let orderType := if config.maxRetries ≤ attempt then config.finalRetryOrderType else "GTC"
  if attempt = 0 then (clamp originalPrice, orderType)
  else
    let adjusted := match side with
      | .buy => originalPrice + rawAdjustment config originalPrice attempt
      | .sell => originalPrice - rawAdjustment config originalPrice attempt
    (roundTo 4 (clamp adjusted), orderType)

inductive Outcome where
  | filled
  | partially
  | timeout
  | failed
  deriving DecidableEq

structure RetryAttempt where
  attemptNumber : ℕ
  originalPrice : ℚ
  adjustedPrice : ℚ
  priceAdjustment : ℚ
  orderType : String
  result : Outcome
  fillSize : ℚ

/-- What the venue and `place_order_fn` do with an order: what is filled at once and what rests, and the reply,
none where the call raises. -/
structure Placement where
  filledNow : ℚ
  rests : ℚ
  reply : Option (String × ℚ)

structure VenueOrder where
  filled : ℚ
  resting : ℚ

def VenueOrder.live (order : VenueOrder) : ℚ := order.filled + order.resting

/-- The local variables of `execute_with_chase`, and the orders it has placed. -/
structure ChaseRun where
  attempt : ℕ := 0
  remainingSize : ℚ
  totalFilled : ℚ := 0
  attempts : List RetryAttempt := []
  ended : Bool := false
  orders : List VenueOrder := []

def Placement.result (placement : Placement) : String × ℚ := placement.reply.getD ("failed", 0)

def Placement.Within (placement : Placement) (sent : ℚ) : Prop :=
  0 ≤ placement.filledNow ∧ 0 ≤ placement.rests ∧ placement.filledNow + placement.rests ≤ sent ∧
    0 ≤ placement.result.2 ∧ placement.result.2 ≤ sent

instance (placement : Placement) (sent : ℚ) : Decidable (placement.Within sent) := inferInstanceAs (Decidable (_ ∧ _))

inductive Event where
  | place (placement : Placement)
  | fill (index : ℕ) (size : ℚ)
  | lapse (index : ℕ) (size : ℚ)

def classify (status : String) (fillSize remainingSize : ℚ) : Outcome :=
  if status = "filled" ∨ 0 < fillSize ∧ remainingSize ≤ fillSize then .filled
  else if 0 < fillSize then .partially
  else if status ∈ ["timeout", "expired"] then .timeout
  else .failed

def dustThreshold : ℚ := 1 / 100

def VenueOrder.fill (size : ℚ) (order : VenueOrder) : VenueOrder :=
  if 0 ≤ size ∧ size ≤ order.resting then ⟨order.filled + size, order.resting - size⟩ else order

def VenueOrder.lapse (size : ℚ) (order : VenueOrder) : VenueOrder :=
  if 0 ≤ size ∧ size ≤ order.resting then ⟨order.filled, order.resting - size⟩ else order

/-- One round of the loop of `execute_with_chase`. -/
def ChaseRun.place (config : PriceChaseConfig) (side : Side) (originalPrice : ℚ) (chase : ChaseRun) (placement : Placement) : ChaseRun :=
  let chased := calculateChasePrice config originalPrice side chase.attempt
  let result := placement.result
  let outcome := classify result.1 result.2 chase.remainingSize
  let record : RetryAttempt :=
    ⟨chase.attempt, originalPrice, chased.1, roundTo 6 (chased.1 - originalPrice), chased.2, outcome, result.2⟩
  let remaining := max (chase.remainingSize - result.2) 0
  let dust := remaining ≤ dustThreshold
  { attempt := chase.attempt + 1
    remainingSize := if dust then 0 else remaining
    totalFilled := chase.totalFilled + result.2
    attempts := chase.attempts ++ [record]
    ended := decide (dust ∨ outcome = .filled ∨ config.maxRetries ≤ chase.attempt)
    orders := chase.orders ++ [⟨placement.filledNow, placement.rests⟩] }

/-- The loop goes on and the venue fills or drops what rests, in any order. -/
def step (config : PriceChaseConfig) (side : Side) (originalPrice : ℚ) (chase : ChaseRun) : Event → ChaseRun
  | .place placement =>
    if chase.ended = false ∧ placement.Within chase.remainingSize then chase.place config side originalPrice placement else chase
  | .fill index size => { chase with orders := chase.orders.modify index (VenueOrder.fill size) }
  | .lapse index size => { chase with orders := chase.orders.modify index (VenueOrder.lapse size) }

structure ChaseResult where
  success : Bool
  finalPrice : ℚ
  totalFilled : ℚ
  attempts : List RetryAttempt
  totalPriceAdjustment : ℚ

def ChaseRun.result (originalPrice : ℚ) (chase : ChaseRun) : ChaseResult :=
  let finalPrice := match chase.attempts.getLast? with
    | some last => last.adjustedPrice
    | none => originalPrice
  ⟨decide (0 < chase.totalFilled ∧ chase.remainingSize ≤ 0), finalPrice, chase.totalFilled, chase.attempts,
    roundTo 6 (finalPrice - originalPrice)⟩

end Callisto.Chase
