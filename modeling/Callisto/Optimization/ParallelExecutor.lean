import Mathlib.Algebra.BigOperators.Group.List.Basic
import Mathlib.Algebra.Order.BigOperators.Group.List
import Mathlib.Algebra.Order.Field.Rat
import Mathlib.Tactic.FieldSimp
import Mathlib.Tactic.Linarith

/-! Legs that are placed in parallel, and the hedge after a partial execution. -/

namespace Callisto.Optimization

inductive Side where
  | buy
  | sell
  deriving DecidableEq

def Side.opposite : Side → Side
  | .buy => .sell
  | .sell => .buy

theorem Side.opposite_inj {first second : Side} : first.opposite = second.opposite ↔ first = second := by
  cases first <;> cases second <;> decide

structure ExecutionLeg where
  tokenId : String
  side : Side
  price : ℚ
  sizeUsd : ℚ
  marketQuestion : Option String := none

def ExecutionLeg.quantity (leg : ExecutionLeg) : ℚ := leg.sizeUsd / leg.price

/-- A result with attributes; a missing one reads as `none`. -/
structure ObjectResult where
  status : String
  id : Option String := none
  clobOrderId : Option String := none
  averageFillPrice : Option ℚ := none
  filledSize : Option ℚ := none
  errorMessage : Option String := none

structure DictResult where
  success : Option Bool := none
  status : Option String := none
  orderId : Option String := none
  orderID : Option String := none
  fillPrice : Option ℚ := none
  fillSize : Option ℚ := none
  error : Option String := none

inductive Reply where
  | raised (message : String)
  | object (result : ObjectResult)
  | dict (result : DictResult)
  | other

/-- A refused leg, with the number that its text shows, or the text of a reply. -/
inductive LegError where
  | missingTokenId
  | invalidPrice (price : ℚ)
  | priceAboveOne (price : ℚ)
  | invalidSize (sizeUsd : ℚ)
  | reported (text : String)
  deriving DecidableEq

structure LegResult where
  leg : ExecutionLeg
  success : Bool
  orderId : Option String := none
  fillPrice : Option ℚ := none
  fillSize : Option ℚ := none
  error : Option LegError := none

def orNumber (value : Option ℚ) (default : ℚ) : ℚ :=
  match value with
  | none => default
  | some number => if number = 0 then default else number

def orText (value : Option String) (default : Option String) : Option String :=
  match value with
  | none => default
  | some text => if text = "" then default else some text

def Reply.counts : Reply → Bool
  | .raised _ => false
  | .object result => decide (result.status ∈ ["open", "filled", "OPEN", "FILLED"])
  | .dict result => result.success.getD (decide (∃ status ∈ result.status, status ∈ ["open", "filled"]))
  | .other => true

def executeSingleLeg (leg : ExecutionLeg) (reply : Reply) : LegResult :=
  match reply with
  | .raised message => { leg, success := false, error := some (.reported message) }
  | .object result =>
    let success := reply.counts
    { leg
      success
      orderId := orText result.id result.clobOrderId
      fillPrice := some (orNumber result.averageFillPrice leg.price)
      fillSize := some (orNumber result.filledSize (leg.sizeUsd / leg.price))
      error := if success then none else result.errorMessage.map .reported }
  | .dict result =>
    let success := reply.counts
    { leg
      success
      orderId := orText result.orderId result.orderID
      fillPrice := some (result.fillPrice.getD leg.price)
      fillSize := some (result.fillSize.getD (leg.sizeUsd / leg.price))
      error := if success then none else result.error.map .reported }
  | .other => { leg, success := true, fillPrice := some leg.price, fillSize := some (leg.sizeUsd / leg.price) }

def validateLeg (leg : ExecutionLeg) : Option LegError :=
  if leg.tokenId = "" then some .missingTokenId
  else if leg.price ≤ 0 then some (.invalidPrice leg.price)
  else if 1 < leg.price then some (.priceAboveOne leg.price)
  else if leg.sizeUsd ≤ 0 then some (.invalidSize leg.sizeUsd)
  else none

inductive ExecutionStatus where
  | success
  | partially
  | failed
  | timeout
  deriving DecidableEq

structure ParallelExecutionResult where
  status : ExecutionStatus
  legs : List LegResult
  successfulLegs : ℕ
  failedLegs : ℕ
  totalCost : ℚ
  exposureRisk : Bool

def LegResult.cost (result : LegResult) : ℚ :=
  match result.fillPrice, result.fillSize with
  | some price, some size => if price = 0 then result.leg.sizeUsd else price * size
  | _, _ => result.leg.sizeUsd

/-- A leg, the reply to its order, and what was really filled of it. -/
structure Placed where
  leg : ExecutionLeg
  reply : Reply
  filledSize : ℚ
  filledPrice : ℚ

def Placed.result (placed : Placed) : LegResult := executeSingleLeg placed.leg placed.reply

def submitted (legs : List ExecutionLeg) : List ExecutionLeg := if ∀ leg ∈ legs, validateLeg leg = none then legs else []

/-- A round within its time limit unless `late`. A leg that raises is a result, so `gather` meets no exception. -/
def execute (round : List Placed) (late : Bool) : ParallelExecutionResult :=
  if round = [] then ⟨.failed, [], 0, 0, 0, false⟩
  else if ¬ ∀ placed ∈ round, validateLeg placed.leg = none then
    ⟨.failed, round.map fun placed => { leg := placed.leg, success := false, error := validateLeg placed.leg }, 0, round.length, 0, false⟩
  else if late then
    ⟨.timeout, round.map fun placed => { leg := placed.leg, success := false, error := some (.reported "Timeout") }, 0, round.length, 0, true⟩
  else
    let results := round.map Placed.result
    let executed := results.filter fun result => result.success
    let successful := executed.length
    let status := if successful = round.length then .success else if successful = 0 then .failed else .partially
    ⟨status, results, successful, round.length - successful, (executed.map LegResult.cost).sum,
      decide (0 < successful ∧ successful < round.length)⟩

def hedgeLeg (filled : LegResult) : ExecutionLeg where
  tokenId := filled.leg.tokenId
  side := filled.leg.side.opposite
  price := orNumber filled.fillPrice filled.leg.price
  sizeUsd := filled.fillSize.getD 0 * orNumber filled.fillPrice filled.leg.price
  marketQuestion := filled.leg.marketQuestion

def executeWithHedge (round : List Placed) (late hedgeOnPartial : Bool) : ParallelExecutionResult × List ExecutionLeg :=
  let result := execute round late
  if result.exposureRisk ∧ hedgeOnPartial then
    (result, submitted ((result.legs.filter fun leg => leg.success).map hedgeLeg))
  else (result, [])

end Callisto.Optimization
