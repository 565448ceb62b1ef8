import Callisto.Library.Dict
import Callisto.Paper.Execution

/-! The rows of the paper service and what a commit settles. Money is in units of `10 ^ -18` dollars. -/

namespace Callisto.Paper

open Callisto.Library

def moneyPerNotional : ℤ := 10 ^ 10

/-- The oldest quote, or the one furthest ahead, that a commit still takes: five seconds. -/
def maxSourceAge : ℤ := 5000000

inductive Action where
  | execute
  | pass
  deriving DecidableEq, Repr

inductive TimeInForce where
  | immediateOrCancel
  | goodTillCanceled
  deriving DecidableEq, Repr

inductive OrderSide where
  | buy
  | sell
  deriving DecidableEq, Repr

inductive DecisionStatus where
  | simulated (status : FillStatus)
  | passed
  | rejected
  deriving DecidableEq, Repr

/-- The status is one of `filled`, `partial` and `no_fill`. -/
def DecisionStatus.IsSimulated : DecisionStatus → Prop
  | .simulated _ => True
  | _ => False

instance : DecidablePred DecisionStatus.IsSimulated := fun status =>
  match status with
  | .simulated _ => isTrue trivial
  | .passed => isFalse id
  | .rejected => isFalse id

structure ResolvedOpportunity where
  opportunityId : String
  stableId : String
  strategyKey : String
  strategyVersion : Option ℤ
  ticker : String
  outcome : Outcome
  snapshotJson : String
  revision : String
  deriving DecidableEq

/-- The quantity and the limit of an order, as the parsers bound them. -/
@[ext] structure OrderTerms where
  quantity : ℤ
  positive : 0 < quantity
  limitPrice : Price

instance : DecidableEq OrderTerms := fun _ _ => decidable_of_iff _ OrderTerms.ext_iff.symm

inductive DecisionRequest where
  | pass
  | execute (terms : OrderTerms) (timeInForce : TimeInForce)
  deriving DecidableEq

namespace DecisionRequest

def action : DecisionRequest → Action
  | .pass => .pass
  | .execute _ _ => .execute

def terms : DecisionRequest → Option OrderTerms
  | .pass => none
  | .execute terms _ => some terms

/-- `requested_quantity or Decimal("0")`. -/
def quantity (request : DecisionRequest) : ℤ := request.terms.elim 0 OrderTerms.quantity

theorem quantity_nonneg (request : DecisionRequest) : 0 ≤ request.quantity := by
  cases request with
  | pass => exact le_rfl
  | execute terms timeInForce => exact terms.positive.le

end DecisionRequest

structure Account where
  name : String
  startingCash : ℤ
  cashBalance : ℤ
  reservedCash : ℤ
  journalSequence : ℤ
  createdAt : Instant
  updatedAt : Instant

structure Intent where
  requestHash : String
  action : Action
  resolved : ResolvedOpportunity
  orderSide : Option OrderSide
  positionId : Option String
  timeInForce : Option TimeInForce
  terms : Option OrderTerms
  createdAt : Instant

/-- A decision row with the rows of its fills. The evidence columns are those of the quote. -/
structure Decision where
  accountSequence : ℤ
  requestHash : String
  action : Action
  resolved : ResolvedOpportunity
  orderSide : Option OrderSide
  positionId : Option String
  timeInForce : Option TimeInForce
  terms : Option OrderTerms
  status : DecisionStatus
  reason : String
  evidence : Option PaperQuote
  fillFormulaVersion : String
  feeRuleVersion : String
  fills : List PaperFill
  filledQuantity : ℤ
  remainingQuantity : ℤ
  averageFillPrice : Option ℤ
  notional : ℤ
  fee : ℤ
  positionCostBasis : Option ℤ
  realizedPnl : Option ℤ
  cashBefore : ℤ
  cashAfter : ℤ
  createdAt : Instant

structure Position where
  entryDecisionId : String
  ticker : String
  outcome : Outcome
  entryQuantity : ℤ
  entryNotional : ℤ
  entryFee : ℤ
  createdAt : Instant
  quantity_pos : 0 < entryQuantity
  notional_nonneg : 0 ≤ entryNotional
  fee_nonneg : 0 ≤ entryFee

/-- The opening facts of a good-till-cancelled order, always to buy. -/
structure Order where
  decisionId : String
  ticker : String
  outcome : Outcome
  requestedQuantity : ℤ
  filledQuantity : ℤ
  openQuantity : ℤ
  limitPrice : ℤ
  decisionStatus : DecisionStatus
  reservedCash : ℤ
  createdAt : Instant

structure Cancellation where
  orderId : String
  releasedCash : ℤ
  createdAt : Instant

inductive OrderEventType where
  | opened
  | cancelled
  deriving DecidableEq, Repr

structure OrderEvent where
  orderId : String
  sequence : ℕ
  eventType : OrderEventType
  cancellationId : Option String
  quantity : ℤ
  reservedCash : ℤ
  createdAt : Instant

/-- An account and its rows of the other tables, by the rest of their primary keys. -/
structure Ledger where
  account : Account
  intents : Dict String Intent := Dict.empty
  decisions : Dict String Decision := Dict.empty
  positions : Dict String Position := Dict.empty
  orders : Dict String Order := Dict.empty
  cancellations : Dict String Cancellation := Dict.empty
  orderEvents : List OrderEvent := []

inductive ServiceError where
  | invalid (text : String)
  | accountNotFound
  | decisionConflict
  | opportunityNotFound (text : String)
  | opportunityIneligible (text : String)
  | positionNotFound
  | positionNotClosable (text : String)
  | unresolvedExitIntent (decisionId : String)
  | cancellationConflict
  | orderNotCancelable (text : String)
  | reservationContradiction
  | integrity (constraint : String)
  | protocol (text : ProtocolError)
  deriving DecidableEq

/-- A decision on its way to a commit: simulated against a quote, passed, or rejected. -/
inductive PreparedDecision where
  | quoted (quote : PaperQuote) (result : PaperFillResult)
  | passed
  | rejected (reason : String)

namespace PreparedDecision

def quote : PreparedDecision → Option PaperQuote
  | .quoted quote _ => some quote
  | _ => none

def result : PreparedDecision → Option PaperFillResult
  | .quoted _ result => some result
  | _ => none

def formulaVersion (prepared : PreparedDecision) : String :=
  prepared.result.elim "not_evaluated" PaperFillResult.formulaVersion

def feeRuleVersion (prepared : PreparedDecision) : String :=
  prepared.quote.elim "not_evaluated" fun quote => quote.market.feeRuleVersion

end PreparedDecision

def openReason (reason : String) : String :=
  if reason = "displayed_depth_filled_ioc" then "displayed_depth_filled_gtc_open"
  else if reason = "displayed_depth_partially_filled_ioc" then "displayed_depth_partially_filled_gtc_open"
  else reason

def simulateBuy (terms : OrderTerms) (timeInForce : TimeInForce) (resolved : ResolvedOpportunity)
    (quote : PaperQuote) : Except ProtocolError PaperFillResult :=
  if quote.market.ticker ≠ resolved.ticker ∨ quote.book.ticker ≠ resolved.ticker then
    .error "Kalshi quote ticker identity mismatch"
  else do
    let result ← simulateBuyIoc quote.book resolved.outcome terms.quantity terms.limitPrice.units
      quote.market.priceRanges
    match timeInForce with
    | .immediateOrCancel => .ok result
    | .goodTillCanceled =>
      .ok { result with
        reason := openReason result.reason
        formulaVersion := "kalshi-complementary-depth-gtc-open-v1" }

def simulateSell (terms : OrderTerms) (resolved : ResolvedOpportunity) (quote : PaperQuote) :
    Except ProtocolError PaperFillResult :=
  if quote.market.ticker ≠ resolved.ticker ∨ quote.book.ticker ≠ resolved.ticker then
    .error "paper quote ticker does not match the held position"
  else simulateSellIoc quote.book resolved.outcome terms.quantity terms.limitPrice.units quote.market.priceRanges

/-- How the second transaction of a call comes about: from an intent that an earlier call left behind, or
with a quote that was fetched for it. -/
inductive Preparation where
  | resumed
  | fetched (quote : Except ProtocolError PaperQuote)

/-- A protocol error on the way of a decision to buy rejects the decision. -/
def prepareBuy (request : DecisionRequest) (resolved : ResolvedOpportunity) : Preparation → PreparedDecision
  | .resumed => .rejected "expired_after_restart"
  | .fetched fetched =>
    match request, fetched with
    | .pass, _ => .passed
    | .execute _ _, .error _ => .rejected "market_data_rejected"
    | .execute terms timeInForce, .ok quote =>
      match simulateBuy terms timeInForce resolved quote with
      | .ok result => .quoted quote result
      | .error _ => .rejected "market_data_rejected"

def prepareSell (terms : OrderTerms) (resolved : ResolvedOpportunity) :
    Preparation → Except ServiceError PreparedDecision
  | .resumed => .ok (.rejected "incomplete_exit_intent_rejected_after_restart")
  | .fetched fetched =>
    match fetched with
    | .error text => .error (.protocol text)
    | .ok quote =>
      match simulateSell terms resolved quote with
      | .ok result => .ok (.quoted quote result)
      | .error text => .error (.protocol text)

structure Settlement where
  status : DecisionStatus
  reason : String
  fills : List PaperFill
  filledQuantity : ℤ
  remainingQuantity : ℤ
  averageFillPrice : Option ℤ
  notional : ℤ
  fee : ℤ
  filled_nonneg : 0 ≤ filledQuantity
  remaining_nonneg : 0 ≤ remainingQuantity
  notional_nonneg : 0 ≤ notional
  fee_nonneg : 0 ≤ fee
  fee_le : fee ≤ notional
  idle : ¬ status.IsSimulated → filledQuantity = 0 ∧ notional = 0 ∧ fee = 0

namespace Settlement

def unfilled (status : DecisionStatus) (reason : String) (requested : ℤ) (nonneg : 0 ≤ requested) : Settlement where
  status := status
  reason := reason
  fills := []
  filledQuantity := 0
  remainingQuantity := requested
  averageFillPrice := none
  notional := 0
  fee := 0
  filled_nonneg := le_rfl
  remaining_nonneg := nonneg
  notional_nonneg := le_rfl
  fee_nonneg := le_rfl
  fee_le := le_rfl
  idle _ := ⟨rfl, rfl, rfl⟩

def ofResult (result : PaperFillResult) : Settlement where
  status := .simulated result.status
  reason := result.reason
  fills := result.fills
  filledQuantity := result.filledQuantity
  remainingQuantity := result.remainingQuantity
  averageFillPrice := result.averageFillPrice
  notional := result.notional * moneyPerNotional
  fee := result.fee
  filled_nonneg := result.filled_nonneg
  remaining_nonneg := result.remaining_nonneg
  notional_nonneg := Int.mul_nonneg result.notional_nonneg (by decide)
  fee_nonneg := result.fee_waived.ge
  fee_le := result.fee_waived.le.trans (Int.mul_nonneg result.notional_nonneg (by decide))
  idle passive := absurd trivial passive

/-- A quote from the market or the book is too old, or too far ahead of the clock. -/
def stale (quote : PaperQuote) (now : Instant) : Prop :=
  maxSourceAge < |now - quote.market.observedAt| ∨ maxSourceAge < |now - quote.book.observedAt|

instance (quote : PaperQuote) (now : Instant) : Decidable (stale quote now) := by
  unfold stale
  infer_instance

def ofPrepared (prepared : PreparedDecision) (requested : ℤ) (nonneg : 0 ≤ requested) : Settlement :=
  match prepared with
  | .quoted _ result => ofResult result
  | .passed => unfilled .passed "operator_passed" requested nonneg
  | .rejected reason => unfilled .rejected reason requested nonneg

def checked (prepared : PreparedDecision) (requested : ℤ) (nonneg : 0 ≤ requested) (now : Instant) : Settlement :=
  match prepared.quote with
  | none => ofPrepared prepared requested nonneg
  | some quote =>
    if stale quote now then unfilled .rejected "market_data_stale_before_commit" requested nonneg
    else if quote.market.feeWaiverExpiration ≤ now then
      unfilled .rejected "fee_waiver_expired_before_commit" requested nonneg
    else ofPrepared prepared requested nonneg

end Settlement

end Callisto.Paper
