import Mathlib.Data.Rat.Floor
import Callisto.Library.Runs
import Callisto.Ws.Payload

/-! The laddered exit executor: children are submitted, escalated and repriced in passes. -/

namespace Callisto.Exits

open Callisto.Library
open Callisto.Ws (strip)

inductive ChildStatus where
  | planned
  | submitted
  | filled
  | partlyFilled
  | cancelled
  | failed
  | escalated
  deriving DecidableEq

structure Child where
  price : ℚ
  size : ℚ
  tif : String := "GTC"
  postOnly : Bool := false
  status : ChildStatus := .planned
  filledSize : ℚ := 0
  averageFillPrice : Option ℚ := none
  exitOrderId : Option String := none
  providerClobOrderId : Option String := none
  submittedAt : Option ℚ := none
  lastAttemptAt : Option ℚ := none
  escalationCount : ℕ := 0
  lastError : Option String := none

/-- A child, and what the venue knows of it: the unfilled rest of its last order, the rests of orders that nobody can name,
and the fills it reported with their prices. -/
structure Slot where
  child : Child
  working : ℚ := 0
  stray : ℚ := 0
  fills : List (ℚ × ℚ) := []

/-- What `place_order` returns, with the size that rests at the venue. -/
structure PlaceResult where
  status : String
  orderId : String
  clobOrderId : String
  filledSize : Option ℚ
  averageFillPrice : Option ℚ
  errorMessage : Option String
  rest : ℚ

inductive PlaceAnswer where
  | raises (error : String)
  | result (result : PlaceResult)

structure Escalation where
  action : String
  afterSeconds : ℚ
  maxEscalations : ℕ
  widenBps : Option ℚ

structure PolicySnapshot where
  escalation : Option Escalation
  repriceOnMidDriftBps : Option ℚ
  minRepriceIntervalSeconds : ℚ

structure PendingExit where
  children : List Slot
  targetSize : ℚ
  triggerPrice : Option ℚ
  policy : PolicySnapshot

/-- `value or None` -/
def orNone (text : String) : Option String := if text = "" then none else some text

def roundDownToTick (price tick : ℚ) : ℚ :=
  if tick ≤ 0 then price else max tick (⌊price / tick + 1 / 10 ^ 9⌋ * tick)

def clampBinaryPrice (price tick : ℚ) : ℚ := roundDownToTick (max tick (min (99 / 100) price)) tick

def PlaceResult.fill (result : PlaceResult) : ℚ := max 0 (result.filledSize.getD 0)

def PlaceResult.fillPrice (result : PlaceResult) : Option ℚ := result.averageFillPrice.filter fun price => 0 < price

/-- `submit_child_order` -/
def submitChildOrder (now : ℚ) (slot : Slot) : PlaceAnswer → Slot
  | .raises error => { slot with
      child := { slot.child with lastAttemptAt := some now, status := .failed, lastError := some error } }
  | .result result =>
    let filled := slot.child.filledSize + result.fill
    let child : Child := { slot.child with
      lastAttemptAt := some now
      exitOrderId := orNone result.orderId
      providerClobOrderId := orNone result.clobOrderId
      filledSize := filled
      averageFillPrice := if 0 < result.fill then result.fillPrice.or slot.child.averageFillPrice else slot.child.averageFillPrice }
    { child :=
        if result.status = "executed" then
          { child with status := if child.size ≤ filled + 1 / 10 ^ 9 then .filled else .partlyFilled }
        else if result.status = "open" ∨ result.status = "submitted" then
          { child with status := .submitted, submittedAt := some (slot.child.submittedAt.getD now) }
        else
          { child with
            status := .failed
            lastError := some (result.errorMessage.getD ("submit_status:" ++ if result.status = "" then "unknown" else result.status)) }
      working := result.rest
      stray := slot.stray + slot.working
      fills := if 0 < result.fill then slot.fills ++ [(result.fill, result.fillPrice.getD slot.child.price)] else slot.fills }

def orderName (child : Child) : String := strip ((child.providerClobOrderId.or child.exitOrderId).getD "")

/-- `cancel_child_order`; without a name there is nothing to cancel. -/
def cancelAcknowledged (slot : Slot) (answer : Bool) : Bool := orderName slot.child = "" || answer

def cancelChildOrder (slot : Slot) (answer : Bool) : Slot :=
  if orderName slot.child ≠ "" ∧ answer then { slot with working := 0 } else slot

def resetTransient (child : Child) : Child := { child with providerClobOrderId := none, exitOrderId := none, submittedAt := none }

/-- `(side or "SELL").upper() == "SELL"`: each letter is one whose capital is that of `SELL`. -/
def sellsAs (side : String) : Bool :=
  match side.toList with
  | [] => true
  | [first, second, third, fourth] => first ∈ ['S', 's', 'ſ'] && second ∈ ['E', 'e'] && third ∈ ['L', 'l'] && fourth ∈ ['L', 'l']
  | _ => false

def escalatedChild (escalation : Escalation) (side : String) (currentMid : Option ℚ) (tickSize : ℚ) (child : Child) : Child :=
  if escalation.action = "marketable_ioc" then
    { child with
      price := match currentMid with
        | some mid => if 0 < mid then clampBinaryPrice mid tickSize else child.price
        | none => child.price
      tif := "IOC"
      postOnly := false }
  else if escalation.action = "widen_bps" then
    let widen := match escalation.widenBps with
      | some bps => if bps ≤ 0 then 25 else bps
      | none => 25
    let raw := if sellsAs side then child.price * (1 - widen / 10000) else child.price * (1 + widen / 10000)
    { child with price := clampBinaryPrice raw tickSize }
  else child

/-- `escalate_child_order` -/
def escalateChildOrder (escalation : Option Escalation) (side : String) (currentMid : Option ℚ) (tickSize now : ℚ)
    (cancel : Bool) (answer : PlaceAnswer) (slot : Slot) : Slot :=
  match escalation with
  | none => slot
  | some escalation =>
    if cancelAcknowledged slot cancel then
      let cancelled := cancelChildOrder slot cancel
      let child := { cancelled.child with status := ChildStatus.escalated, escalationCount := cancelled.child.escalationCount + 1 }
      if escalation.action = "abort" then { cancelled with child := { child with status := .cancelled } }
      else submitChildOrder now
        { cancelled with child := resetTransient (escalatedChild escalation side currentMid tickSize child) } answer
    else { slot with child := { slot.child with lastError := some "escalation_cancel_failed" } }

/-- `reprice_child_order` -/
def repriceChildOrder (newPrice tickSize now : ℚ) (cancel : Bool) (answer : PlaceAnswer) (slot : Slot) : Slot :=
  if cancelAcknowledged slot cancel then
    let cancelled := cancelChildOrder slot cancel
    submitChildOrder now
      { cancelled with
        child := resetTransient { cancelled.child with price := clampBinaryPrice newPrice tickSize, status := .planned } } answer
  else { slot with child := { slot.child with lastError := some "reprice_cancel_failed" } }

def isWorking (child : Child) : Bool := child.status = .submitted || child.status = .partlyFilled

def pick (children : List Slot) (chosen : Child → Bool) : List ℕ :=
  (children.zipIdx.filter fun entry => chosen entry.1.child).map Prod.snd

def pickChildrenToSubmit (pending : PendingExit) (maxCount : ℤ) : List ℕ :=
  (pick pending.children fun child => child.status = .planned).take (max 1 maxCount.toNat)

def pickChildrenToEscalate (pending : PendingExit) (now : ℚ) : List ℕ :=
  match pending.policy.escalation with
  | none => []
  | some escalation => pick pending.children fun child =>
      isWorking child && child.escalationCount < escalation.maxEscalations &&
        match child.submittedAt.or child.lastAttemptAt with
        | none => false
        | some since => escalation.afterSeconds ≤ now - since + 1 / 10 ^ 9

def pickChildrenToReprice (pending : PendingExit) (currentMid now : ℚ) : List ℕ :=
  match pending.policy.repriceOnMidDriftBps with
  | none => []
  | some driftBps => pick pending.children fun child =>
      isWorking child && 0 < child.price && driftBps ≤ |child.price - currentMid| / currentMid * 10000 + 1 / 10 ^ 9 &&
        match child.lastAttemptAt with
        | none => true
        | some last => pending.policy.minRepriceIntervalSeconds ≤ now - last + 1 / 10 ^ 9

structure PassBudget where
  submits : ℤ
  escalations : ℤ
  reprices : ℤ

/-- The arguments of a pass, and what the venue answers for each child. -/
structure ExitPass where
  budget : PassBudget
  now : ℚ
  side : String
  currentMid : Option ℚ
  tickSize : ℚ
  onSubmit : ℕ → PlaceAnswer
  onEscalate : ℕ → Bool × PlaceAnswer
  onReprice : ℕ → Bool × PlaceAnswer

inductive ChildStep where
  | submit (index : ℕ)
  | escalate (index : ℕ)
  | reprice (index : ℕ) (mid : ℚ)

def ChildStep.index : ChildStep → ℕ
  | .submit index | .escalate index | .reprice index _ => index

/-- The price moves with the mid, by the child's offset to the trigger. -/
def slidPrice (pending : PendingExit) (mid : ℚ) (child : Child) : ℚ :=
  let anchor := match pending.triggerPrice with
    | some trigger => if trigger = 0 then mid else trigger
    | none => mid
  mid + (child.price - anchor)

def ChildStep.apply (pending : PendingExit) (pass : ExitPass) (slot : Slot) : ChildStep → Slot
  | .submit index => submitChildOrder pass.now slot (pass.onSubmit index)
  | .escalate index => escalateChildOrder pending.policy.escalation pass.side pass.currentMid pass.tickSize pass.now
      (pass.onEscalate index).1 (pass.onEscalate index).2 slot
  | .reprice index mid => repriceChildOrder (slidPrice pending mid slot.child) pass.tickSize pass.now
      (pass.onReprice index).1 (pass.onReprice index).2 slot

def childStep (pass : ExitPass) (pending : PendingExit) (step : ChildStep) : PendingExit :=
  { pending with children := pending.children.modify step.index fun slot => step.apply pending pass slot }

def submitSteps (pending : PendingExit) (pass : ExitPass) : List ChildStep :=
  ((pickChildrenToSubmit pending pass.budget.submits).take pass.budget.submits.toNat).map .submit

def escalateSteps (pending : PendingExit) (pass : ExitPass) : List ChildStep :=
  ((pickChildrenToEscalate pending pass.now).take pass.budget.escalations.toNat).map .escalate

def repriceSteps (pending : PendingExit) (pass : ExitPass) : List ChildStep :=
  match pass.currentMid with
  | none => []
  | some mid =>
    if 0 < mid then ((pickChildrenToReprice pending mid pass.now).take pass.budget.reprices.toNat).map fun index => .reprice index mid
    else []

/-- The steps of a pass; each phase picks its children when the one before it is done. -/
def passSteps (pending : PendingExit) (pass : ExitPass) : List ChildStep :=
  let submits := submitSteps pending pass
  let submitted := Runs.run (childStep pass) pending submits
  let escalates := escalateSteps submitted pass
  submits ++ escalates ++ repriceSteps (Runs.run (childStep pass) submitted escalates) pass

/-- `run_exit_pass` -/
def runExitPass (pending : PendingExit) (pass : ExitPass) : PendingExit := Runs.run (childStep pass) pending (passSteps pending pass)

structure Aggregate where
  filledSize : ℚ
  filledNotional : ℚ
  averageFillPrice : ℚ

def countedPrice (child : Child) : ℚ := (child.averageFillPrice.filter fun price => 0 < price).getD child.price

def aggregateOne (totals : ℚ × ℚ) (child : Child) : ℚ × ℚ :=
  if max 0 child.filledSize ≤ 0 then totals
  else (totals.1 + max 0 child.filledSize, totals.2 + max 0 child.filledSize * countedPrice child)

def aggregateChildrenFills (children : List Child) : Aggregate :=
  let totals := children.foldl aggregateOne (0, 0)
  ⟨totals.1, totals.2, if 0 < totals.1 then totals.2 / totals.1 else 0⟩

/-- `is_exit_complete` with its default threshold. -/
def isExitComplete (pending : PendingExit) : Bool :=
  let target := max 0 pending.targetSize
  if pending.children.isEmpty then false
  else if 0 < target ∧ target ≤ (aggregateChildrenFills (pending.children.map Slot.child)).filledSize + 1 / 10 ^ 9 then true
  else pending.children.all fun slot => !(slot.child.status = .planned || isWorking slot.child || slot.child.status = .escalated)

end Callisto.Exits
