import Callisto.Paper.Ledger

/-! The transactions of the paper service that change an account. Each runs under the lock of the
account row, so each is one step. -/

namespace Callisto.Paper

open Callisto.Library

/-- The ids of the rows that a decision opens, cut from a digest of its own id. -/
structure RowNames where
  positionId : String → String → String
  orderId : String → String → String

def Decision.replay (existing : Decision) (requestHash : String) : Except ServiceError Decision :=
  if existing.requestHash ≠ requestHash then .error .decisionConflict else .ok existing

/-- The terms of the order that a decision leaves working, when it leaves one. -/
def orderTerms (request : DecisionRequest) (settlement : Settlement) : Option OrderTerms :=
  match request with
  | .execute terms .goodTillCanceled => if settlement.status.IsSimulated then some terms else none
  | _ => none

def reservation (request : DecisionRequest) (settlement : Settlement) : ℤ :=
  (orderTerms request settlement).elim 0 fun terms =>
    settlement.remainingQuantity * terms.limitPrice.units * moneyPerNotional

/-- The settlement of a decision to buy or to pass: the checks of the quote, and then of the cash. -/
def settleBuy (account : Account) (request : DecisionRequest) (prepared : PreparedDecision) (now : Instant) :
    Settlement :=
  let settlement := Settlement.checked prepared request.quantity request.quantity_nonneg now
  if settlement.status.IsSimulated ∧
      account.cashBalance - account.reservedCash < settlement.notional + settlement.fee + reservation request settlement
  then .unfilled .rejected "insufficient_paper_cash" request.quantity request.quantity_nonneg
  else settlement

def buyRow (account : Account) (requestHash : String) (request : DecisionRequest) (resolved : ResolvedOpportunity)
    (prepared : PreparedDecision) (settlement : Settlement) (now : Instant) : Decision where
  accountSequence := account.journalSequence + 1
  requestHash := requestHash
  action := request.action
  resolved := resolved
  orderSide := if request.action = .execute then some .buy else none
  positionId := none
  timeInForce := match request with
    | .execute _ timeInForce => some timeInForce
    | .pass => none
  terms := request.terms
  status := settlement.status
  reason := settlement.reason
  evidence := prepared.quote
  fillFormulaVersion := prepared.formulaVersion
  feeRuleVersion := prepared.feeRuleVersion
  fills := settlement.fills
  filledQuantity := settlement.filledQuantity
  remainingQuantity := settlement.remainingQuantity
  averageFillPrice := settlement.averageFillPrice
  notional := settlement.notional
  fee := settlement.fee
  positionCostBasis := none
  realizedPnl := none
  cashBefore := account.cashBalance
  cashAfter := account.cashBalance - settlement.notional - settlement.fee
  createdAt := now

namespace Ledger

def openPosition (ledger : Ledger) (positionId : String) (position : Position) : Except ServiceError Ledger :=
  if absent : ledger.positions.get? positionId = none then
    .ok { ledger with positions := ledger.positions.add positionId position absent }
  else .error (.integrity "kalshi_paper_positions_pkey")

def openOrder (ledger : Ledger) (orderId : String) (order : Order) : Except ServiceError Ledger :=
  if absent : ledger.orders.get? orderId = none then
    .ok { ledger with
      orders := ledger.orders.add orderId order absent
      orderEvents := ledger.orderEvents ++
        [⟨orderId, 1, .opened, none, order.openQuantity, order.reservedCash, order.createdAt⟩] }
  else .error (.integrity "kalshi_paper_orders_pkey")

def withPosition (ledger : Ledger) (names : RowNames) (accountId decisionId : String) (request : DecisionRequest)
    (resolved : ResolvedOpportunity) (settlement : Settlement) (now : Instant) : Except ServiceError Ledger :=
  if filled : request.action = .execute ∧
      (settlement.status = .simulated .filled ∨ settlement.status = .simulated .partlyFilled) ∧
      0 < settlement.filledQuantity then
    ledger.openPosition (names.positionId accountId decisionId)
      { entryDecisionId := decisionId
        ticker := resolved.ticker
        outcome := resolved.outcome
        entryQuantity := settlement.filledQuantity
        entryNotional := settlement.notional
        entryFee := settlement.fee
        createdAt := now
        quantity_pos := filled.2.2
        notional_nonneg := settlement.notional_nonneg
        fee_nonneg := settlement.fee_nonneg }
  else .ok ledger

def withOrder (ledger : Ledger) (names : RowNames) (accountId decisionId : String) (request : DecisionRequest)
    (resolved : ResolvedOpportunity) (settlement : Settlement) (now : Instant) : Except ServiceError Ledger :=
  match orderTerms request settlement with
  | none => .ok ledger
  | some terms =>
    ledger.openOrder (names.orderId accountId decisionId)
      { decisionId := decisionId
        ticker := resolved.ticker
        outcome := resolved.outcome
        requestedQuantity := terms.quantity
        filledQuantity := settlement.filledQuantity
        openQuantity := settlement.remainingQuantity
        limitPrice := terms.limitPrice.units
        decisionStatus := settlement.status
        reservedCash := reservation request settlement
        createdAt := now }

def commitPrepared (names : RowNames) (ledger : Ledger) (accountId decisionId requestHash : String)
    (request : DecisionRequest) (resolved : ResolvedOpportunity) (prepared : PreparedDecision) (now : Instant) :
    Except ServiceError (Ledger × Decision) :=
  match absent : ledger.decisions.get? decisionId with
  | some existing => (existing.replay requestHash).map fun decision => (ledger, decision)
  | none => do
    let settlement := settleBuy ledger.account request prepared now
    let row := buyRow ledger.account requestHash request resolved prepared settlement now
    let recorded := { ledger with
      account := { ledger.account with
        cashBalance := row.cashAfter
        reservedCash := ledger.account.reservedCash + reservation request settlement
        journalSequence := row.accountSequence
        updatedAt := now }
      decisions := ledger.decisions.add decisionId row absent }
    let positioned ← recorded.withPosition names accountId decisionId request resolved settlement now
    let ordered ← positioned.withOrder names accountId decisionId request resolved settlement now
    .ok (ordered, row)

def exits (ledger : Ledger) (positionId : String) : List Decision :=
  ledger.decisions.values.filter fun decision =>
    decision.positionId = some positionId ∧ decision.orderSide = some .sell

def soldQuantity (ledger : Ledger) (positionId : String) : ℤ :=
  ((ledger.exits positionId).map Decision.filledQuantity).sum

def allocatedCost (ledger : Ledger) (positionId : String) : ℤ :=
  ((ledger.exits positionId).map fun decision => decision.positionCostBasis.getD 0).sum

end Ledger

def Position.cost (position : Position) : ℤ := position.entryNotional + position.entryFee

/-- The cost allocated once `sold` is sold: pro rata and cut off, and all of it in the end. -/
def Position.costOf (position : Position) (sold : ℤ) : ℤ :=
  if sold = position.entryQuantity then position.cost else position.cost * sold / position.entryQuantity

/-- The settlement of an exit: first the check of the remaining position. -/
def settleSell (position : Position) (sold : ℤ) (terms : OrderTerms) (prepared : PreparedDecision) (now : Instant) :
    Settlement :=
  if position.entryQuantity - sold < terms.quantity then
    .unfilled .rejected "exit_quantity_exceeds_remaining_position" terms.quantity terms.positive.le
  else .checked prepared terms.quantity terms.positive.le now

def sellRow (account : Account) (requestHash positionId : String) (terms : OrderTerms)
    (resolved : ResolvedOpportunity) (prepared : PreparedDecision) (settlement : Settlement) (costBasis : ℤ)
    (now : Instant) : Decision where
  accountSequence := account.journalSequence + 1
  requestHash := requestHash
  action := .execute
  resolved := resolved
  orderSide := some .sell
  positionId := some positionId
  timeInForce := some .immediateOrCancel
  terms := some terms
  status := settlement.status
  reason := settlement.reason
  evidence := prepared.quote
  fillFormulaVersion := prepared.formulaVersion
  feeRuleVersion := prepared.feeRuleVersion
  fills := settlement.fills
  filledQuantity := settlement.filledQuantity
  remainingQuantity := settlement.remainingQuantity
  averageFillPrice := settlement.averageFillPrice
  notional := settlement.notional
  fee := settlement.fee
  positionCostBasis := some costBasis
  realizedPnl := some (settlement.notional - settlement.fee - costBasis)
  cashBefore := account.cashBalance
  cashAfter := account.cashBalance + settlement.notional - settlement.fee
  createdAt := now

namespace Ledger

def commitExit (ledger : Ledger) (decisionId positionId requestHash : String) (terms : OrderTerms)
    (resolved : ResolvedOpportunity) (prepared : PreparedDecision) (now : Instant) :
    Except ServiceError (Ledger × Decision) :=
  match absent : ledger.decisions.get? decisionId with
  | some existing => (existing.replay requestHash).map fun decision => (ledger, decision)
  | none =>
    match ledger.positions.get? positionId with
    | none => .error .positionNotFound
    | some position =>
      let sold := ledger.soldQuantity positionId
      let settlement := settleSell position sold terms prepared now
      let soldAfter := sold + settlement.filledQuantity
      if position.entryQuantity < soldAfter then
        .error (.positionNotClosable "exit would oversell the paper position")
      else
        let costBasis := position.costOf soldAfter - ledger.allocatedCost positionId
        let row := sellRow ledger.account requestHash positionId terms resolved prepared settlement costBasis now
        .ok ({ ledger with
          account := { ledger.account with
            cashBalance := row.cashAfter
            journalSequence := row.accountSequence
            updatedAt := now }
          decisions := ledger.decisions.add decisionId row absent }, row)

def IsCancelled (ledger : Ledger) (orderId : String) : Prop :=
  ∃ cancellation ∈ ledger.cancellations.values, cancellation.orderId = orderId

instance (ledger : Ledger) : DecidablePred ledger.IsCancelled := fun orderId => by
  unfold IsCancelled
  infer_instance

def cancelOrder (ledger : Ledger) (orderId cancellationId : String) (now : Instant) :
    Except ServiceError (Ledger × Cancellation) :=
  match absent : ledger.cancellations.get? cancellationId with
  | some existing =>
    if existing.orderId ≠ orderId then .error .cancellationConflict else .ok (ledger, existing)
  | none =>
    match ledger.orders.get? orderId with
    | none => .error (.orderNotCancelable "paper order is not cancelable")
    | some order =>
      if ledger.IsCancelled orderId ∨ order.openQuantity ≤ 0 ∨ order.reservedCash ≤ 0 then
        .error (.orderNotCancelable "paper order is already terminal and not cancelable")
      else if ledger.account.reservedCash < order.reservedCash then .error .reservationContradiction
      else
        let cancellation : Cancellation := ⟨orderId, order.reservedCash, now⟩
        .ok ({ ledger with
          account := { ledger.account with
            reservedCash := ledger.account.reservedCash - order.reservedCash
            updatedAt := now }
          cancellations := ledger.cancellations.add cancellationId cancellation absent
          orderEvents := ledger.orderEvents ++
            [⟨orderId, 2, .cancelled, some cancellationId, order.openQuantity, order.reservedCash, now⟩] },
          cancellation)

def create (name : String) (startingCash : ℤ) (now : Instant) : Ledger where
  account :=
    { name := name
      startingCash := startingCash
      cashBalance := startingCash
      reservedCash := 0
      journalSequence := 0
      createdAt := now
      updatedAt := now }

end Ledger

abbrev Store := Dict String Ledger

inductive Transaction where
  | createAccount (accountId name : String) (startingCash : ℤ) (now : Instant)
  | commitPrepared (accountId decisionId requestHash : String) (request : DecisionRequest)
      (resolved : ResolvedOpportunity) (preparation : Preparation) (now : Instant)
  | commitExit (accountId decisionId positionId requestHash : String) (terms : OrderTerms)
      (resolved : ResolvedOpportunity) (preparation : Preparation) (now : Instant)
  | cancelOrder (accountId orderId cancellationId : String) (now : Instant)

namespace Store

def onAccount {α : Type} (store : Store) (accountId : String)
    (change : Ledger → Except ServiceError (Ledger × α)) : Except ServiceError (Store × α) :=
  match store.get? accountId with
  | none => .error .accountNotFound
  | some ledger => (change ledger).map fun result => (store.set accountId result.1, result.2)

/-- The name is stripped by the caller, the id is new, and names are unique. -/
def createAccount (store : Store) (accountId name : String) (startingCash : ℤ) (now : Instant) :
    Except ServiceError Store :=
  if name = "" then .error (.invalid "name is required")
  else if startingCash < 0 then .error (.invalid "starting_cash must be non-negative")
  else if absent : store.get? accountId = none then
    if store.values.any fun ledger => ledger.account.name = name then
      .error (.integrity "uq_kalshi_paper_accounts_name")
    else .ok (store.add accountId (Ledger.create name startingCash now) absent)
  else .error (.integrity "kalshi_paper_accounts_pkey")

def apply (names : RowNames) (store : Store) : Transaction → Except ServiceError Store
  | .createAccount accountId name startingCash now => store.createAccount accountId name startingCash now
  | .commitPrepared accountId decisionId requestHash request resolved preparation now =>
    (store.onAccount accountId fun ledger =>
      ledger.commitPrepared names accountId decisionId requestHash request resolved
        (prepareBuy request resolved preparation) now).map Prod.fst
  | .commitExit accountId decisionId positionId requestHash terms resolved preparation now => do
    let prepared ← prepareSell terms resolved preparation
    (store.onAccount accountId fun ledger =>
      ledger.commitExit decisionId positionId requestHash terms resolved prepared now).map Prod.fst
  | .cancelOrder accountId orderId cancellationId now =>
    (store.onAccount accountId fun ledger => ledger.cancelOrder orderId cancellationId now).map Prod.fst

def step (names : RowNames) (store : Store) (transaction : Transaction) : Store :=
  match store.apply names transaction with
  | .ok next => next
  | .error _ => store

end Store

end Callisto.Paper
