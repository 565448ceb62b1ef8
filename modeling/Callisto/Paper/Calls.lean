import Callisto.Paper.AdvisoryLocks
import Callisto.Paper.CommitCases
import Mathlib.Logic.Function.Basic

/-! The decision and exit calls of the paper service as the steps they take: a first look, the advisory
locks, the transaction of the intent, the quote, the transaction of the decision, and the unlocking.
Calls interleave in any order, and a call can break off between any two steps. -/

namespace Callisto.Paper

open Callisto.Library Callisto.Library.Runs

inductive Call where
  | recordDecision (accountId decisionId opportunityId opportunityRevision : String) (request : DecisionRequest)
  | recordExit (accountId decisionId positionId : String) (terms : OrderTerms)
  deriving DecidableEq

namespace Call

def accountId : Call → String
  | recordDecision accountId _ _ _ _ => accountId
  | recordExit accountId _ _ _ => accountId

def decisionId : Call → String
  | recordDecision _ decisionId _ _ _ => decisionId
  | recordExit _ decisionId _ _ => decisionId

def locking : Call → LockingCall
  | recordDecision accountId decisionId _ _ _ => .recordDecision accountId decisionId
  | recordExit accountId decisionId positionId _ => .recordExit accountId decisionId positionId

end Call

inductive Began where
  | finished (decision : Decision)
  | resumed (resolved : ResolvedOpportunity)
  | inserted (resolved : ResolvedOpportunity)

namespace Ledger

def decisionIntent (requestHash : String) (request : DecisionRequest) (resolved : ResolvedOpportunity)
    (now : Instant) : Intent where
  requestHash := requestHash
  action := request.action
  resolved := resolved
  orderSide := none
  positionId := none
  timeInForce := match request with
    | .execute _ .goodTillCanceled => some .goodTillCanceled
    | _ => none
  terms := request.terms
  createdAt := now

def exitIntent (requestHash positionId : String) (terms : OrderTerms) (resolved : ResolvedOpportunity)
    (now : Instant) : Intent where
  requestHash := requestHash
  action := .execute
  resolved := resolved
  orderSide := some .sell
  positionId := some positionId
  timeInForce := some .immediateOrCancel
  terms := some terms
  createdAt := now

/-- The first transaction of a decision call. An intent that an earlier call left behind is rejected in it. -/
def beginDecision (names : RowNames) (ledger : Ledger) (accountId decisionId opportunityRevision requestHash : String)
    (request : DecisionRequest) (resolution : Except ServiceError ResolvedOpportunity) (now : Instant) :
    Except ServiceError (Ledger × Began) :=
  match ledger.decisions.get? decisionId with
  | some existing => (existing.replay requestHash).map fun decision => (ledger, .finished decision)
  | none =>
    match absent : ledger.intents.get? decisionId with
    | some intent =>
      if intent.requestHash ≠ requestHash then .error .decisionConflict
      else
        (ledger.commitPrepared names accountId decisionId requestHash request intent.resolved
          (prepareBuy request intent.resolved .resumed) now).map fun result => (result.1, .finished result.2)
    | none => do
      let resolved ← resolution
      if resolved.revision ≠ opportunityRevision then
        .error (.opportunityIneligible "opportunity revision changed; refresh eligibility")
      else
        .ok ({ ledger with
          intents := ledger.intents.add decisionId (decisionIntent requestHash request resolved now) absent },
          .inserted resolved)

def unresolvedExits (ledger : Ledger) (positionId : String) : List String :=
  (ledger.intents.entries.filter fun entry =>
    entry.2.positionId = some positionId ∧ entry.2.orderSide = some .sell ∧
      (ledger.decisions.get? entry.1).isNone).map Prod.fst

/-- The first transaction of an exit call. An intent that an earlier call left behind is taken up again. -/
def beginExit (ledger : Ledger) (decisionId positionId requestHash : String) (terms : OrderTerms) (now : Instant) :
    Except ServiceError (Ledger × Began) :=
  match ledger.decisions.get? decisionId with
  | some existing => (existing.replay requestHash).map fun decision => (ledger, .finished decision)
  | none =>
    match absent : ledger.intents.get? decisionId with
    | some intent =>
      if intent.requestHash ≠ requestHash then .error .decisionConflict else .ok (ledger, .resumed intent.resolved)
    | none =>
      match ledger.positions.get? positionId with
      | none => .error .positionNotFound
      | some position =>
        match ledger.decisions.get? position.entryDecisionId with
        | none => .error .positionNotFound
        | some entry =>
          match ledger.unresolvedExits positionId with
          | unresolved :: _ => .error (.unresolvedExitIntent unresolved)
          | [] =>
            let remaining := position.entryQuantity - ledger.soldQuantity positionId
            if remaining ≤ 0 then .error (.positionNotClosable "paper position is already closed")
            else if remaining < terms.quantity then
              .error (.positionNotClosable "exit quantity exceeds the remaining paper position")
            else
              let resolved := { entry.resolved with ticker := position.ticker, outcome := position.outcome }
              .ok ({ ledger with
                intents := ledger.intents.add decisionId (exitIntent requestHash positionId terms resolved now) absent },
                .inserted resolved)

end Ledger

/-- What comes in from outside with a step: the active opportunity, the fetched quote, the clock. -/
structure Input where
  resolution : Except ServiceError ResolvedOpportunity
  fetched : Except ProtocolError PaperQuote
  now : Instant

inductive CallResult where
  | returned (decision : Decision)
  | raised (error : ServiceError)
  | brokenOff

inductive Progress where
  | idle
  | reading (call : Call)
  | locking (call : Call) (acquired todo : List ℤ)
  | intending (call : Call)
  | fetching (call : Call) (resolved : ResolvedOpportunity)
  | committing (call : Call) (resolved : ResolvedOpportunity) (prepared : PreparedDecision)
  | unlocking (call : Call) (result : CallResult)
  | ended (call : Call) (result : CallResult)

structure Environment where
  names : RowNames
  decisionLockKey : LockName → ℤ
  requestHash : Call → String

namespace Call

variable (env : Environment)

def readExisting (store : Store) (call : Call) : Except ServiceError (Option Decision) :=
  match (store.get? call.accountId).bind fun ledger => ledger.decisions.get? call.decisionId with
  | none => .ok none
  | some existing => (existing.replay (env.requestHash call)).map some

def begin (call : Call) (ledger : Ledger) (input : Input) : Except ServiceError (Ledger × Began) :=
  match call with
  | recordDecision accountId decisionId _ opportunityRevision request =>
    ledger.beginDecision env.names accountId decisionId opportunityRevision (env.requestHash call) request
      input.resolution input.now
  | recordExit _ decisionId positionId terms =>
    ledger.beginExit decisionId positionId (env.requestHash call) terms input.now

def prepare (call : Call) (resolved : ResolvedOpportunity) (preparation : Preparation) :
    Except ServiceError PreparedDecision :=
  match call with
  | recordDecision _ _ _ _ request => .ok (prepareBuy request resolved preparation)
  | recordExit _ _ _ terms => prepareSell terms resolved preparation

def commit (call : Call) (ledger : Ledger) (resolved : ResolvedOpportunity) (prepared : PreparedDecision)
    (now : Instant) : Except ServiceError (Ledger × Decision) :=
  match call with
  | recordDecision accountId decisionId _ _ request =>
    ledger.commitPrepared env.names accountId decisionId (env.requestHash call) request resolved prepared now
  | recordExit _ decisionId positionId terms =>
    ledger.commitExit decisionId positionId (env.requestHash call) terms resolved prepared now

def lockKeys (call : Call) : List ℤ := call.locking.lockKeys env.decisionLockKey

def proceed (call : Call) (resolved : ResolvedOpportunity) (preparation : Preparation) : Progress :=
  match call.prepare resolved preparation with
  | .ok prepared => .committing call resolved prepared
  | .error error => .unlocking call (.raised error)

end Call

/-- The database, the holders of the advisory locks, and the calls. -/
structure Machine where
  store : Store
  holder : ℤ → Option ℕ
  calls : ℕ → Progress

inductive Event where
  | createAccount (accountId name : String) (startingCash : ℤ) (now : Instant)
  | cancelOrder (accountId orderId cancellationId : String) (now : Instant)
  | start (client : ℕ) (call : Call)
  | advance (client : ℕ) (input : Input)
  | breakOff (client : ℕ)

namespace Machine

variable (env : Environment)

def initial : Machine where
  store := Dict.empty
  holder _ := none
  calls _ := .idle

def goTo (machine : Machine) (client : ℕ) (progress : Progress) : Machine :=
  { machine with calls := Function.update machine.calls client progress }

def release (machine : Machine) (client : ℕ) : Machine :=
  { machine with holder := fun key => if machine.holder key = some client then none else machine.holder key }

def advance (machine : Machine) (client : ℕ) (input : Input) : Machine :=
  match machine.calls client with
  | .idle => machine
  | .reading call =>
    match call.readExisting env machine.store with
    | .error error => machine.goTo client (.ended call (.raised error))
    | .ok (some decision) => machine.goTo client (.ended call (.returned decision))
    | .ok none => machine.goTo client (.locking call [] (call.lockKeys env))
  | .locking call _ [] => machine.goTo client (.intending call)
  | .locking call acquired (key :: todo) =>
    match machine.holder key with
    | some _ => machine
    | none =>
      { machine with holder := Function.update machine.holder key (some client) }.goTo client
        (.locking call (acquired ++ [key]) todo)
  | .intending call =>
    match machine.store.onAccount call.accountId fun ledger => call.begin env ledger input with
    | .error error => machine.goTo client (.unlocking call (.raised error))
    | .ok (store, .finished decision) =>
      { machine with store := store }.goTo client (.unlocking call (.returned decision))
    | .ok (store, .resumed resolved) => { machine with store := store }.goTo client (call.proceed resolved .resumed)
    | .ok (store, .inserted resolved) => { machine with store := store }.goTo client (.fetching call resolved)
  | .fetching call resolved => machine.goTo client (call.proceed resolved (.fetched input.fetched))
  | .committing call resolved prepared =>
    match machine.store.onAccount call.accountId fun ledger => call.commit env ledger resolved prepared input.now with
    | .error error => machine.goTo client (.unlocking call (.raised error))
    | .ok (store, decision) => { machine with store := store }.goTo client (.unlocking call (.returned decision))
  | .unlocking call result => (machine.release client).goTo client (.ended call result)
  | .ended _ _ => machine

def breakOff (machine : Machine) (client : ℕ) : Machine :=
  match machine.calls client with
  | .idle => machine
  | .reading call => machine.goTo client (.ended call .brokenOff)
  | .locking call _ _ => (machine.release client).goTo client (.ended call .brokenOff)
  | .intending call => (machine.release client).goTo client (.ended call .brokenOff)
  | .fetching call _ => (machine.release client).goTo client (.ended call .brokenOff)
  | .committing call _ _ => (machine.release client).goTo client (.ended call .brokenOff)
  | .unlocking call _ => (machine.release client).goTo client (.ended call .brokenOff)
  | .ended _ _ => machine

def step (machine : Machine) : Event → Machine
  | .createAccount accountId name startingCash now =>
    { machine with
      store := machine.store.step env.names (.createAccount accountId name startingCash now) }
  | .cancelOrder accountId orderId cancellationId now =>
    { machine with
      store := machine.store.step env.names (.cancelOrder accountId orderId cancellationId now) }
  | .start client call =>
    match machine.calls client with
    | .idle => machine.goTo client (.reading call)
    | _ => machine
  | .advance client input => machine.advance env client input
  | .breakOff client => machine.breakOff client

end Machine

end Callisto.Paper
