import Callisto.Execution.Records

/-! The operations of the execution ledger, statement by statement, within a transaction of their caller. -/

namespace Callisto.Execution

open Callisto.Library
open Callisto.Ws (strip)

/-- What the world gives a statement: `uuid4()` and `datetime.now()`. -/
structure Moment where
  uuid : String
  now : ℤ

abbrev LedgerTask := Task LedgerStore Moment (Except LedgerError Row)

def raise (error : LedgerError) : LedgerTask := .done (.error error)

def conflict (text : String) : LedgerTask := raise (.conflict text)

/-- `VenueOrderIntentRecord.id == id` -/
def findIntent (client : ℕ) (id : String) (store : LedgerStore) : Option VenueOrderIntentRecord :=
  (store.visible client).findSome? fun
    | .intent record => if record.id = id then some record else none
    | _ => none

def findClientOrder (client : ℕ) (venue : VenueName) (clientOrderId : String) (store : LedgerStore) :
    Option VenueOrderIntentRecord :=
  (store.visible client).findSome? fun
    | .intent record => if record.facts.venue = venue ∧ record.facts.clientOrderId = clientOrderId then some record else none
    | _ => none

def findAcknowledgement (client : ℕ) (intentId : String) (store : LedgerStore) : Option VenueProviderAcknowledgementRecord :=
  (store.visible client).findSome? fun
    | .acknowledgement record => if record.facts.intentId = intentId then some record else none
    | _ => none

def findProviderOrder (client : ℕ) (venue : VenueName) (providerOrderId : String) (store : LedgerStore) :
    Option VenueProviderAcknowledgementRecord :=
  (store.visible client).findSome? fun
    | .acknowledgement record =>
      if record.facts.venue = venue ∧ record.facts.providerOrderId = providerOrderId then some record else none
    | _ => none

def findEvent (client : ℕ) (intentId dedupeKey : String) (store : LedgerStore) : Option VenueExecutionEvent :=
  (store.visible client).findSome? fun
    | .event record => if record.intentId = intentId ∧ record.facts.dedupeKey = dedupeKey then some record else none
    | _ => none

def findProviderEvent (client : ℕ) (venue : VenueName) (providerEventId : String) (store : LedgerStore) :
    Option VenueExecutionEvent :=
  (store.visible client).findSome? fun
    | .event record =>
      if record.facts.venue = venue ∧ record.facts.providerEventId = some providerEventId then some record else none
    | _ => none

/-- `max(sequence) or 0` over the events of an intent. -/
def maxSequence (client : ℕ) (intentId : String) (store : LedgerStore) : ℕ :=
  ((store.visible client).filterMap fun
    | .event record => if record.intentId = intentId then some record.sequence else none
    | _ => none).foldl max 0

/-- An insert of the session, and what the program does on its outcome. -/
def insertRow (client : ℕ) (arbiters : RowKey → Bool) (row : Moment → Row) (next : Moment → Inserted → LedgerTask) : LedgerTask :=
  .step (Store.insertWith ledgerTables client arbiters row) fun reply => next reply.1 reply.2

/-- The `values` of `record_intent` that are compared. -/
def intentFacts (intent : VenueOrderIntent) (provenance : VenueIntentProvenance) : Except LedgerError IntentFacts := do
  let quantity ← exactNumeric intent.quantity "quantity"
  let limitPrice ← exactNumeric intent.limitPrice "limit_price"
  .ok {
    venue := intent.venue
    clientOrderId := intent.clientOrderId
    instrumentId := intent.instrumentId
    bookSide := intent.bookSide
    quantity := quantity
    limitPrice := limitPrice
    timeInForce := intent.timeInForce
    postOnly := intent.postOnly
    source := provenance.source
    sourceId := optionalText provenance.sourceId
    decisionId := optionalText provenance.decisionId
    strategyKey := optionalText provenance.strategyKey
    strategyVersion := provenance.strategyVersion
    traceId := optionalText provenance.traceId
    authenticatedPrincipalFingerprint := provenance.authenticatedPrincipalFingerprint }

def initialEvent (record : VenueOrderIntentRecord) (id : String) : VenueExecutionEvent where
  id := id
  intentId := record.id
  sequence := 1
  facts := {
    venue := record.facts.venue
    eventType := "intent_recorded"
    source := record.facts.source
    dedupeKey := "intent_recorded:v1"
    providerOrderId := none
    providerEventId := none
    occurredAt := record.createdAt
    payload := objectEvidence [] }
  createdAt := record.createdAt

/-- The intent that the client order id already names, if its facts are the same. -/
def canonicalIntent (client : ℕ) (values : IntentFacts) : LedgerTask :=
  .read (findClientOrder client values.venue values.clientOrderId) fun
    | none => conflict "client_order_id conflict did not expose a canonical intent"
    | some existing =>
      if intentMatches existing values then .done (.ok (.intent existing))
      else conflict "client_order_id is already bound to different immutable intent facts"

def isClientOrder : RowKey → Bool
  | .clientOrder _ _ => true
  | _ => false

def recordIntent (client : ℕ) (intent : VenueOrderIntent) (provenance : VenueIntentProvenance) : LedgerTask :=
  match intentFacts intent provenance with
  | .error error => raise error
  | .ok values =>
    insertRow client isClientOrder (fun moment => .intent ⟨moment.uuid, values, moment.now⟩) fun moment reply =>
      match reply with
      | .violated => raise .integrityError
      | .skipped => canonicalIntent client values
      | .inserted =>
        let record : VenueOrderIntentRecord := ⟨moment.uuid, values, moment.now⟩
        insertRow client (fun _ => false) (fun moment => .event (initialEvent record moment.uuid)) fun _ reply =>
          match reply with
          | .inserted =>
            .read (findIntent client record.id) fun
              | none => raise (.runtimeError "inserted venue order intent was not readable")
              | some found => .done (.ok (.intent found))
          | _ => raise .integrityError

/-- The arguments of `record_event`. -/
structure EventRequest where
  intentId : String
  eventType : String
  source : String
  dedupeKey : String
  occurredAt : Timestamp
  payload : List (String × PayloadValue) := []
  providerOrderId : Option String := none
  providerEventId : Option String := none

/-- The arguments are normalized and checked: what is expected of the event, but for the venue of its intent. -/
def EventRequest.expected (request : EventRequest) : Except LedgerError (VenueName → EventFacts) :=
  if strip request.eventType = "" ∨ strip request.eventType = "intent_recorded" then
    .error (.valueError "event_type is required and intent_recorded is reserved")
  else if strip request.source = "" ∨ strip request.dedupeKey = "" then
    .error (.valueError "event source and dedupe_key are required")
  else
    match request.occurredAt with
    | .naive => .error (.valueError "event occurred_at must be timezone-aware")
    | .aware instant => do
      let payload ← jsonEvidence (.mapping request.payload)
      .ok fun venue => {
        venue := venue
        eventType := strip request.eventType
        source := strip request.source
        dedupeKey := strip request.dedupeKey
        providerOrderId := optionalText request.providerOrderId
        providerEventId := optionalText request.providerEventId
        occurredAt := instant
        payload := payload }

def appendEvent (client : ℕ) (intentId : String) (facts : EventFacts) : LedgerTask :=
  .read (maxSequence client intentId) fun last =>
    insertRow client (fun _ => false) (fun moment => .event ⟨moment.uuid, intentId, last + 1, facts, moment.now⟩) fun moment reply =>
      match reply with
      | .inserted => .done (.ok (.event ⟨moment.uuid, intentId, last + 1, facts, moment.now⟩))
      | _ => raise .integrityError

/-- The event of the dedupe key, or a new one whose provider event is nobody's. -/
def recordFacts (client : ℕ) (intentId : String) (expected : EventFacts) : LedgerTask :=
  .read (findEvent client intentId expected.dedupeKey) fun
    | some existing =>
      if eventMatches existing expected then .done (.ok (.event existing))
      else conflict "event dedupe_key is already bound to different immutable evidence"
    | none =>
      match expected.providerEventId with
      | none => appendEvent client intentId expected
      | some providerEventId =>
        .read (findProviderEvent client expected.venue providerEventId) fun
          | some _ => conflict "provider_event_id is already bound to different immutable evidence"
          | none => appendEvent client intentId expected

def recordEvent (client : ℕ) (request : EventRequest) : LedgerTask :=
  match request.expected with
  | .error error => raise error
  | .ok expected =>
    .step (Store.selectForUpdate client request.intentId (findIntent client request.intentId)) fun
      | none => conflict "unknown order intent"
      | some intent =>
        match (expected intent.facts.venue).providerOrderId with
        | none =>
          if (expected intent.facts.venue).providerEventId.isSome then
            raise (.valueError "provider_event_id requires provider_order_id")
          else recordFacts client request.intentId (expected intent.facts.venue)
        | some providerOrderId =>
          .read (findAcknowledgement client request.intentId) fun acknowledgement =>
            if acknowledgement.map (fun record => record.facts.providerOrderId) = some providerOrderId then
              recordFacts client request.intentId (expected intent.facts.venue)
            else conflict "provider_order_id does not match the intent's immutable acknowledgement"

def acknowledgedQuantity (acknowledgement : VenueInitialAcknowledgement) : ℤ :=
  Rounding.roundSig 39 (acknowledgement.filledQuantity.1 + acknowledgement.remainingQuantity.1)

def acknowledgementFacts (intent : VenueOrderIntentRecord) (acknowledgement : VenueInitialAcknowledgement) :
    AcknowledgementFacts where
  intentId := intent.id
  venue := intent.facts.venue
  clientOrderId := intent.facts.clientOrderId
  providerOrderId := acknowledgement.providerOrderId
  providerStatus := acknowledgement.providerStatus
  filledQuantity := acknowledgement.filledQuantity
  remainingQuantity := acknowledgement.remainingQuantity
  providerTimestamp := acknowledgement.providerTimestamp
  payload := acknowledgement.payload

def acknowledgedEvent (facts : AcknowledgementFacts) (sequence : ℕ) (createdAt : ℤ) (id : String) : VenueExecutionEvent where
  id := id
  intentId := facts.intentId
  sequence := sequence
  facts := {
    venue := facts.venue
    eventType := "submission_acknowledged"
    source := "provider_acknowledgement"
    dedupeKey := "submission_acknowledged:" ++ facts.providerOrderId
    providerOrderId := some facts.providerOrderId
    providerEventId := none
    occurredAt := facts.providerTimestamp
    payload := facts.payload }
  createdAt := createdAt

/-- The acknowledgement that the intent already has, if its facts are the same. -/
def canonicalAcknowledgement (client : ℕ) (values : AcknowledgementFacts) : LedgerTask :=
  .read (findAcknowledgement client values.intentId) fun
    | some existing =>
      if acknowledgementMatches existing values then .done (.ok (.acknowledgement existing))
      else conflict "intent already has a different immutable provider acknowledgement"
    | none =>
      .read (findProviderOrder client values.venue values.providerOrderId) fun
        | some _ => conflict "provider_order_id is already bound to another order intent"
        | none => conflict "provider acknowledgement conflict did not expose a canonical record"

def insertAcknowledgement (client : ℕ) (values : AcknowledgementFacts) : LedgerTask :=
  insertRow client (fun _ => true) (fun moment => .acknowledgement ⟨values, moment.now⟩) fun created reply =>
    match reply with
    | .violated => raise .integrityError
    | .skipped => canonicalAcknowledgement client values
    | .inserted =>
      .read (maxSequence client values.intentId) fun last =>
        insertRow client (fun _ => false) (fun moment => .event (acknowledgedEvent values (last + 1) created.now moment.uuid))
          fun _ reply =>
            match reply with
            | .inserted =>
              .read (findAcknowledgement client values.intentId) fun
                | none => raise (.runtimeError "inserted provider acknowledgement was not readable")
                | some record => .done (.ok (.acknowledgement record))
            | _ => raise .integrityError

def recordInitialAcknowledgement (client : ℕ) (intentId : String) (acknowledgement : VenueInitialAcknowledgement) : LedgerTask :=
  .step (Store.selectForUpdate client intentId (findIntent client intentId)) fun
    | none => conflict "unknown order intent"
    | some intent =>
      if intent.facts.venue ≠ acknowledgement.venue then conflict "acknowledgement venue does not match intent"
      else if intent.facts.clientOrderId ≠ acknowledgement.clientOrderId then
        conflict "acknowledgement client_order_id does not match intent"
      else if acknowledgedQuantity acknowledgement ≠ intent.facts.quantity.1 then
        conflict "acknowledgement quantity does not match the intended quantity"
      else insertAcknowledgement client (acknowledgementFacts intent acknowledgement)

inductive LedgerCall where
  | recordIntent (intent : VenueOrderIntent) (provenance : VenueIntentProvenance)
  | recordEvent (request : EventRequest)
  | recordInitialAcknowledgement (intentId : String) (acknowledgement : VenueInitialAcknowledgement)

def VenueExecutionLedger (client : ℕ) : LedgerCall → LedgerTask
  | .recordIntent intent provenance => recordIntent client intent provenance
  | .recordEvent request => recordEvent client request
  | .recordInitialAcknowledgement intentId acknowledgement => recordInitialAcknowledgement client intentId acknowledgement

/-- Clients that call the ledger in transactions that they commit or roll back. -/
abbrev ledgerClients : Clients LedgerStore Moment LedgerCall Store.Closing (Except LedgerError Row) :=
  Store.clients VenueExecutionLedger

abbrev LedgerPool := Pool LedgerStore Moment LedgerCall (Except LedgerError Row)

def emptyLedger : LedgerPool := { state := {} }

end Callisto.Execution
