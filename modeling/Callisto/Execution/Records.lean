import Callisto.Library.Transactions
import Callisto.Ws.Payload

/-! The records of the execution ledger: order intents, their events and their provider acknowledgements. -/

namespace Callisto.Execution

open Callisto.Library
open Callisto.Ws (DecimalValue strip)

inductive LedgerError where
  | valueError (text : String)
  | typeError (text : String)
  | conflict (text : String)
  | runtimeError (text : String)
  | integrityError
  deriving DecidableEq

inductive VenueName where
  | kalshi
  | polymarket
  deriving DecidableEq

inductive BookSide where
  | bid
  | ask
  deriving DecidableEq

inductive TimeInForce where
  | goodTillCanceled
  | immediateOrCancel
  | fillOrKill
  deriving DecidableEq

/-- A datetime: without a timezone, or an instant in microseconds. -/
inductive Timestamp where
  | naive
  | aware (instant : ℤ)

/-- A quantity or a price in units of `10 ^ -18`. -/
abbrev Amount := { units : ℤ // |units| < 10 ^ 38 }

/-- `_exact_numeric` -/
def exactNumeric (value : DecimalValue) (fieldName : String) : Except LedgerError Amount :=
  if value.exponent < -18 then .error (.valueError s!"{fieldName} exceeds 18 decimal places")
  else
    let units := value.coefficient * 10 ^ (value.exponent + 18).toNat
    if bounded : |units| < 10 ^ 38 then .ok ⟨units, bounded⟩
    else .error (.valueError s!"{fieldName} exceeds 20 integer digits")

/-- `_optional_text` -/
def optionalText (value : Option String) : Option String :=
  match value with
  | none => none
  | some text => if strip text = "" then none else some (strip text)

/-- What a caller may put into a payload: a `Decimal` by its fixed-point text, a datetime by its text in UTC if it has a
timezone. -/
inductive PayloadValue where
  | null
  | bool (value : Bool)
  | int (value : ℤ)
  | str (value : String)
  | decimal (text : String)
  | datetime (text : Option String)
  | float
  | other (typeName : String)
  | sequence (items : List PayloadValue)
  | mapping (entries : List (String × PayloadValue))

inductive Token where
  | null
  | bool (value : Bool)
  | int (value : ℤ)
  | str (value : String)
  | openArray
  | closeArray
  | openObject
  | key (name : String)
  | closeObject
  deriving DecidableEq

/-- A JSON document. The order of an object's keys says nothing: they are sorted. -/
abbrev Evidence := List Token

/-- One more entry of a dict, in the order of the keys; the last of a key wins. -/
def putEntry (name : String) (value : Evidence) : List (String × Evidence) → List (String × Evidence)
  | [] => [(name, value)]
  | (other, found) :: rest =>
    if other = name then (name, value) :: rest
    else if name < other then (name, value) :: (other, found) :: rest
    else (other, found) :: putEntry name value rest

def objectEvidence (entries : List (String × Evidence)) : Evidence :=
  .openObject :: (entries.flatMap fun entry => .key entry.1 :: entry.2) ++ [.closeObject]

mutual

/-- `_json_evidence` -/
def jsonEvidence : PayloadValue → Except LedgerError Evidence
  | .null => .ok [.null]
  | .bool value => .ok [.bool value]
  | .int value => .ok [.int value]
  | .str value => .ok [.str value]
  | .decimal text => .ok [.str text]
  | .datetime none => .error (.valueError "JSON evidence datetimes must be timezone-aware")
  | .datetime (some text) => .ok [.str text]
  | .float => .error (.typeError "JSON financial evidence cannot contain binary floats")
  | .other typeName => .error (.typeError s!"unsupported JSON evidence type: {typeName}")
  | .sequence items => do
    let documents ← jsonItems items
    .ok (.openArray :: documents ++ [.closeArray])
  | .mapping entries => do
    let documents ← jsonEntries [] entries
    .ok (objectEvidence documents)

def jsonItems : List PayloadValue → Except LedgerError Evidence
  | [] => .ok []
  | item :: rest => do
    let document ← jsonEvidence item
    let documents ← jsonItems rest
    .ok (document ++ documents)

def jsonEntries (found : List (String × Evidence)) : List (String × PayloadValue) → Except LedgerError (List (String × Evidence))
  | [] => .ok found
  | (name, value) :: rest => do
    let document ← jsonEvidence value
    jsonEntries (putEntry name document found) rest

end

def Token.plain : Token → Token
  | .bool value => .int (if value then 1 else 0)
  | token => token

/-- `==` of two payloads. -/
def samePayload (first second : Evidence) : Prop := first.map Token.plain = second.map Token.plain

instance (first second : Evidence) : Decidable (samePayload first second) := inferInstanceAs (Decidable (_ = _))

theorem samePayload_refl (payload : Evidence) : samePayload payload payload := rfl

/-- A validated `VenueOrderIntent`. -/
structure VenueOrderIntent where
  venue : VenueName
  instrumentId : String
  clientOrderId : String
  bookSide : BookSide
  quantity : DecimalValue
  limitPrice : DecimalValue
  timeInForce : TimeInForce := .goodTillCanceled
  postOnly : Bool := false
  identified : instrumentId ≠ "" ∧ clientOrderId ≠ ""
  sized : 0 < quantity.coefficient
  priced : 0 < limitPrice.coefficient ∧ limitPrice.exponent < 0 ∧
    limitPrice.coefficient < 10 ^ (-limitPrice.exponent).toNat

/-- `VenueOrderIntent.__post_init__` -/
def VenueOrderIntent.create (venue : VenueName) (instrumentId clientOrderId : String) (bookSide : BookSide)
    (quantity limitPrice : DecimalValue) (timeInForce : TimeInForce) (postOnly : Bool) : Except LedgerError VenueOrderIntent :=
  if instrument : strip instrumentId = "" then .error (.valueError "instrument_id is required")
  else if order : strip clientOrderId = "" then .error (.valueError "client_order_id is required")
  else if sized : 0 < quantity.coefficient then
    if priced : 0 < limitPrice.coefficient ∧ limitPrice.exponent < 0 ∧
        limitPrice.coefficient < 10 ^ (-limitPrice.exponent).toNat then
      .ok ⟨venue, strip instrumentId, strip clientOrderId, bookSide, quantity, limitPrice, timeInForce, postOnly,
        ⟨instrument, order⟩, sized, priced⟩
    else .error (.valueError "limit_price must be greater than 0 and less than 1")
  else .error (.valueError "quantity must be a positive finite decimal")

def isFingerprint (text : String) : Bool :=
  text.length = 64 && text.toList.all fun char => ('0' ≤ char && char ≤ '9') || ('a' ≤ char && char ≤ 'f')

/-- A validated `VenueIntentProvenance`. -/
structure VenueIntentProvenance where
  source : String
  sourceId : Option String := none
  decisionId : Option String := none
  strategyKey : Option String := none
  strategyVersion : Option ℤ := none
  traceId : Option String := none
  authenticatedPrincipalFingerprint : Option String := none
  sourced : source ≠ ""
  fingerprinted : ∀ text ∈ authenticatedPrincipalFingerprint, isFingerprint text

/-- `VenueIntentProvenance.__post_init__` -/
def VenueIntentProvenance.create (source : String) (sourceId decisionId strategyKey : Option String) (strategyVersion : Option ℤ)
    (traceId authenticatedPrincipalFingerprint : Option String) : Except LedgerError VenueIntentProvenance :=
  if sourced : strip source = "" then .error (.valueError "provenance source is required")
  else if fingerprinted : ∀ text ∈ authenticatedPrincipalFingerprint, isFingerprint text then
    .ok ⟨strip source, sourceId, decisionId, strategyKey, strategyVersion, traceId, authenticatedPrincipalFingerprint, sourced,
      fingerprinted⟩
  else .error (.valueError "authenticated principal fingerprint must be a lowercase SHA-256")

/-- A validated `VenueInitialAcknowledgement`. -/
structure VenueInitialAcknowledgement where
  venue : VenueName
  clientOrderId : String
  providerOrderId : String
  providerStatus : String
  filledQuantity : Amount
  remainingQuantity : Amount
  providerTimestamp : ℤ
  payload : Evidence
  identified : clientOrderId ≠ "" ∧ providerOrderId ≠ "" ∧ providerStatus ≠ ""
  nonnegative : 0 ≤ filledQuantity.1 ∧ 0 ≤ remainingQuantity.1

def readVenue (text : String) : Option VenueName :=
  if text = "kalshi" then some .kalshi else if text = "polymarket" then some .polymarket else none

/-- `VenueInitialAcknowledgement.__post_init__` -/
def VenueInitialAcknowledgement.create (venue clientOrderId providerOrderId providerStatus : String)
    (filledQuantity remainingQuantity : DecimalValue) (providerTimestamp : Timestamp) (payload : List (String × PayloadValue)) :
    Except LedgerError VenueInitialAcknowledgement :=
  match readVenue (strip venue) with
  | none => .error (.valueError "unsupported acknowledgement venue")
  | some venue =>
    if identified : strip clientOrderId ≠ "" ∧ strip providerOrderId ≠ "" ∧ strip providerStatus ≠ "" then do
      let filled ← exactNumeric filledQuantity "filled_quantity"
      let remaining ← exactNumeric remainingQuantity "remaining_quantity"
      if nonnegative : 0 ≤ filled.1 ∧ 0 ≤ remaining.1 then
        match providerTimestamp with
        | .naive => .error (.valueError "provider_timestamp must be timezone-aware")
        | .aware instant => do
          let evidence ← jsonEvidence (.mapping payload)
          .ok ⟨venue, strip clientOrderId, strip providerOrderId, strip providerStatus, filled, remaining, instant, evidence,
            identified, nonnegative⟩
      else .error (.valueError "acknowledgement quantities cannot be negative")
    else .error (.valueError "acknowledgement identities and status are required")

structure IntentFacts where
  venue : VenueName
  clientOrderId : String
  instrumentId : String
  bookSide : BookSide
  quantity : Amount
  limitPrice : Amount
  timeInForce : TimeInForce
  postOnly : Bool
  source : String
  sourceId : Option String
  decisionId : Option String
  strategyKey : Option String
  strategyVersion : Option ℤ
  traceId : Option String
  authenticatedPrincipalFingerprint : Option String
  deriving DecidableEq

structure VenueOrderIntentRecord where
  id : String
  facts : IntentFacts
  createdAt : ℤ
  deriving DecidableEq

structure EventFacts where
  venue : VenueName
  eventType : String
  source : String
  dedupeKey : String
  providerOrderId : Option String
  providerEventId : Option String
  occurredAt : ℤ
  payload : Evidence
  deriving DecidableEq

structure VenueExecutionEvent where
  id : String
  intentId : String
  sequence : ℕ
  facts : EventFacts
  createdAt : ℤ
  deriving DecidableEq

structure AcknowledgementFacts where
  intentId : String
  venue : VenueName
  clientOrderId : String
  providerOrderId : String
  providerStatus : String
  filledQuantity : Amount
  remainingQuantity : Amount
  providerTimestamp : ℤ
  payload : Evidence
  deriving DecidableEq

structure VenueProviderAcknowledgementRecord where
  facts : AcknowledgementFacts
  createdAt : ℤ
  deriving DecidableEq

inductive Row where
  | intent (record : VenueOrderIntentRecord)
  | event (record : VenueExecutionEvent)
  | acknowledgement (record : VenueProviderAcknowledgementRecord)
  deriving DecidableEq

/-- A value under a unique constraint. Those that an intent's id implies are left out. -/
inductive RowKey where
  | intentId (id : String)
  | clientOrder (venue : VenueName) (clientOrderId : String)
  | eventId (id : String)
  | sequence (intentId : String) (sequence : ℕ)
  | dedupe (intentId dedupeKey : String)
  | providerEvent (venue : VenueName) (providerEventId : String)
  | acknowledgement (intentId : String)
  | providerOrder (venue : VenueName) (providerOrderId : String)
  deriving DecidableEq

def Row.keys : Row → List RowKey
  | .intent record => [.intentId record.id, .clientOrder record.facts.venue record.facts.clientOrderId]
  | .event record =>
    [.eventId record.id, .sequence record.intentId record.sequence, .dedupe record.intentId record.facts.dedupeKey] ++
      record.facts.providerEventId.toList.map (RowKey.providerEvent record.facts.venue)
  | .acknowledgement record =>
    [.acknowledgement record.facts.intentId, .providerOrder record.facts.venue record.facts.providerOrderId]

def Row.intentId : Row → String
  | .intent record => record.id
  | .event record => record.intentId
  | .acknowledgement record => record.facts.intentId

def ledgerTables : Tables Row RowKey String := ⟨Row.keys, Row.intentId, RowKey.intentId⟩

abbrev LedgerStore := Store Row String

/-- `_intent_matches` -/
def intentMatches (record : VenueOrderIntentRecord) (values : IntentFacts) : Prop := record.facts = values

/-- `_event_matches` -/
def eventMatches (record : VenueExecutionEvent) (values : EventFacts) : Prop :=
  { record.facts with payload := [] } = { values with payload := [] } ∧ samePayload record.facts.payload values.payload

/-- `_acknowledgement_matches` -/
def acknowledgementMatches (record : VenueProviderAcknowledgementRecord) (values : AcknowledgementFacts) : Prop :=
  { record.facts with payload := [] } = { values with payload := [] } ∧ samePayload record.facts.payload values.payload

instance (record : VenueOrderIntentRecord) (values : IntentFacts) : Decidable (intentMatches record values) :=
  inferInstanceAs (Decidable (_ = _))

instance (record : VenueExecutionEvent) (values : EventFacts) : Decidable (eventMatches record values) :=
  inferInstanceAs (Decidable (_ ∧ _))

instance (record : VenueProviderAcknowledgementRecord) (values : AcknowledgementFacts) :
    Decidable (acknowledgementMatches record values) :=
  inferInstanceAs (Decidable (_ ∧ _))

end Callisto.Execution
