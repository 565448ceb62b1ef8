import Callisto.Portfolio.Evidence
import Callisto.Portfolio.Lease

/-! A sweep of the portfolio: what the venue serves is deduplicated, judged against the local ledger and stored in one
transaction. -/

namespace Callisto.Portfolio

open Callisto.Library Callisto.Venues
open Callisto.Execution (IntentFacts Row isFingerprint)
open Callisto.Ws (strip)

structure OrderIdentityRow where
  principal : String
  orderId : String
  identityHash : String
  identity : OrderIdentity
  firstObservedAt : ℤ
  deriving DecidableEq

structure OrderObservationRow where
  principal : String
  orderId : String
  evidenceHash : String
  payload : OrderPayload
  providerUpdatedAt : ℤ
  firstObservedAt : ℤ
  deriving DecidableEq

structure FillObservationRow where
  principal : String
  fillId : String
  evidenceHash : String
  orderId : String
  payload : FillPayload
  providerCreatedAt : ℤ
  firstObservedAt : ℤ
  deriving DecidableEq

structure OrderMembershipRow where
  principal : String
  coverageId : String
  orderId : String
  evidenceHash : String
  deriving DecidableEq

structure FillMembershipRow where
  principal : String
  coverageId : String
  fillId : String
  deriving DecidableEq

inductive CoverageStatus where
  | complete
  | incomplete
  deriving DecidableEq

structure PageCounts where
  currentOrders : ℕ
  currentFills : ℕ
  historicalOrders : ℕ
  historicalFills : ℕ
  deriving DecidableEq

structure UniqueCounts where
  currentOrders : ℕ
  currentFills : ℕ
  historicalOrders : ℕ
  historicalFills : ℕ
  orders : ℕ
  fills : ℕ
  deriving DecidableEq

/-- `KalshiPortfolioCoverageResult` -/
structure CoverageResult where
  principalFingerprint : String
  coverageId : String
  observedAt : ℤ
  status : CoverageStatus
  reason : String
  pageCounts : PageCounts
  uniqueCounts : UniqueCounts
  observedEvidenceHash : String
  unknownOrderIds : List String
  unknownClientOrderIds : List String
  unknownFillIds : List String
  deriving DecidableEq

structure Cutoff where
  ordersUpdatedAt : ℤ
  tradesCreatedAt : ℤ
  deriving DecidableEq

structure Checkpoint where
  result : CoverageResult
  cutoffBefore : Cutoff
  cutoffAfter : Cutoff
  retryAllowed : Bool
  deriving DecidableEq

structure CoverageTables where
  identities : List OrderIdentityRow := []
  orderObservations : List OrderObservationRow := []
  fillObservations : List FillObservationRow := []
  orderMemberships : List OrderMembershipRow := []
  fillMemberships : List FillMembershipRow := []
  checkpoints : List Checkpoint := []
  deriving DecidableEq

/-- What the venue serves to one sweep. A cutoff that is missing was not served. -/
structure SweepReads where
  cutoffBefore : Option Cutoff
  currentOrders : List (Page KalshiOrder)
  currentFills : List (Page KalshiFill)
  historicalOrders : List (Page KalshiOrder)
  historicalFills : List (Page KalshiFill)
  cutoffAfter : Option Cutoff

structure ExpectedLease where
  owner : String
  fenceToken : ℕ

/-- A call of `sweep` on a service. The lease's clock is read in each transaction. -/
structure SweepCall where
  principal : String
  coverageId : String
  observedAt : ℤ
  expected : Option ExpectedLease
  loadedAt : ℤ
  storedAt : ℤ
  reloadedAt : ℤ

variable (sha : Sha256)

def checkLease (expected : Option ExpectedLease) (lease : Option Lease) (guardTime : ℤ) : Coverage Unit :=
  match expected, lease with
  | none, _ => .ok ()
  | some _, none => .error (.lease "portfolio coverage lease fence changed or expired")
  | some expected, some lease =>
    if lease.heldBy expected.owner expected.fenceToken guardTime then .ok ()
    else .error (.lease "portfolio coverage lease fence changed or expired")

def findCheckpoint (tables : CoverageTables) (principal coverageId : String) : Option Checkpoint :=
  tables.checkpoints.find? fun row => row.result.principalFingerprint = principal ∧ row.result.coverageId = coverageId

/-- `_load_checkpoint` -/
def loadCheckpoint (expected : Option ExpectedLease) (lease : Option Lease) (guardTime : ℤ) (tables : CoverageTables)
    (principal coverageId : String) : Coverage (Option Checkpoint) := do
  checkLease expected lease guardTime
  .ok (findCheckpoint tables principal coverageId)

/-- `_result_from_checkpoint` -/
def resultFromCheckpoint (checkpoint : Checkpoint) : Coverage CoverageResult :=
  if checkpoint.retryAllowed then .error (.conflict "persisted Kalshi coverage checkpoint is invalid")
  else .ok checkpoint.result

/-- A `_traverse` of the service. -/
def readAll {α : Type} (source : String) (pages : List (Page α)) : Coverage (List α × ℕ) :=
  match traverse pages with
  | .ok read => .ok read
  | .error .readFailed => .error .readFailed
  | .error .cursorRepeated => .error (.conflict s!"Kalshi {source} pagination cursor repeated")

def readCutoff (cutoff : Option Cutoff) : Coverage Cutoff :=
  match cutoff with
  | some cutoff => .ok cutoff
  | none => .error .readFailed

/-- The records of the four traversals, with their page counts and the cutoffs around them. -/
structure Served where
  before : Cutoff
  after : Cutoff
  currentOrders : List KalshiOrder
  currentFills : List KalshiFill
  historicalOrders : List KalshiOrder
  historicalFills : List KalshiFill
  pages : PageCounts

def readServed (reads : SweepReads) : Coverage Served := do
  let before ← readCutoff reads.cutoffBefore
  let (currentOrders, currentOrdersPages) ← readAll "current orders" reads.currentOrders
  let (currentFills, currentFillsPages) ← readAll "current fills" reads.currentFills
  let (historicalOrders, historicalOrdersPages) ← readAll "historical orders" reads.historicalOrders
  let (historicalFills, historicalFillsPages) ← readAll "historical fills" reads.historicalFills
  let after ← readCutoff reads.cutoffAfter
  .ok {
    before := before
    after := after
    currentOrders := currentOrders
    currentFills := currentFills
    historicalOrders := historicalOrders
    historicalFills := historicalFills
    pages := ⟨currentOrdersPages, currentFillsPages, historicalOrdersPages, historicalFillsPages⟩ }

def keys {α : Type} (records : ById α) : List String := records.map Prod.fst

def fillMismatch (fill : KalshiFill) (order : KalshiOrder) : Prop :=
  fill.ticker ≠ order.ticker ∨ fill.marketTicker ≠ order.ticker ∨ fill.outcomeSide ≠ order.outcomeSide ∨
    fill.bookSide ≠ order.bookSide ∨ fill.subaccountNumber ≠ order.subaccountNumber

instance (fill : KalshiFill) (order : KalshiOrder) : Decidable (fillMismatch fill order) := inferInstanceAs (Decidable (_ ∨ _))

def orphanOrderIds (orders : ById KalshiOrder) (fills : ById KalshiFill) : List String :=
  (sortedSet (fills.map fun entry => entry.2.orderId)).filter fun orderId => orderId ∉ keys orders

def evidenceReasons (before after : Cutoff) (orders : ById KalshiOrder) (fills : ById KalshiFill) : List String :=
  (if before.ordersUpdatedAt ≠ after.ordersUpdatedAt then ["cutoff_drift:orders"] else []) ++
  (if before.tradesCreatedAt ≠ after.tradesCreatedAt then ["cutoff_drift:fills"] else []) ++
  (if orphanOrderIds orders fills ≠ [] then ["orphan_fill:" ++ String.intercalate "," (orphanOrderIds orders fills)] else []) ++
  (if 1 < (orders.map fun entry => sha.user entry.2.userId).dedup.length then ["provider_user_conflict"] else []) ++
  (fills.filter fun entry => (orders.lookup entry.2.orderId).any fun order => fillMismatch entry.2 order).map
    (fun entry => s!"fill_order_mismatch:{entry.2.fillId}") ++
  (orders.filter fun entry =>
      entry.2.initialCount.units < ((fills.filter fun fill => fill.2.orderId = entry.1).map fun fill => fill.2.count.units).sum ∧
        ∃ fill ∈ fills, fill.2.orderId = entry.1).map
    (fun entry => s!"fill_count_mismatch:{entry.1}")

def intentDescribes (intent : IntentFacts) (order : KalshiOrder) : Prop :=
  order.clientOrderId = intent.clientOrderId ∧ order.ticker = intent.instrumentId ∧ order.bookSide = intent.bookSide ∧
    order.orderType = .limit ∧ order.initialCount.units * 10 ^ 12 = intent.quantity.1 ∧
    (if order.bookSide = .bid then order.yesPrice else order.noPrice).units * 10 ^ 12 = intent.limitPrice.1

instance (intent : IntentFacts) (order : KalshiOrder) : Decidable (intentDescribes intent order) :=
  inferInstanceAs (Decidable (_ ∧ _))

/-- `known_order_owners`: the orders that an acknowledged intent of the principal describes, each with the intent's id. -/
def knownOrderOwners (ledger : List Row) (principal : String) (orders : ById KalshiOrder) : List (String × String) :=
  ledger.flatMap fun
    | .acknowledgement acknowledgement =>
      match orders.lookup acknowledgement.facts.providerOrderId with
      | none => []
      | some order =>
        ledger.filterMap fun
          | .intent intent =>
            if intent.id = acknowledgement.facts.intentId ∧ intent.facts.venue = .kalshi ∧
                intent.facts.authenticatedPrincipalFingerprint = some principal ∧ intentDescribes intent.facts order then
              some (order.orderId, intent.id)
            else none
          | _ => none
    | _ => []

def knownFills (ledger : List Row) (owners : List (String × String)) (fills : ById KalshiFill) : List String :=
  ledger.filterMap fun
    | .event event =>
      match event.facts.providerEventId, event.facts.providerOrderId with
      | some eventId, some orderId =>
        if event.facts.venue = .kalshi ∧ event.facts.eventType = "fill_observed" ∧ owners.lookup orderId = some event.intentId ∧
            (fills.lookup eventId).any fun fill => fill.orderId = orderId then some eventId
        else none
      | _, _ => none
    | _ => none

/-- `_known_local_evidence` -/
def knownLocalEvidence (ledger : List Row) (principal : String) (orders : ById KalshiOrder) (fills : ById KalshiFill) :
    List String × List String :=
  let owners := knownOrderOwners ledger principal orders
  (owners.map Prod.fst, knownFills ledger owners fills)

structure Selection where
  currentOrders : ById KalshiOrder
  historicalOrders : ById KalshiOrder
  orders : ById KalshiOrder
  currentFills : ById KalshiFill
  historicalFills : ById KalshiFill
  fills : ById KalshiFill
  conflicts : List String

def select (served : Served) : Coverage Selection := do
  let (currentOrders, currentConflicts) ← dedupeOrders sha served.currentOrders
  let (historicalOrders, historicalConflicts) ← dedupeOrders sha served.historicalOrders
  let (orders, overlapConflicts) ← dedupeOrders sha (served.currentOrders ++ served.historicalOrders)
  let currentFills ← dedupeFills served.currentFills
  let historicalFills ← dedupeFills served.historicalFills
  let fills ← mergeFills currentFills historicalFills
  .ok {
    currentOrders := currentOrders
    historicalOrders := historicalOrders
    orders := orders
    currentFills := currentFills
    historicalFills := historicalFills
    fills := fills
    conflicts := currentConflicts ++ historicalConflicts ++ overlapConflicts }

def assess (ledger : List Row) (call : SweepCall) (served : Served) (selection : Selection) : CoverageResult :=
  let reasons := selection.conflicts ++ evidenceReasons sha served.before served.after selection.orders selection.fills
  let known := knownLocalEvidence ledger call.principal selection.orders selection.fills
  let unknownOrderIds := (keys selection.orders).filter fun orderId => orderId ∉ known.1
  {
    principalFingerprint := call.principal
    coverageId := strip call.coverageId
    observedAt := call.observedAt
    status := if reasons = [] then .complete else .incomplete
    reason := if reasons = [] then "bounded_evidence_complete" else String.intercalate ";" (sortedSet reasons)
    pageCounts := served.pages
    uniqueCounts := {
      currentOrders := selection.currentOrders.length
      currentFills := selection.currentFills.length
      historicalOrders := selection.historicalOrders.length
      historicalFills := selection.historicalFills.length
      orders := selection.orders.length
      fills := selection.fills.length }
    observedEvidenceHash := sha.evidence (.selection
      (selection.orders.map fun entry => (entry.1, orderHash sha entry.2))
      (selection.fills.map fun entry => (entry.1, fillHash sha entry.2)))
    unknownOrderIds := unknownOrderIds
    unknownClientOrderIds := sortedSet (unknownOrderIds.filterMap fun orderId =>
      (selection.orders.lookup orderId).map KalshiOrder.clientOrderId)
    unknownFillIds := (keys selection.fills).filter fun fillId => fillId ∉ known.2 }

/-- How the storing transaction fails: it raises, or a unique constraint does. -/
inductive StoreError where
  | raised (error : CoverageError)
  | integrityError
  deriving DecidableEq

/-- `ON CONFLICT DO NOTHING` on a key. -/
def insertIfAbsent {ρ κ : Type} [DecidableEq κ] (key : ρ → κ) (row : ρ) (rows : List ρ) : List ρ :=
  if ∃ other ∈ rows, key other = key row then rows else rows ++ [row]

/-- `session.get` -/
def getRow {ρ κ : Type} [DecidableEq κ] (key : ρ → κ) (name : κ) (rows : List ρ) : Option ρ := rows.find? fun row => key row = name

def OrderIdentityRow.key (row : OrderIdentityRow) : String × String := (row.principal, row.orderId)

def OrderObservationRow.key (row : OrderObservationRow) : String × String × String := (row.principal, row.orderId, row.evidenceHash)

def FillObservationRow.key (row : FillObservationRow) : String × String := (row.principal, row.fillId)

def storeOrder (principal : String) (observedAt : ℤ) (tables : CoverageTables) (entry : String × KalshiOrder) : Coverage CoverageTables :=
  let (orderId, order) := entry
  let payload := orderPayload sha order
  let identityRow : OrderIdentityRow := ⟨principal, orderId, identityHash sha order, orderIdentity payload, observedAt⟩
  let identities := insertIfAbsent OrderIdentityRow.key identityRow tables.identities
  if (getRow OrderIdentityRow.key identityRow.key identities).map OrderIdentityRow.identityHash ≠ some (identityHash sha order) then
    .error (.conflict s!"order_id '{orderId}' conflicts with durable immutable order identity")
  else do
    let updatedAt ← orderUpdatedAt order
    let row : OrderObservationRow := ⟨principal, orderId, orderHash sha order, payload, updatedAt, observedAt⟩
    let observations := insertIfAbsent OrderObservationRow.key row tables.orderObservations
    if (getRow OrderObservationRow.key row.key observations).map OrderObservationRow.payload ≠ some payload then
      .error (.conflict s!"order_id '{orderId}' conflicts with durable order snapshot")
    else .ok { tables with identities := identities, orderObservations := observations }

def storeFill (principal : String) (observedAt : ℤ) (tables : CoverageTables) (entry : String × KalshiFill) : Coverage CoverageTables := do
  let (fillId, fill) := entry
  let createdAt ← fillCreatedAt fill
  let row : FillObservationRow := ⟨principal, fillId, fillHash sha fill, fill.orderId, fill, createdAt, observedAt⟩
  let observations := insertIfAbsent FillObservationRow.key row tables.fillObservations
  if (getRow FillObservationRow.key row.key observations).map FillObservationRow.evidenceHash ≠ some (fillHash sha fill) then
    .error (.conflict s!"fill_id '{fillId}' conflicts with durable fill evidence")
  else .ok { tables with fillObservations := observations }

/-- A membership or the checkpoint of the coverage id is already there. -/
def Recorded (tables : CoverageTables) (principal coverageId : String) (orders : ById KalshiOrder) (fills : ById KalshiFill) : Prop :=
  (∃ row ∈ tables.orderMemberships, row.principal = principal ∧ row.coverageId = coverageId ∧ row.orderId ∈ keys orders) ∨
  (∃ row ∈ tables.fillMemberships, row.principal = principal ∧ row.coverageId = coverageId ∧ row.fillId ∈ keys fills) ∨
  findCheckpoint tables principal coverageId ≠ none

instance (tables : CoverageTables) (principal coverageId : String) (orders : ById KalshiOrder) (fills : ById KalshiFill) :
    Decidable (Recorded tables principal coverageId orders fills) := inferInstanceAs (Decidable (_ ∨ _))

def storeObservations (lease : Option Lease) (tables : CoverageTables) (call : SweepCall) (orders : ById KalshiOrder)
    (fills : ById KalshiFill) : Coverage CoverageTables := do
  checkLease call.expected lease call.storedAt
  let withOrders ← orders.foldlM (storeOrder sha call.principal call.observedAt) tables
  fills.foldlM (storeFill sha call.principal call.observedAt) withOrders

def recordCoverage (stored : CoverageTables) (call : SweepCall) (checkpoint : Checkpoint) (orders : ById KalshiOrder)
    (fills : ById KalshiFill) : CoverageTables :=
  { stored with
    orderMemberships := stored.orderMemberships ++ orders.map fun entry =>
      ⟨call.principal, checkpoint.result.coverageId, entry.1, orderHash sha entry.2⟩
    fillMemberships := stored.fillMemberships ++ fills.map fun entry =>
      ⟨call.principal, checkpoint.result.coverageId, entry.1⟩
    checkpoints := stored.checkpoints ++ [checkpoint] }

def store (lease : Option Lease) (tables : CoverageTables) (call : SweepCall) (checkpoint : Checkpoint)
    (orders : ById KalshiOrder) (fills : ById KalshiFill) : Except StoreError CoverageTables :=
  match storeObservations sha lease tables call orders fills with
  | .error error => .error (.raised error)
  | .ok stored =>
    if Recorded tables call.principal checkpoint.result.coverageId orders fills then .error .integrityError
    else .ok (recordCoverage sha stored call checkpoint orders fills)

def validCall (call : SweepCall) : Coverage Unit :=
  if !isFingerprint call.principal then .error (.conflict "Kalshi client principal fingerprint is invalid")
  else if strip call.coverageId = "" then .error (.valueError "coverage_id is required")
  else .ok ()

/-- What a sweep does after an `IntegrityError`. -/
def concurrentResult (lease : Option Lease) (tables : CoverageTables) (call : SweepCall) (result : CoverageResult) :
    Coverage CoverageResult := do
  match ← loadCheckpoint call.expected lease call.reloadedAt tables call.principal result.coverageId with
  | none => .error (.conflict "coverage_id or durable observation conflicted with concurrently committed evidence")
  | some checkpoint =>
    let concurrent ← resultFromCheckpoint checkpoint
    if concurrent = result then .ok result
    else .error (.conflict "coverage_id or durable observation conflicted with concurrently committed evidence")

def conclude (ledger : List Row) (lease : Option Lease) (tables : CoverageTables) (call : SweepCall) (served : Served)
    (selection : Selection) : Coverage (CoverageResult × CoverageTables) :=
  let result := assess sha ledger call served selection
  match store sha lease tables call ⟨result, served.before, served.after, false⟩ selection.orders selection.fills with
  | .ok after => .ok (result, after)
  | .error (.raised error) => .error error
  | .error .integrityError => do
    let result ← concurrentResult lease tables call result
    .ok (result, tables)

/-- `sweep`, alone on the database: the result and the tables afterwards. -/
def sweep (ledger : List Row) (lease : Option Lease) (tables : CoverageTables) (call : SweepCall) (reads : SweepReads) :
    Coverage (CoverageResult × CoverageTables) := do
  validCall call
  match ← loadCheckpoint call.expected lease call.loadedAt tables call.principal (strip call.coverageId) with
  | some checkpoint =>
    let result ← resultFromCheckpoint checkpoint
    .ok (result, tables)
  | none =>
    let served ← readServed reads
    let selection ← select sha served
    conclude sha ledger lease tables call served selection

end Callisto.Portfolio
