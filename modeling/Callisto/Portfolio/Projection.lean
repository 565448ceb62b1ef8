import Callisto.Portfolio.Lease

/-! Synchronizing a projection. A call of `synchronize` is a transaction that checks the lease and looks for the attempt, the reads at
the venue, and a second transaction that stores the attempt. -/

namespace Callisto.Portfolio.Projection

open Callisto.Library
open Callisto.Execution (isFingerprint)
open Callisto.Ws (strip)

inductive AttemptStatus where
  | complete
  | incomplete
  | failed
  deriving DecidableEq

/-- `KalshiPortfolioProjectionResult` -/
structure Result where
  principal : String
  projectionId : String
  status : AttemptStatus
  reason : String
  deriving DecidableEq

/-- A row of the attempts, but for its key. Times are in microseconds; `π` is the JSON of a component. -/
structure Attempt (π : Type) where
  coverageId : Option String := none
  subaccount : ℕ
  status : AttemptStatus
  reason : String
  startedAt : ℤ
  completedAt : ℤ
  componentTimes : List (String × ℤ) := []
  componentSkew : Option ℤ := none
  freshnessBound : ℤ
  evidenceHash : Option String := none
  balance : Option π := none
  positions : Option π := none
  settlements : Option π := none
  gaps : List String
  retryAllowed : Bool := false

structure Head where
  latest : String
  healthy : Option String
  updatedAt : ℤ

structure Store (π : Type) where
  leases : Dict String Lease := .empty
  attempts : Dict (String × String) (Attempt π) := .empty
  heads : Dict String Head := .empty

structure Synchronizer where
  principal : String
  owner : String
  fenceToken : ℕ
  subaccount : ℕ
  freshnessBound : ℤ

inductive SyncError where
  | valueError (text : String)
  | fencing
  deriving DecidableEq

variable {π : Type}

def Store.authorizes (store : Store π) (caller : Synchronizer) (now : ℤ) : Prop :=
  ∃ lease ∈ store.leases.get? caller.principal, lease.heldBy caller.owner caller.fenceToken now

instance (store : Store π) (caller : Synchronizer) (now : ℤ) : Decidable (store.authorizes caller now) :=
  match found : store.leases.get? caller.principal with
  | none => .isFalse fun ⟨_, held, _⟩ => nomatch found ▸ held
  | some lease => decidable_of_iff (lease.heldBy caller.owner caller.fenceToken now) (by simp [Store.authorizes, found])

structure Flight where
  caller : Synchronizer
  requested : String
  startedAt : ℤ
  principled : isFingerprint caller.principal = true
  named : strip requested ≠ ""

def Flight.projectionId (flight : Flight) : String := strip flight.requested

def Flight.key (flight : Flight) : String × String := (flight.caller.principal, flight.projectionId)

def storedResult (key : String × String) (attempt : Attempt π) : Result := ⟨key.1, key.2, attempt.status, attempt.reason⟩

/-- The first transaction of `synchronize`: an attempt that is stored already is returned, else the reads begin. -/
def begin (store : Store π) (caller : Synchronizer) (projectionId : Option String) (uuid : String) (startedAt checkedAt : ℤ) :
    Except SyncError (Result ⊕ Flight) :=
  if principled : isFingerprint caller.principal = true then
    if named : strip (if projectionId.getD "" = "" then uuid else projectionId.getD "") = "" then
      .error (.valueError "projection_id is required")
    else if store.authorizes caller checkedAt then
      let flight : Flight := ⟨caller, _, startedAt, principled, named⟩
      match store.attempts.get? flight.key with
      | some existing => .ok (.inl (storedResult flight.key existing))
      | none => .ok (.inr flight)
    else .error .fencing
  else .error (.valueError "principal_fingerprint must be 64 lowercase hexadecimal characters")

structure Coverage where
  coverageId : String
  status : String
  observedAt : ℤ
  evidenceHash : String

/-- How the reads at the venue end: the sweep raises an exception of some class or returns, and each component is read at some time or
raises. -/
structure Readings (π : Type) where
  sweep : Except String Coverage
  positions : Option (π × ℤ) := none
  balance : Option (π × ℤ) := none
  settlements : Option (π × ℤ) := none

def componentTimes (coverage : Coverage) (readings : Readings π) : List (String × ℤ) :=
  ("coverage", coverage.observedAt) :: (readings.positions.map fun read => ("positions", read.2)).toList ++
    (readings.balance.map fun read => ("balance", read.2)).toList ++ (readings.settlements.map fun read => ("settlements", read.2)).toList

def skewOf (coverage : Coverage) (times : List (String × ℤ)) : ℤ :=
  (times.map Prod.snd).foldl max coverage.observedAt - (times.map Prod.snd).foldl min coverage.observedAt

def gapsOf (caller : Synchronizer) (coverage : Coverage) (readings : Readings π) : List String :=
  let skew := skewOf coverage (componentTimes coverage readings)
  List.mergeSort ((if readings.positions.isNone then ["positions"] else []) ++ (if readings.balance.isNone then ["balance"] else []) ++
    (if readings.settlements.isNone then ["settlements"] else []) ++ (if coverage.status = "complete" then [] else ["coverage"]) ++
    if caller.freshnessBound < skew then ["component_skew"] else [])

structure Evidence (π : Type) where
  coverageHash : String
  subaccount : ℕ
  positions : Option π
  balance : Option π
  settlements : Option π
  componentTimes : List (String × ℤ)

def attemptOf (hash : Evidence π → String) (flight : Flight) (coverage : Coverage) (readings : Readings π) (completedAt : ℤ) : Attempt π :=
  let gaps := gapsOf flight.caller coverage readings
  let times := componentTimes coverage readings
  let positions := readings.positions.map Prod.fst
  let balance := readings.balance.map Prod.fst
  let settlements := readings.settlements.map Prod.fst
  { coverageId := some coverage.coverageId
    subaccount := flight.caller.subaccount
    status := if gaps = [] then .complete else .incomplete
    reason := if gaps = [] then "authoritative_components_complete" else "incomplete:" ++ ",".intercalate gaps
    startedAt := flight.startedAt
    completedAt := completedAt
    componentTimes := times
    componentSkew := some (skewOf coverage times)
    freshnessBound := flight.caller.freshnessBound
    evidenceHash := some (hash ⟨coverage.evidenceHash, flight.caller.subaccount, positions, balance, settlements, times⟩)
    balance := balance
    positions := positions
    settlements := settlements
    gaps := gaps }

def failedAttempt (flight : Flight) (reason : String) (completedAt : ℤ) : Attempt π where
  subaccount := flight.caller.subaccount
  status := .failed
  reason := reason
  startedAt := flight.startedAt
  completedAt := completedAt
  freshnessBound := flight.caller.freshnessBound
  gaps := ["coverage", "positions", "balance", "settlements"]

def Store.add (store : Store π) (key : String × String) (attempt : Attempt π) : Store π :=
  { store with
    attempts := store.attempts.set key attempt
    heads := store.heads.set key.1
      { latest := key.2
        healthy := if attempt.status = .complete then some key.2 else (store.heads.get? key.1).bind Head.healthy
        updatedAt := attempt.completedAt } }

/-- `_persist_failed_attempt`: an attempt that is stored already stays. -/
def persistFailedAttempt (store : Store π) (flight : Flight) (reason : String) (completedAt checkedAt : ℤ) : Except SyncError (Store π) :=
  if store.authorizes flight.caller checkedAt then
    match store.attempts.get? flight.key with
    | some _ => .ok store
    | none => .ok (store.add flight.key (failedAttempt flight reason completedAt))
  else .error .fencing

/-- The rest of `synchronize`, once the venue is read. -/
def finish (hash : Evidence π → String) (store : Store π) (flight : Flight) (readings : Readings π) (completedAt checkedAt : ℤ) :
    Except SyncError (Result × Store π) :=
  match readings.sweep with
  | .error exception =>
    let reason := "coverage_failed:" ++ exception
    (persistFailedAttempt store flight reason completedAt checkedAt).map fun stored =>
      (⟨flight.caller.principal, flight.projectionId, .incomplete, reason⟩, stored)
  | .ok coverage =>
    let attempt := attemptOf hash flight coverage readings completedAt
    if store.authorizes flight.caller checkedAt then
      match store.attempts.get? flight.key with
      | some existing => .ok (storedResult flight.key existing, store)
      | none => .ok (storedResult flight.key attempt, store.add flight.key attempt)
    else .error .fencing

structure Deployment (π : Type) where
  store : Store π := {}
  flights : Dict ℕ Flight := .empty

inductive Event (π : Type) where
  /-- A lease changes in whatever way. -/
  | lease (principal : String) (lease : Option Lease)
  | begin (call : ℕ) (caller : Synchronizer) (projectionId : Option String) (uuid : String) (startedAt checkedAt : ℤ)
  | finish (call : ℕ) (readings : Readings π) (completedAt checkedAt : ℤ)

def step (hash : Evidence π → String) (system : Deployment π) : Event π → Deployment π
  | .lease principal none => { system with store := { system.store with leases := system.store.leases.erase principal } }
  | .lease principal (some lease) => { system with store := { system.store with leases := system.store.leases.set principal lease } }
  | .begin call caller projectionId uuid startedAt checkedAt =>
    match begin system.store caller projectionId uuid startedAt checkedAt with
    | .ok (.inr flight) => { system with flights := system.flights.set call flight }
    | _ => system
  | .finish call readings completedAt checkedAt =>
    match system.flights.get? call with
    | none => system
    | some flight =>
      match finish hash system.store flight readings completedAt checkedAt with
      | .ok (_, store) => { store := store, flights := system.flights.erase call }
      | .error _ => { system with flights := system.flights.erase call }

end Callisto.Portfolio.Projection
