import Callisto.Execution.Records

/-! The fenced lease of a principal's projection. Each operation is one transaction under the lock of the lease's row. -/

namespace Callisto.Portfolio

open Callisto.Execution (isFingerprint)
open Callisto.Ws (strip)

/-- A row of the lease table. Times are instants in microseconds. -/
structure Lease where
  ownerId : String
  fenceToken : ℕ
  expiresAt : ℤ
  updatedAt : ℤ
  deriving DecidableEq

inductive LeaseError where
  | valueError (text : String)
  | held
  deriving DecidableEq

def Lease.heldBy (lease : Lease) (owner : String) (fenceToken : ℕ) (now : ℤ) : Prop :=
  lease.ownerId = owner ∧ lease.fenceToken = fenceToken ∧ now < lease.expiresAt

instance (lease : Lease) (owner : String) (fenceToken : ℕ) (now : ℤ) : Decidable (lease.heldBy owner fenceToken now) :=
  inferInstanceAs (Decidable (_ ∧ _))

/-- `acquire`. The clock is read again once the row is locked. -/
def acquire (principal ownerId : String) (ttl : ℤ) (force : Bool) (lockedAt : ℤ) (row : Option Lease) :
    Except LeaseError (ℕ × Lease) :=
  if !isFingerprint principal then
    .error (.valueError "principal_fingerprint must be 64 lowercase hexadecimal characters")
  else if strip ownerId = "" then .error (.valueError "owner_id is required")
  else if ttl ≤ 0 then .error (.valueError "lease ttl must be positive")
  else
    match row with
    | none => .ok (1, ⟨strip ownerId, 1, lockedAt + ttl, lockedAt⟩)
    | some lease =>
      if lockedAt < lease.expiresAt ∧ lease.ownerId ≠ strip ownerId ∧ force = false then .error .held
      else .ok (lease.fenceToken + 1, ⟨strip ownerId, lease.fenceToken + 1, lockedAt + ttl, lockedAt⟩)

/-- `renew`: the answer and the row that stands afterwards. -/
def renew (principal ownerId : String) (fenceToken ttl lockedAt : ℤ) (row : Option Lease) : Except LeaseError (Bool × Option Lease) :=
  if !isFingerprint principal then
    .error (.valueError "principal_fingerprint must be 64 lowercase hexadecimal characters")
  else if strip ownerId = "" ∨ fenceToken ≤ 0 ∨ ttl ≤ 0 then
    .error (.valueError "valid owner, fence token, and positive lease ttl are required")
  else
    match row with
    | none => .ok (false, none)
    | some lease =>
      if lease.ownerId ≠ strip ownerId ∨ (lease.fenceToken : ℤ) ≠ fenceToken ∨ lease.expiresAt ≤ lockedAt then
        .ok (false, some lease)
      else .ok (true, some { lease with expiresAt := lockedAt + ttl, updatedAt := lockedAt })

/-- `release`: the lease expires and its fence token stays. -/
def release (principal ownerId : String) (fenceToken lockedAt : ℤ) (row : Option Lease) : Except LeaseError (Bool × Option Lease) :=
  if !isFingerprint principal then
    .error (.valueError "principal_fingerprint must be 64 lowercase hexadecimal characters")
  else if strip ownerId = "" ∨ fenceToken ≤ 0 then .error (.valueError "valid owner and fence token are required")
  else
    match row with
    | none => .ok (false, none)
    | some lease =>
      if lease.ownerId ≠ strip ownerId ∨ (lease.fenceToken : ℤ) ≠ fenceToken then .ok (false, some lease)
      else .ok (true, some { lease with expiresAt := lockedAt, updatedAt := lockedAt })

end Callisto.Portfolio
