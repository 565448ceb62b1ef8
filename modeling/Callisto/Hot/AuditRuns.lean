import Callisto.Library.Runs
import Callisto.Hot.AuditBuffer

/-! What the audit buffer promises over runs, and the steps that a run must avoid for it. -/

namespace Callisto.Hot

open Callisto.Library

section
variable {ρ : Type}

def Ordered (entries : List (AuditEntry ρ)) : Prop :=
  ∀ kind, (entries.filter fun entry => entry.kind = kind).Pairwise fun first second => first.stamp < second.stamp

def AuditEntry.content (entry : AuditEntry ρ) : Option ρ :=
  match entry.payload with
  | .consumption _ _ _ row => some row
  | .cursor _ row => some row
  | _ => none

/-- The row under a key carries the values of the last entry for it that was persisted. -/
def CarriesLast {κ : Type} [DecidableEq κ] (key : AuditEntry ρ → Option κ) (table : Dict κ (UpsertRow ρ))
    (persisted : List (AuditEntry ρ)) : Prop :=
  ∀ entry ∈ persisted, ∀ name, key entry = some name → ∃ row, table.get? name = some row ∧ ∃ last ∈ persisted,
    key last = some name ∧ last.stamp = row.stamp ∧ last.content = some row.row ∧ entry.stamp ≤ last.stamp

namespace AuditState

/-- An entry waits in the buffer, is in a flush, was persisted, or was dropped after its counted failures. -/
def Accounted (state : AuditState ρ) (stamp : ℕ) : Prop :=
  (∃ entry ∈ state.buffer, entry.stamp = stamp) ∨
    (∃ flush flight, state.flights flush = some flight ∧ ∃ entry ∈ flight.failed ++ flight.groups.flatten, entry.stamp = stamp) ∨
    (∃ entry ∈ state.persisted, entry.stamp = stamp) ∨
    ∃ entry ∈ state.dropped, entry.stamp = stamp ∧ auditMaxRetries < entry.retryCount

/-- Nothing is lost, no check row is written twice, entries wait in order, and the upserted rows are the latest. The rows
of decisions and events are unique by their keys. -/
structure AuditGood (state : AuditState ρ) : Prop where
  accounted : ∀ stamp < state.next, state.Accounted stamp
  once : (state.database.checks.map CheckRow.origin).Nodup
  ordered : Ordered state.buffer
  cursors : CarriesLast AuditEntry.cursorKey state.database.cursors state.persisted
  consumptions : CarriesLast AuditEntry.consumptionKey state.database.consumptions state.persisted

def lastFor {κ : Type} [DecidableEq κ] (key : AuditEntry ρ → Option κ) (name : κ) : List (AuditEntry ρ) → Option (AuditEntry ρ)
  | [] => none
  | entry :: rest => (lastFor key name rest).or (if key entry = some name then some entry else none)

/-- The entry that a group's statement lets win for a key is as late as any that was persisted for it. -/
def WinsLast {κ : Type} [DecidableEq κ] (key : AuditEntry ρ → Option κ) (persisted entries : List (AuditEntry ρ)) : Prop :=
  ∀ entry ∈ entries, ∀ name ∈ key entry, ∀ winner ∈ lastFor key name entries,
    ∀ other ∈ persisted ++ entries, key other = some name → other.stamp ≤ winner.stamp

/-- A transaction may write a group: none of its check rows stands already, and no row is newer than what it upserts. -/
structure Writable (state : AuditState ρ) (entries : List (AuditEntry ρ)) : Prop where
  checks : ∀ row ∈ entries.flatMap (AuditEntry.checkRows (state.database.write entries).decisions),
    row.origin ∉ state.database.checks.map CheckRow.origin
  cursors : WinsLast AuditEntry.cursorKey state.persisted entries
  consumptions : WinsLast AuditEntry.consumptionKey state.persisted entries

/-- Entries may be put back in front of a buffer that holds no older one of their kind. -/
def Requeueable (state : AuditState ρ) (failed : List (AuditEntry ρ)) : Prop :=
  ∀ entry ∈ failed, canRetry entry = true → ∀ waiting ∈ state.buffer, entry.kind = waiting.kind → entry.stamp < waiting.stamp

def AuditSound (state : AuditState ρ) : AuditEvent ρ → Prop
  | .groupCommits flush => ∀ flight ∈ state.flights flush, ∀ entries ∈ flight.groups.head?, state.Writable entries
  | .lateCommits group => ∀ entries ∈ state.late[group]?, state.Writable entries
  | .requeue flush => ∀ flight ∈ state.flights flush, flight.groups = [] → state.Requeueable flight.failed
  | _ => True

/-- No flush starts while another is under way, and no transaction commits after the wait for it was cancelled. -/
def Calm (state : AuditState ρ) : AuditEvent ρ → Prop
  | .takeBatch _ => ∀ flush, state.flights flush = none
  | .lateCommits group => state.late[group]? = none
  | _ => True

def BelowCap (state : AuditState ρ) : AuditEvent ρ → Prop
  | .append _ => state.buffer.length < auditBufferMaxSize
  | .requeue flush => ∀ flight ∈ state.flights flush,
      (flight.failed.filter canRetry).length + state.buffer.length ≤ auditBufferMaxSize
  | _ => True

instance (state : AuditState ρ) : ∀ event, Decidable (state.BelowCap event)
  | .append _ => inferInstanceAs (Decidable (state.buffer.length < auditBufferMaxSize))
  | .requeue flush => inferInstanceAs (Decidable (∀ flight ∈ state.flights flush,
      (flight.failed.filter canRetry).length + state.buffer.length ≤ auditBufferMaxSize))
  | .takeBatch _ | .groupCommits _ | .groupFails _ _ | .groupCancelled _ | .lateCommits _ | .lateFails _ => isTrue trivial

end AuditState

end

end Callisto.Hot
