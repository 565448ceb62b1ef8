import Mathlib.Data.List.Sort
import Mathlib.Logic.Function.Basic
import Callisto.Library.Dict

/-! The write-behind audit buffer: entries are flushed in batches, a group of a batch in a transaction of its own, and put
back in front when their transaction is seen to fail. -/

namespace Callisto.Hot

open Callisto.Library

/-- What an entry is to write. A value of type `ρ` stands for the columns that the flush passes through. -/
inductive AuditPayload (ρ : Type) where
  | decision (id : String) (row : ρ)
  | decisionChecks (decisionId : String) (checks : List ρ)
  | consumption (traderId signalId : String) (decisionId : Option String) (row : ρ)
  | cursor (traderId : String) (row : ρ)
  | signalStatus (row : ρ)
  | traderEvent (id : String) (row : ρ)
  | experimentAssignment (row : ρ)

inductive AuditKind where
  | decision | decisionChecks | consumption | cursor | signalStatus | traderEvent | experimentAssignment
  deriving DecidableEq

/-- `_AUDIT_KIND_PRIORITY` -/
def AuditKind.priority : AuditKind → ℕ
  | .decision => 0
  | .decisionChecks => 1
  | .consumption => 2
  | .cursor => 3
  | .signalStatus => 4
  | .traderEvent => 5
  | .experimentAssignment => 6

inductive AuditGroup where
  | appendOnly | consumption | cursor | signalStatus | experimentAssignment
  deriving DecidableEq

def auditGroups : List AuditGroup := [.appendOnly, .consumption, .cursor, .signalStatus, .experimentAssignment]

def AuditKind.group : AuditKind → AuditGroup
  | .decision => .appendOnly
  | .decisionChecks => .appendOnly
  | .traderEvent => .appendOnly
  | .consumption => .consumption
  | .cursor => .cursor
  | .signalStatus => .signalStatus
  | .experimentAssignment => .experimentAssignment

section
variable {ρ : Type}

def AuditPayload.kind : AuditPayload ρ → AuditKind
  | .decision .. => .decision
  | .decisionChecks .. => .decisionChecks
  | .consumption .. => .consumption
  | .cursor .. => .cursor
  | .signalStatus .. => .signalStatus
  | .traderEvent .. => .traderEvent
  | .experimentAssignment .. => .experimentAssignment

/-- An entry, with its place among all that were ever buffered. -/
structure AuditEntry (ρ : Type) where
  stamp : ℕ
  payload : AuditPayload ρ
  retryCount : ℕ

def AuditEntry.kind (entry : AuditEntry ρ) : AuditKind := entry.payload.kind

def AuditEntry.retried (entry : AuditEntry ρ) : AuditEntry ρ := { entry with retryCount := entry.retryCount + 1 }

def auditFlushBatchSize : ℕ := 250

def auditBufferMaxSize : ℕ := 50000

def auditMaxRetries : ℕ := 5

/-- A row of the decision checks, with the entry it comes from and its place in it. -/
structure CheckRow (ρ : Type) where
  origin : ℕ × ℕ
  decisionId : String
  check : ρ

/-- A row that later entries overwrite, with the entry whose values it carries. -/
structure UpsertRow (ρ : Type) where
  stamp : ℕ
  decisionId : Option String
  row : ρ

structure AuditDatabase (ρ : Type) where
  decisions : Dict String ρ := Dict.empty
  checks : List (CheckRow ρ) := []
  events : Dict String ρ := Dict.empty
  consumptions : Dict (String × String) (UpsertRow ρ) := Dict.empty
  cursors : Dict String (UpsertRow ρ) := Dict.empty

/-- An insert that leaves a row of the same id, and skips an empty one. -/
def insertNew (row : AuditEntry ρ → Option (String × ρ)) (table : Dict String ρ) (entry : AuditEntry ρ) : Dict String ρ :=
  match row entry with
  | none => table
  | some (id, value) => if id = "" then table else table.setDefault id value

def AuditEntry.decisionRow (entry : AuditEntry ρ) : Option (String × ρ) :=
  match entry.payload with
  | .decision id row => some (id, row)
  | _ => none

def AuditEntry.eventRow (entry : AuditEntry ρ) : Option (String × ρ) :=
  match entry.payload with
  | .traderEvent id row => some (id, row)
  | _ => none

def AuditEntry.checkRows (decisions : Dict String ρ) (entry : AuditEntry ρ) : List (CheckRow ρ) :=
  match entry.payload with
  | .decisionChecks decisionId checks =>
    if decisionId ≠ "" ∧ (decisions.get? decisionId).isSome then
      checks.zipIdx.map fun check => ⟨(entry.stamp, check.2), decisionId, check.1⟩
    else []
  | _ => []

def AuditEntry.consumptionKey (entry : AuditEntry ρ) : Option (String × String) :=
  match entry.payload with
  | .consumption traderId signalId .. => if traderId = "" ∨ signalId = "" then none else some (traderId, signalId)
  | _ => none

def AuditEntry.cursorKey (entry : AuditEntry ρ) : Option String :=
  match entry.payload with
  | .cursor traderId _ => if traderId = "" then none else some traderId
  | _ => none

/-- The consumption row after the upsert: no decision, or an unknown one, leaves the one before. -/
def AuditEntry.consumptionRow (decisions : Dict String ρ) (entry : AuditEntry ρ) (before : Option (UpsertRow ρ)) : Option (UpsertRow ρ) :=
  match entry.payload with
  | .consumption _ _ decisionId row =>
    some ⟨entry.stamp, (decisionId.filter fun id => id = "" ∨ (decisions.get? id).isSome).or (before.bind UpsertRow.decisionId), row⟩
  | _ => none

def AuditEntry.cursorRow (entry : AuditEntry ρ) (_before : Option (UpsertRow ρ)) : Option (UpsertRow ρ) :=
  match entry.payload with
  | .cursor _ row => some ⟨entry.stamp, none, row⟩
  | _ => none

section
variable {κ : Type} [DecidableEq κ]

/-- One upsert statement for many entries: of those with one key the last counts, and it meets the row that stood before. -/
def upsertAll (key : AuditEntry ρ → Option κ) (row : AuditEntry ρ → Option (UpsertRow ρ) → Option (UpsertRow ρ))
    (before : Dict κ (UpsertRow ρ)) (entries : List (AuditEntry ρ)) : Dict κ (UpsertRow ρ) :=
  entries.foldl (fun table entry => match key entry with
    | none => table
    | some name => match row entry (before.get? name) with
      | none => table
      | some value => table.set name value) before

end

/-- The transaction of a group. The bodies of the other groups find nothing to write. -/
def AuditDatabase.write (database : AuditDatabase ρ) (entries : List (AuditEntry ρ)) : AuditDatabase ρ :=
  let decisions := entries.foldl (insertNew AuditEntry.decisionRow) database.decisions
  { decisions
    checks := database.checks ++ entries.flatMap (AuditEntry.checkRows decisions)
    events := entries.foldl (insertNew AuditEntry.eventRow) database.events
    consumptions := upsertAll AuditEntry.consumptionKey (AuditEntry.consumptionRow decisions) database.consumptions entries
    cursors := upsertAll AuditEntry.cursorKey AuditEntry.cursorRow database.cursors entries }

/-- A flush under way: the groups that it has still to run, and the entries of those that it saw fail. -/
structure Flight (ρ : Type) where
  groups : List (List (AuditEntry ρ))
  failed : List (AuditEntry ρ)

inductive AuditEvent (ρ : Type) where
  | append (payload : AuditPayload ρ)
  | takeBatch (flush : ℕ)
  | groupCommits (flush : ℕ)
  | groupFails (flush : ℕ) (infra : Bool)
  | groupCancelled (flush : ℕ)
  | lateCommits (group : ℕ)
  | lateFails (group : ℕ)
  | requeue (flush : ℕ)

/-- The buffer, the flushes under way, and the shielded transactions that outlive the wait for them. What was buffered,
persisted and dropped so far is kept for the record. -/
structure AuditState (ρ : Type) where
  buffer : List (AuditEntry ρ) := []
  flights : ℕ → Option (Flight ρ) := fun _ => none
  late : List (List (AuditEntry ρ)) := []
  database : AuditDatabase ρ := {}
  next : ℕ := 0
  persisted : List (AuditEntry ρ) := []
  dropped : List (AuditEntry ρ) := []

namespace AuditState

variable (time : ℕ → ℕ)

/-- The order of a batch: by kind, and by the time at which each entry was made. -/
def BatchLe (first second : AuditEntry ρ) : Prop :=
  first.kind.priority < second.kind.priority ∨
    (first.kind.priority = second.kind.priority ∧ time first.stamp ≤ time second.stamp)

instance (first second : AuditEntry ρ) : Decidable (BatchLe time first second) := inferInstanceAs (Decidable (_ ∨ _))

def splitGroups (batch : List (AuditEntry ρ)) : List (List (AuditEntry ρ)) :=
  auditGroups.map fun group => batch.filter fun entry => entry.kind.group = group

/-- The next group of a flush ends: the flush goes on, with what it saw fail. -/
def endGroup (state : AuditState ρ) (flush : ℕ) (flight : Flight ρ) (rest : List (List (AuditEntry ρ))) (failed : List (AuditEntry ρ)) :
    AuditState ρ :=
  { state with flights := Function.update state.flights flush (some ⟨rest, flight.failed ++ failed⟩) }

def persist (state : AuditState ρ) (entries : List (AuditEntry ρ)) : AuditState ρ :=
  { state with database := state.database.write entries, persisted := state.persisted ++ entries }

def canRetry (entry : AuditEntry ρ) : Bool := decide (entry.retryCount ≤ auditMaxRetries)

def step (state : AuditState ρ) : AuditEvent ρ → AuditState ρ
  | .append payload =>
    let grown := state.buffer ++ [⟨state.next, payload, 0⟩]
    { state with buffer := grown.drop (grown.length - auditBufferMaxSize), next := state.next + 1 }
  | .takeBatch flush =>
    match state.flights flush with
    | some _ => state
    | none =>
      if state.buffer.isEmpty then state
      else
        let batch := (state.buffer.take auditFlushBatchSize).insertionSort (BatchLe time)
        { state with
          buffer := state.buffer.drop auditFlushBatchSize
          flights := Function.update state.flights flush (some ⟨splitGroups batch, []⟩) }
  | .groupCommits flush =>
    match state.flights flush with
    | some ⟨entries :: rest, failed⟩ => (state.persist entries).endGroup flush ⟨entries :: rest, failed⟩ rest []
    | _ => state
  | .groupFails flush infra =>
    match state.flights flush with
    | some ⟨entries :: rest, failed⟩ =>
      state.endGroup flush ⟨entries :: rest, failed⟩ rest (if infra then entries else entries.map AuditEntry.retried)
    | _ => state
  | .groupCancelled flush =>
    -- the wait is cancelled and counts as a failure, while the shielded transaction runs on
    match state.flights flush with
    | some ⟨entries :: rest, failed⟩ =>
      { state.endGroup flush ⟨entries :: rest, failed⟩ rest (entries.map AuditEntry.retried) with late := state.late ++ [entries] }
    | _ => state
  | .lateCommits group =>
    match state.late[group]? with
    | some entries => { state.persist entries with late := state.late.eraseIdx group }
    | none => state
  | .lateFails group => { state with late := state.late.eraseIdx group }
  | .requeue flush =>
    match state.flights flush with
    | some ⟨[], failed⟩ =>
      let retry := failed.filter canRetry
      { state with
        buffer := retry.take (auditBufferMaxSize - state.buffer.length) ++ state.buffer
        flights := Function.update state.flights flush none
        dropped := state.dropped ++ failed.filter fun entry => !canRetry entry }
    | _ => state

end AuditState

end

end Callisto.Hot
