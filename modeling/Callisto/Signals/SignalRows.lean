import Mathlib.Logic.Function.Basic
import Callisto.Library.Runs
import Callisto.Signals.SignalUpsert

/-! Concurrent upserts of one row: each selects it, writes it under the row lock, and commits. -/

namespace Callisto.Signals

open Callisto.Library

/-- What a column holds after a flush: the session's value if the session changed it, else what the row now holds. -/
def flushColumn {α : Type} [DecidableEq α] (loaded session committed : α) : α := if session = loaded then committed else session

section
variable {δ : Type} [DecidableEq δ]

instance : DecidableEq (Dict String δ) := fun first second =>
  decidable_of_iff (first.entries = second.entries) (by
    obtain ⟨firstEntries, _⟩ := first
    obtain ⟨secondEntries, _⟩ := second
    simp)

/-- An ORM flush writes the columns that the session changed since it loaded the row, and the time of the flush to
`updated_at` where the session did not change that. -/
def TradeSignal.flush (now : ℤ) (loaded session committed : TradeSignal δ) : TradeSignal δ where
  source := flushColumn loaded.source session.source committed.source
  sourceItemId := flushColumn loaded.sourceItemId session.sourceItemId committed.sourceItemId
  signalType := flushColumn loaded.signalType session.signalType committed.signalType
  strategyType := flushColumn loaded.strategyType session.strategyType committed.strategyType
  marketId := flushColumn loaded.marketId session.marketId committed.marketId
  marketQuestion := flushColumn loaded.marketQuestion session.marketQuestion committed.marketQuestion
  direction := flushColumn loaded.direction session.direction committed.direction
  entryPrice := flushColumn loaded.entryPrice session.entryPrice committed.entryPrice
  edgePercent := flushColumn loaded.edgePercent session.edgePercent committed.edgePercent
  confidence := flushColumn loaded.confidence session.confidence committed.confidence
  liquidity := flushColumn loaded.liquidity session.liquidity committed.liquidity
  expiresAt := flushColumn loaded.expiresAt session.expiresAt committed.expiresAt
  payloadJson := flushColumn loaded.payloadJson session.payloadJson committed.payloadJson
  strategyContextJson := flushColumn loaded.strategyContextJson session.strategyContextJson committed.strategyContextJson
  qualityPassed := flushColumn loaded.qualityPassed session.qualityPassed committed.qualityPassed
  qualityRejectionReasons := flushColumn loaded.qualityRejectionReasons session.qualityRejectionReasons committed.qualityRejectionReasons
  status := flushColumn loaded.status session.status committed.status
  effectivePrice := flushColumn loaded.effectivePrice session.effectivePrice committed.effectivePrice
  createdAt := flushColumn loaded.createdAt session.createdAt committed.createdAt
  updatedAt := flushColumn loaded.updatedAt session.updatedAt (some now)
  runtimeSequence := flushColumn loaded.runtimeSequence session.runtimeSequence committed.runtimeSequence

/-- The columns that a newer call must own: expiry, documents and prices. -/
structure SignalContent (δ : Type) where
  expiresAt : Option ℤ
  payloadJson : Option (Dict String δ)
  strategyContextJson : Option (Dict String δ)
  entryPrice : Option ℚ
  effectivePrice : Option ℚ

def TradeSignal.content (row : TradeSignal δ) : SignalContent δ :=
  ⟨row.expiresAt, row.payloadJson, row.strategyContextJson, row.entryPrice, row.effectivePrice⟩

/-- A column that a commit changes is one that the session changes too. -/
def ColumnYields {α : Type} (before after loaded session : α) : Prop := after ≠ before → session ≠ loaded

instance {α : Type} [DecidableEq α] (before after loaded session : α) : Decidable (ColumnYields before after loaded session) :=
  inferInstanceAs (Decidable (after ≠ before → session ≠ loaded))

/-- A committed write: the sequence of its call, and the row before and after it. -/
structure RowCommit (δ : Type) where
  sequence : ℤ
  before : TradeSignal δ
  after : TradeSignal δ

/-- Of the content, the commit changes only columns that the session changes too. -/
structure RowCommit.Yields (commit : RowCommit δ) (loaded session : TradeSignal δ) : Prop where
  expiresAt : ColumnYields commit.before.expiresAt commit.after.expiresAt loaded.expiresAt session.expiresAt
  payloadJson : ColumnYields commit.before.payloadJson commit.after.payloadJson loaded.payloadJson session.payloadJson
  strategyContextJson : ColumnYields commit.before.strategyContextJson commit.after.strategyContextJson
    loaded.strategyContextJson session.strategyContextJson
  entryPrice : ColumnYields commit.before.entryPrice commit.after.entryPrice loaded.entryPrice session.entryPrice
  effectivePrice : ColumnYields commit.before.effectivePrice commit.after.effectivePrice
    loaded.effectivePrice session.effectivePrice

instance (commit : RowCommit δ) (loaded session : TradeSignal δ) : Decidable (commit.Yields loaded session) :=
  decidable_of_iff (_ ∧ _ ∧ _ ∧ _ ∧ _) ⟨fun ⟨expiry, payload, context, entry, effective⟩ => ⟨expiry, payload, context, entry, effective⟩,
    fun ⟨expiry, payload, context, entry, effective⟩ => ⟨expiry, payload, context, entry, effective⟩⟩

inductive Session (δ : Type) where
  | idle
  | updating (call : SignalUpsert δ) (reactivates : Bool)
  | flushing (call : SignalUpsert δ) (loaded session : TradeSignal δ)
  | ended

/-- The holder of the row lock: its call, the row that it loaded where it writes through the ORM, the row as its session
sees it, and the row it has written. -/
structure Writer (δ : Type) where
  client : ℕ
  call : SignalUpsert δ
  loaded : Option (TradeSignal δ)
  seen : TradeSignal δ
  written : TradeSignal δ

inductive RowAction (δ : Type) where
  | select (call : SignalUpsert δ)
  | write (now : ℤ)
  | commit
  | rollback

instance (action : RowAction δ) : Decidable (action = .commit) :=
  match action with
  | .commit => isTrue rfl
  | .select _ => isFalse fun same => by cases same
  | .write _ => isFalse fun same => by cases same
  | .rollback => isFalse fun same => by cases same

structure RowEvent (δ : Type) where
  client : ℕ
  action : RowAction δ

/-- The committed row with its lock, the row that the effective call of the largest sequence has left, and what has been
committed since each client's SELECT. -/
structure SignalRow (δ : Type) where
  committed : TradeSignal δ
  sessions : ℕ → Session δ
  writer : Option (Writer δ)
  newest : TradeSignal δ
  since : ℕ → List (RowCommit δ)

def Past (sequence : ℤ) (existing : Option ℤ) : Prop := ∀ held ∈ existing, held < sequence

instance (sequence : ℤ) (existing : Option ℤ) : Decidable (Past sequence existing) :=
  inferInstanceAs (Decidable (∀ held ∈ existing, held < sequence))

variable (rules : SignalRules δ)

namespace SignalRow

def settle (state : SignalRow δ) (client : ℕ) (session : Session δ) : SignalRow δ :=
  { state with sessions := Function.update state.sessions client session }

def lock (state : SignalRow δ) (writer : Writer δ) : SignalRow δ :=
  { state.settle writer.client .ended with writer := some writer }

def step (state : SignalRow δ) (event : RowEvent δ) : SignalRow δ :=
  match event.action with
  | .select call =>
    match state.sessions event.client with
    | .idle =>
      { state.settle event.client (match rules.plan state.committed call with
          | .stale => .ended
          | .update reactivates => .updating call reactivates
          | .assign session => .flushing call state.committed session) with
        since := Function.update state.since event.client [] }
    | _ => state
  | .write now =>
    if state.writer.isSome then state
    else match state.sessions event.client with
      | .updating call reactivates =>
        -- the predicate is judged on the row as it is now, and a loser writes nothing
        if Past call.runtimeSequence state.committed.runtimeSequence then
          let written := rules.newValues call reactivates state.committed
          state.lock ⟨event.client, call, none, written, written⟩
        else state.settle event.client .ended
      | .flushing call loaded session =>
        state.lock ⟨event.client, call, some loaded, session, loaded.flush now session state.committed⟩
      | _ => state
  | .commit =>
    match state.writer with
    | none => state
    | some writer =>
      if writer.client = event.client then
        { state with
          committed := writer.written
          writer := none
          newest := if Past writer.call.runtimeSequence state.newest.runtimeSequence then writer.seen else state.newest
          since := fun client => ⟨writer.call.runtimeSequence, state.committed, writer.written⟩ :: state.since client }
      else state
  | .rollback =>
    { state.settle event.client .ended with writer := state.writer.filter fun writer => writer.client ≠ event.client }

def start (row : TradeSignal δ) : SignalRow δ := ⟨row, fun _ => .idle, none, row, fun _ => []⟩

/-- One step keeps the sequence from falling, changes no column for a call whose sequence is not past the row's, and leaves
the content and the sequence of the newest effective call. -/
structure Kept (state : SignalRow δ) (event : RowEvent δ) : Prop where
  sequence : ∀ held ∈ state.committed.runtimeSequence, ∃ later ∈ (state.step rules event).committed.runtimeSequence, held ≤ later
  stale : ∀ writer ∈ state.writer, ¬Past writer.call.runtimeSequence state.committed.runtimeSequence →
    (state.step rules event).committed = state.committed
  content : (state.step rules event).committed.content = (state.step rules event).newest.content
  newest : (state.step rules event).committed.runtimeSequence = (state.step rules event).newest.runtimeSequence

/-- Where an ORM flush is committed, what has been committed since its SELECT is of smaller sequences, and changed of the
content only columns that the session changes too. -/
def Unovertaken (state : SignalRow δ) (event : RowEvent δ) : Prop :=
  event.action = .commit → ∀ writer ∈ state.writer, writer.client = event.client → ∀ loaded ∈ writer.loaded,
    ∀ commit ∈ state.since writer.client, commit.sequence < writer.call.runtimeSequence ∧ commit.Yields loaded writer.seen

instance (state : SignalRow δ) (event : RowEvent δ) : Decidable (Unovertaken state event) :=
  inferInstanceAs (Decidable (event.action = .commit → ∀ writer ∈ state.writer, writer.client = event.client →
    ∀ loaded ∈ writer.loaded, ∀ commit ∈ state.since writer.client,
      commit.sequence < writer.call.runtimeSequence ∧ commit.Yields loaded writer.seen))

end SignalRow

end

end Callisto.Signals
