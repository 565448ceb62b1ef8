import Mathlib.Algebra.Order.Ring.Rat
import Callisto.Ws.Payload

/-! The orchestrator's in-memory state of each trader and mode, its inline mutations, and the reseed of it from the database. -/

namespace Callisto.Hot

open Callisto.Library
open Callisto.Ws (strip)

abbrev SnapshotKey := String × String

variable {τ : Type}

/-- `_TraderSnapshot`, without the views over its active orders; `τ` is what is tracked of an order, and days are counted. -/
structure Snapshot (τ : Type) where
  activeOrders : Dict String τ
  dailyRealizedPnl : ℚ
  dailyPnlDate : Option ℕ
  dailyRealizedOrderPnl : Dict String ℚ
  resolvedOrderStatuses : Dict String String
  cursorCreatedAt : Option ℕ
  cursorSignalId : Option String
  cursorRuntimeSequence : Option ℤ

def newSnapshot : Snapshot τ := ⟨Dict.empty, 0, none, Dict.empty, Dict.empty, none, none, none⟩

abbrev Snapshots (τ : Type) := Dict SnapshotKey (Snapshot τ)

/-- `_ensure_snapshot` -/
def snapshotOf (snapshots : Snapshots τ) (key : SnapshotKey) : Snapshot τ := (snapshots.get? key).getD newSnapshot

/-- The calls that change the state, with the values that they use. -/
inductive HotCall (τ : Type) where
  | upsertActiveOrder (traderId mode orderId : String) (tracked : τ)
  | recordOrderResolved (traderId mode orderId status : String) (actualProfit : ℚ) (updatedOn : Option ℕ)
  | recordOrderCancelled (traderId mode orderId : String)
  | updateSignalCursor (traderId mode : String) (createdAt : Option ℕ) (signalId : Option String) (runtimeSequence : Option ℤ)

def openOrderStatuses : List String := ["submitted", "executed", "completed", "open"]

def realizedOrderStatuses : List String := ["resolved_win", "closed_win", "win", "resolved_loss", "closed_loss", "loss"]

section Mutations

variable (lower : String → String)

def statusKey (status : String) : String := lower (strip status)

def modeKey (mode : String) : String :=
  let key := lower (strip mode)
  if key = "shadow" ∨ key = "live" then key else "other"

def isActiveStatus (status : String) : Prop := statusKey lower status ∈ openOrderStatuses

def isRealizedStatus (status : String) : Prop := statusKey lower status ∈ realizedOrderStatuses

instance (status : String) : Decidable (isActiveStatus lower status) := inferInstanceAs (Decidable (_ ∈ openOrderStatuses))

instance (status : String) : Decidable (isRealizedStatus lower status) := inferInstanceAs (Decidable (_ ∈ realizedOrderStatuses))

def HotCall.key : HotCall τ → SnapshotKey
  | .upsertActiveOrder traderId mode _ _ => (traderId, modeKey lower mode)
  | .recordOrderResolved traderId mode _ _ _ _ => (traderId, modeKey lower mode)
  | .recordOrderCancelled traderId mode _ => (traderId, modeKey lower mode)
  | .updateSignalCursor traderId mode _ _ _ => (traderId, modeKey lower mode)

/-- The profit and loss part of `record_order_resolved`. -/
def Snapshot.realize (snapshot : Snapshot τ) (today : ℕ) (orderId status : String) (profit : ℚ) : Snapshot τ :=
  let day := if snapshot.dailyPnlDate = some today then snapshot else
    { snapshot with
      dailyRealizedPnl := 0
      dailyPnlDate := some today
      dailyRealizedOrderPnl := Dict.empty
      resolvedOrderStatuses := Dict.empty }
  let pnlDelta := match day.dailyRealizedOrderPnl.get? orderId with
    | some previousProfit => profit - previousProfit
    | none => profit
  { day with
    dailyRealizedPnl := day.dailyRealizedPnl + pnlDelta
    dailyRealizedOrderPnl := if orderId = "" then day.dailyRealizedOrderPnl else day.dailyRealizedOrderPnl.set orderId profit
    resolvedOrderStatuses := if orderId = "" then day.resolvedOrderStatuses else day.resolvedOrderStatuses.set orderId status }

def Snapshot.apply (today : ℕ) (snapshot : Snapshot τ) : HotCall τ → Snapshot τ
  | .upsertActiveOrder _ _ orderId tracked =>
    if strip orderId = "" then snapshot else { snapshot with activeOrders := snapshot.activeOrders.set (strip orderId) tracked }
  | .recordOrderResolved _ _ orderId status actualProfit updatedOn =>
    let popped := { snapshot with activeOrders := snapshot.activeOrders.erase (strip orderId) }
    if isRealizedStatus lower status ∧ updatedOn.getD today = today then
      popped.realize today (strip orderId) (statusKey lower status) actualProfit
    else popped
  | .recordOrderCancelled _ _ orderId => { snapshot with activeOrders := snapshot.activeOrders.erase (strip orderId) }
  | .updateSignalCursor _ _ createdAt signalId runtimeSequence =>
    { snapshot with
      cursorCreatedAt := createdAt
      cursorSignalId := signalId.filter (· ≠ "")
      cursorRuntimeSequence := runtimeSequence.or snapshot.cursorRuntimeSequence }

def HotCall.isCancel : HotCall τ → Bool
  | .recordOrderCancelled _ _ _ => true
  | _ => false

/-- A call on the state; only a cancellation needs a snapshot that is there. -/
def hotCall (today : ℕ) (snapshots : Snapshots τ) (call : HotCall τ) : Snapshots τ :=
  if call.isCancel && (snapshots.get? (call.key lower)).isNone then snapshots
  else snapshots.set (call.key lower) ((snapshotOf snapshots (call.key lower)).apply lower today call)

structure OrderRow (τ : Type) where
  traderId : String
  mode : String
  status : String
  updatedOn : Option ℕ
  actualProfit : ℚ
  tracked : τ

abbrev OrderId := {id : String // id ≠ ""}

abbrev OrderTable (τ : Type) := Dict OrderId (OrderRow τ)

structure CursorRow where
  lastSignalCreatedAt : Option ℕ
  lastSignalId : Option String
  lastRuntimeSequence : Option ℤ

def OrderRow.key (row : OrderRow τ) : SnapshotKey := (row.traderId, modeKey lower row.mode)

/-- `status_key in REALIZED_ORDER_STATUSES` with `updated_at >= today_start`. -/
def OrderRow.realizedToday (row : OrderRow τ) (today : ℕ) : Prop :=
  isRealizedStatus lower row.status ∧ row.updatedOn.any (today ≤ ·) = true

instance (row : OrderRow τ) (today : ℕ) : Decidable (row.realizedToday lower today) :=
  inferInstanceAs (Decidable (_ ∧ _))

def OrderRow.selected (row : OrderRow τ) (today : ℕ) : Prop := isActiveStatus lower row.status ∨ row.realizedToday lower today

instance (row : OrderRow τ) (today : ℕ) : Decidable (row.selected lower today) := inferInstanceAs (Decidable (_ ∨ _))

def Snapshot.readRow (today : ℕ) (snapshot : Snapshot τ) (orderId : OrderId) (row : OrderRow τ) : Snapshot τ :=
  let tracked := if isActiveStatus lower row.status then
    { snapshot with activeOrders := snapshot.activeOrders.set orderId row.tracked } else snapshot
  if row.realizedToday lower today then
    { tracked with
      dailyRealizedPnl := tracked.dailyRealizedPnl + row.actualProfit
      dailyPnlDate := some today
      dailyRealizedOrderPnl := tracked.dailyRealizedOrderPnl.set orderId row.actualProfit
      resolvedOrderStatuses := tracked.resolvedOrderStatuses.set orderId (statusKey lower row.status) }
  else tracked

def readOrder (today : ℕ) (shadow : Snapshots τ) (entry : OrderId × OrderRow τ) : Snapshots τ :=
  if entry.2.selected lower today then
    shadow.set (entry.2.key lower) ((snapshotOf shadow (entry.2.key lower)).readRow lower today entry.1 entry.2)
  else shadow

def readOrders (today : ℕ) (table : OrderTable τ) : Snapshots τ := table.entries.foldl (readOrder lower today) Dict.empty

/-- `_shadow_ensure` for every open position, by trader and mode. -/
def readPositions (shadow : Snapshots τ) (positions : List (String × String)) : Snapshots τ :=
  positions.foldl (fun shadow position =>
    shadow.set (position.1, modeKey lower position.2) (snapshotOf shadow (position.1, modeKey lower position.2))) shadow

def Snapshot.withCursor (snapshot : Snapshot τ) (row : CursorRow) : Snapshot τ :=
  { snapshot with
    cursorCreatedAt := row.lastSignalCreatedAt
    cursorSignalId := row.lastSignalId.filter (· ≠ "")
    cursorRuntimeSequence := row.lastRuntimeSequence }

/-- The cursor row of each trader, for every shadow snapshot of that trader. -/
def readCursors (shadow : Snapshots τ) (cursors : Dict String CursorRow) : Snapshots τ :=
  shadow.mapValues fun key snapshot => (cursors.get? key.1).elim snapshot snapshot.withCursor

/-- A profit of the old snapshot, unless the shadow has one for the order. -/
def mergeProfit (merged : ℚ × Dict String ℚ) (entry : String × ℚ) : ℚ × Dict String ℚ :=
  if (merged.2.get? entry.1).isSome then merged else (merged.1 + entry.2, merged.2.set entry.1 entry.2)

def mergePnl (today : ℕ) (old shadow : Snapshot τ) : Snapshot τ :=
  if old.dailyPnlDate = some today then
    let day := if shadow.dailyPnlDate = some today then shadow else
      { shadow with dailyPnlDate := some today, dailyRealizedPnl := 0, dailyRealizedOrderPnl := Dict.empty }
    let merged := old.dailyRealizedOrderPnl.entries.foldl mergeProfit (day.dailyRealizedPnl, day.dailyRealizedOrderPnl)
    { day with
      dailyRealizedPnl := merged.1
      dailyRealizedOrderPnl := merged.2
      resolvedOrderStatuses := day.resolvedOrderStatuses.setDefaults old.resolvedOrderStatuses }
  else shadow

def Snapshot.preserved (today : ℕ) (old : Snapshot τ) : Bool :=
  !old.activeOrders.entries.isEmpty || (old.dailyPnlDate = some today && !old.dailyRealizedOrderPnl.entries.isEmpty)

def mergeSnapshot (today : ℕ) (old : Snapshot τ) : Option (Snapshot τ) → Option (Snapshot τ)
  | some shadow => some (mergePnl today old { shadow with activeOrders := shadow.activeOrders.setDefaults old.activeOrders })
  | none => if old.preserved today then some old else none

def mergeSnapshots (today : ℕ) (old shadow : Snapshots τ) : Snapshots τ := Dict.mergeEntries (mergeSnapshot today) old shadow

end Mutations

inductive ReadPhase where
  | orders
  | positions
  | cursors
  deriving DecidableEq

/-- `_seed_from_db` between its reads. -/
structure Reseed (τ : Type) where
  today : ℕ
  shadow : Snapshots τ
  phase : ReadPhase

/-- The process: the day, its snapshots and the running reseed. -/
structure HotState (τ : Type) where
  today : ℕ
  snapshots : Snapshots τ
  reseed : Option (Reseed τ)

/-- What happens to the process; `_seed_lock` keeps reseeds apart, and a failed query ends one. -/
inductive HotEvent (τ : Type) where
  | nextDay
  | call (call : HotCall τ)
  | readOrders (table : OrderTable τ)
  | readPositions (positions : List (String × String))
  | readCursors (cursors : Dict String CursorRow)
  | swap
  | fail

def hotStep (lower : String → String) (state : HotState τ) : HotEvent τ → HotState τ
  | .nextDay => { state with today := state.today + 1 }
  | .call call => { state with snapshots := hotCall lower state.today state.snapshots call }
  | .readOrders table =>
    match state.reseed with
    | none => { state with reseed := some ⟨state.today, readOrders lower state.today table, .orders⟩ }
    | some _ => state
  | .readPositions positions =>
    match state.reseed with
    | some ⟨today, shadow, .orders⟩ => { state with reseed := some ⟨today, readPositions lower shadow positions, .positions⟩ }
    | _ => state
  | .readCursors cursors =>
    match state.reseed with
    | some ⟨today, shadow, .positions⟩ => { state with reseed := some ⟨today, readCursors shadow cursors, .cursors⟩ }
    | _ => state
  | .swap =>
    match state.reseed with
    | some ⟨today, shadow, .cursors⟩ => { state with snapshots := mergeSnapshots today state.snapshots shadow, reseed := none }
    | _ => state
  | .fail => { state with reseed := none }

end Callisto.Hot
