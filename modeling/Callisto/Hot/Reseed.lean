import Callisto.Hot.TraderHotState
import Callisto.Library.Runs

/-! What a reseed owes to the process: the orders that it read as active with the calls since the read, the profits recorded today and the
last cursor set. -/

namespace Callisto.Hot

open Callisto.Library
open Callisto.Ws (strip)

variable {τ : Type}

section History

variable (lower : String → String)

def latest {α : Type} (pick : HotCall τ → Option α) (calls : List (HotCall τ)) : Option α :=
  calls.foldl (fun known call => (pick call).or known) none

def HotCall.orderId : HotCall τ → String
  | .upsertActiveOrder _ _ orderId _ => strip orderId
  | .recordOrderResolved _ _ orderId _ _ _ => strip orderId
  | .recordOrderCancelled _ _ orderId => strip orderId
  | .updateSignalCursor _ _ _ _ _ => ""

def HotCall.leaves : HotCall τ → Option Bool
  | .upsertActiveOrder _ _ orderId _ => if strip orderId = "" then none else some true
  | .recordOrderResolved _ _ _ _ _ _ => some false
  | .recordOrderCancelled _ _ _ => some false
  | .updateSignalCursor _ _ _ _ _ => none

def HotCall.tracks (key : SnapshotKey) (id : String) (call : HotCall τ) : Option Bool :=
  if call.key lower = key ∧ call.orderId = id then call.leaves else none

def HotCall.recorded (today : ℕ) (key : SnapshotKey) : HotCall τ → Option (String × ℚ)
  | .recordOrderResolved traderId mode orderId status actualProfit updatedOn =>
    if (traderId, modeKey lower mode) = key ∧ isRealizedStatus lower status ∧ updatedOn.getD today = today then
      some (strip orderId, actualProfit) else none
  | _ => none

def lastProfit (records : List (String × ℚ)) (id : String) : Option ℚ :=
  records.foldl (fun known record => if record.1 = id then some record.2 else known) none

def unnamed (records : List (String × ℚ)) : ℚ := ((records.filter fun record => record.1 = "").map Prod.snd).sum

def HotCall.setsCursor (key : SnapshotKey) : HotCall τ → Option (Option ℕ × Option String)
  | .updateSignalCursor traderId mode createdAt signalId _ =>
    if (traderId, modeKey lower mode) = key then some (createdAt, signalId.filter (· ≠ "")) else none
  | _ => none

def HotCall.setsSequence (key : SnapshotKey) : HotCall τ → Option ℤ
  | .updateSignalCursor traderId mode _ _ runtimeSequence => if (traderId, modeKey lower mode) = key then runtimeSequence else none
  | _ => none

def readActive (table : OrderTable τ) (key : SnapshotKey) (id : String) : Bool :=
  if named : id ≠ "" then (table.get? ⟨id, named⟩).any fun row => row.key lower = key ∧ isActiveStatus lower row.status else false

def readProfit (table : OrderTable τ) (day : ℕ) (key : SnapshotKey) (id : String) : Option ℚ :=
  if named : id ≠ "" then
    ((table.get? ⟨id, named⟩).filter fun row => row.key lower = key ∧ row.realizedToday lower day).map OrderRow.actualProfit
  else none

def shadowed (table : OrderTable τ) (day : ℕ) (positions : List (String × String)) (key : SnapshotKey) : Bool :=
  (table.values.any fun row => row.key lower = key ∧ row.selected lower day) || positions.any fun position =>
    (position.1, modeKey lower position.2) = key

/-- The process with its history: all calls, those of today, those since the last read of the orders began, the snapshots at that read, and
what the reads saw. -/
structure Watched (τ : Type) where
  state : HotState τ
  calls : List (HotCall τ)
  todays : List (HotCall τ)
  since : List (HotCall τ)
  atRead : Snapshots τ
  readDay : ℕ
  table : OrderTable τ
  positions : List (String × String)
  cursors : Dict String CursorRow
  swapped : Bool

def newProcess (today : ℕ) : Watched τ := ⟨⟨today, Dict.empty, none⟩, [], [], [], Dict.empty, today, Dict.empty, [], Dict.empty, false⟩

def watchStep (watched : Watched τ) (event : HotEvent τ) : Watched τ :=
  let next := { watched with state := hotStep lower watched.state event, swapped := false }
  match event with
  | .nextDay => { next with todays := [] }
  | .call call =>
    { next with calls := watched.calls ++ [call], todays := watched.todays ++ [call], since := watched.since ++ [call] }
  | .readOrders table =>
    match watched.state.reseed with
    | none =>
      { next with
        since := []
        atRead := watched.state.snapshots
        readDay := watched.state.today
        table := table
        positions := []
        cursors := Dict.empty }
    | some _ => next
  | .readPositions positions =>
    match watched.state.reseed with
    | some ⟨_, _, .orders⟩ => { next with positions := positions }
    | _ => next
  | .readCursors cursors =>
    match watched.state.reseed with
    | some ⟨_, _, .positions⟩ => { next with cursors := cursors }
    | _ => next
  | .swap =>
    match watched.state.reseed with
    | some ⟨_, _, .cursors⟩ => { next with swapped := true }
    | _ => next
  | .fail => next

namespace Watched

variable (watched : Watched τ) (key : SnapshotKey)

def snapshot : Snapshot τ := snapshotOf watched.state.snapshots key

def records : List (String × ℚ) := watched.todays.filterMap (HotCall.recorded lower watched.state.today key)

def cursorRow : CursorRow := (watched.cursors.get? key.1).getD ⟨none, none, none⟩

def isShadowed : Bool := shadowed lower watched.table watched.readDay watched.positions key

end Watched

structure KeepsProfits (today : ℕ) (records : List (String × ℚ)) (snapshot : Snapshot τ) : Prop where
  day : records ≠ [] → snapshot.dailyPnlDate = some today
  total : records ≠ [] → snapshot.dailyRealizedPnl = snapshot.dailyRealizedOrderPnl.sumBy id + unnamed records
  orders : ∀ id profit, id ≠ "" → lastProfit records id = some profit → snapshot.dailyRealizedOrderPnl.get? id = some profit

structure KeepsCursor (calls : List (HotCall τ)) (key : SnapshotKey) (snapshot : Snapshot τ) : Prop where
  position : ∀ position, latest (HotCall.setsCursor lower key) calls = some position →
    (snapshot.cursorCreatedAt, snapshot.cursorSignalId) = position
  sequence : ∀ sequence, latest (HotCall.setsSequence lower key) calls = some sequence → snapshot.cursorRuntimeSequence = some sequence

structure Refreshed (watched : Watched τ) (key : SnapshotKey) : Prop where
  orders : ∀ id, ((watched.snapshot key).activeOrders.get? id).isSome =
    (latest (HotCall.tracks lower key id) watched.since).getD (readActive lower watched.table key id)
  profits : KeepsProfits watched.state.today (watched.records lower key) (watched.snapshot key)
  cursor : KeepsCursor lower watched.calls key (watched.snapshot key)

/-- An order tracked before the read and not called since was read as active, and one that the last call closed was not. -/
def OrdersSafe (watched : Watched τ) : Prop :=
  (∀ entry ∈ watched.atRead.entries, ∀ order ∈ entry.2.activeOrders.entries,
    latest (HotCall.tracks lower entry.1 order.1) watched.since = none → readActive lower watched.table entry.1 order.1 = true) ∧
  ∀ call ∈ watched.since, latest (HotCall.tracks lower (call.key lower) call.orderId) watched.since = some false →
    readActive lower watched.table (call.key lower) call.orderId = false

/-- The profits recorded today are of the day of the read; where the reads saw the trader and mode, they are under order ids and those
read are the same; elsewhere the old snapshot is preserved. -/
def ProfitsSafe (watched : Watched τ) (key : SnapshotKey) : Prop :=
  watched.records lower key ≠ [] → watched.readDay = watched.state.today ∧
    if watched.isShadowed lower key then unnamed (watched.records lower key) = 0 ∧
      ∀ record ∈ watched.records lower key, (readProfit lower watched.table watched.readDay key record.1).all fun profit =>
        lastProfit (watched.records lower key) record.1 = some profit
    else (watched.snapshot key).preserved watched.readDay = true

/-- The cursor row read is the cursor last set, or the old snapshot is preserved. -/
def CursorSafe (watched : Watched τ) (key : SnapshotKey) : Prop :=
  if watched.isShadowed lower key then
    (latest (HotCall.setsCursor lower key) watched.calls).all (fun position =>
      ((watched.cursorRow key).lastSignalCreatedAt, (watched.cursorRow key).lastSignalId.filter (· ≠ "")) = position) ∧
    (latest (HotCall.setsSequence lower key) watched.calls).all fun sequence =>
      (watched.cursorRow key).lastRuntimeSequence = some sequence
  else (latest (HotCall.setsCursor lower key) watched.calls).isSome → (watched.snapshot key).preserved watched.readDay = true

instance (watched : Watched τ) (key : SnapshotKey) : Decidable (ProfitsSafe lower watched key) := by
  unfold ProfitsSafe
  infer_instance

instance (watched : Watched τ) (key : SnapshotKey) : Decidable (CursorSafe lower watched key) := by
  unfold CursorSafe
  infer_instance

instance (watched : Watched τ) : Decidable (OrdersSafe lower watched) := by
  unfold OrdersSafe
  infer_instance

def SwapSafe (watched : Watched τ) : HotEvent τ → Prop
  | .swap => OrdersSafe lower watched ∧ (∀ call ∈ watched.todays, ProfitsSafe lower watched (call.key lower)) ∧
      ∀ call ∈ watched.calls, CursorSafe lower watched (call.key lower)
  | _ => True

instance (watched : Watched τ) : ∀ event, Decidable (SwapSafe lower watched event)
  | .swap => inferInstanceAs (Decidable (OrdersSafe lower watched ∧ _))
  | .nextDay => isTrue trivial
  | .call _ => isTrue trivial
  | .readOrders _ => isTrue trivial
  | .readPositions _ => isTrue trivial
  | .readCursors _ => isTrue trivial
  | .fail => isTrue trivial

end History

end Callisto.Hot
