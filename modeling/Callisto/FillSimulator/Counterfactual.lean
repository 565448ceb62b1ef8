import Mathlib.Data.List.Dedup
import Mathlib.Data.Rat.Floor
import Mathlib.Algebra.Order.Ring.Rat
import Callisto.Library.Rounding
import Callisto.Library.TimeSeries

/-! The counterfactual replay of an order: the files of a token are resolved, the newest book before the placement gives the queue ahead,
and the recorded deltas are played against it. Times are in microseconds. -/

namespace Callisto.FillSimulator

open Callisto.Library Callisto.Library.TimeSeries

structure SnapshotRow where
  tokenId : String
  observedAtUs : Option ℤ
  bids : List (ℚ × ℚ) := []
  asks : List (ℚ × ℚ) := []
  deriving DecidableEq

structure DeltaRow where
  tokenId : String
  observedAtUs : Option ℤ
  eventType : Option String := none
  side : Option String := none
  price : Option ℚ := none
  tradeSize : Option ℚ := none
  cancelSize : Option ℚ := none
  deriving DecidableEq

/-- A file of snapshots, and the file of deltas beside it if there is one. -/
structure WindowFiles where
  path : String
  snapshots : List SnapshotRow
  deltas : Option (List DeltaRow) := none
  deriving DecidableEq

/-- A dataset of a window directory: what it says it covers, and the files that may hold a token. -/
structure WindowDir where
  startUs : ℤ
  endUs : ℤ
  tokens : List String
  bundle : Option WindowFiles := none
  safe : Option WindowFiles := none
  raw : Option WindowFiles := none

def WindowDir.resolve (dir : WindowDir) : Option WindowFiles := dir.bundle.or (dir.safe.or dir.raw)

def resolveCoverage (dirs : List WindowDir) (token : String) (startUs endUs : ℤ) : List WindowFiles :=
  (((dirs.filter fun dir => dir.startUs ≤ endUs ∧ startUs ≤ dir.endUs ∧ token ∈ dir.tokens).filterMap WindowDir.resolve).dedup).insertionSort
    fun first second => first.path ≤ second.path

/-- `_resolve_parquet_window` takes the first of the files. -/
def resolveParquetWindow (dirs : List WindowDir) (token : String) (startUs endUs : ℤ) : Option WindowFiles :=
  (resolveCoverage dirs token startUs endUs).head?

def snapshotsUntil (token : String) (maxUs : ℤ) (rows : List SnapshotRow) : List (ℤ × SnapshotRow) :=
  (rows.filter fun row => row.tokenId = token).filterMap fun row =>
    row.observedAtUs.bind fun observed => if observed ≤ maxUs then some (observed, row) else none

def readParquetSnapshotAt (token : String) (maxUs : ℤ) (rows : List SnapshotRow) : Option (ℤ × SnapshotRow) :=
  (finalize (snapshotsUntil token maxUs rows)).getLast?

def deltasWithin (token : String) (startUs endUs : ℤ) (rows : List DeltaRow) : List (ℤ × DeltaRow) :=
  (rows.filter fun row => row.tokenId = token).filterMap fun row =>
    row.observedAtUs.bind fun observed => if startUs < observed ∧ observed ≤ endUs then some (observed, row) else none

def readParquetDeltas (token : String) (startUs endUs : ℤ) (rows : List DeltaRow) : List (ℤ × DeltaRow) :=
  finalize (deltasWithin token startUs endUs rows)

/-- A book as `_Snapshot` holds it. -/
structure Snapshot where
  bids : List (ℚ × ℚ)
  asks : List (ℚ × ℚ)
  deriving DecidableEq

def snapshotOf (entry : ℤ × SnapshotRow) : Snapshot := ⟨entry.2.bids, entry.2.asks⟩

structure CounterfactualOrder where
  tokenId : String
  side : String
  price : ℚ
  sizeShares : ℚ
  placedAt : ℤ
  timeInForce : ℤ := 60000000

inductive Notes where
  | noBookSnapshotAtPlacement
  | counted (queueInit tradesAtPrice cancelsAtPrice : ℚ)

structure CounterfactualResult where
  filledShares : ℚ
  averageFillPrice : Option ℚ
  timeToFill : Option ℤ
  finalQueueAhead : ℚ
  cancelsAheadObserved : ℚ
  tradesAheadObserved : ℚ
  eventsProcessed : ℕ
  expired : Bool
  notes : Notes

def minDeltaSize : ℚ := 1 / 100

def snapshotLookback : ℤ := 30 * 60 * 1000000

/-- `round(value, 4)` -/
def round4 (value : ℚ) : ℚ :=
  let magnitude : ℚ := Rounding.halfEven (value.num.natAbs * 10 ^ 4) value.den / 10 ^ 4
  if value < 0 then -magnitude else magnitude

variable (lower : String → String)

def CounterfactualOrder.isBuy (order : CounterfactualOrder) : Bool := "buy".toList.isPrefixOf (lower order.side).toList

def initialQueueAhead (order : CounterfactualOrder) (snapshot : Snapshot) : ℚ :=
  let levels := if order.isBuy lower then snapshot.bids else snapshot.asks
  ((levels.filter fun level => |level.1 - round4 order.price| < 1 / 10 ^ 4).map fun level => max 0 level.2).sum

def atLevel (order : CounterfactualOrder) (delta : DeltaRow) : Prop :=
  lower (delta.side.getD "") = (if order.isBuy lower then "bid" else "ask") ∧
    |round4 (delta.price.getD 0) - round4 order.price| ≤ 1 / 10 ^ 4

instance (order : CounterfactualOrder) (delta : DeltaRow) : Decidable (atLevel lower order delta) := inferInstanceAs (Decidable (_ ∧ _))

structure Playing where
  filled : ℚ := 0
  cancels : ℚ := 0
  trades : ℚ := 0
  queue : ℚ
  firstFillAt : Option ℤ := none

def playOne (order : CounterfactualOrder) (state : Playing) (event : ℤ × DeltaRow) : Playing :=
  if ¬ atLevel lower order event.2 then state
  else if lower (event.2.eventType.getD "") = "trade" then
    let size := event.2.tradeSize.getD 0
    if size < minDeltaSize then state
    else
      let consumed := min size state.queue
      let remaining := size - consumed
      let counted := { state with trades := state.trades + size, queue := state.queue - consumed }
      if 0 < remaining then
        { counted with
          filled := state.filled + min remaining (order.sizeShares - state.filled)
          firstFillAt := state.firstFillAt.or (some event.1) }
      else counted
  else if lower (event.2.eventType.getD "") = "cancel" then
    let size := event.2.cancelSize.getD 0
    if size < minDeltaSize then state
    else { state with cancels := state.cancels + size, queue := max 0 (state.queue - size) }
  else state

def play (order : CounterfactualOrder) (state : Playing) : List (ℤ × DeltaRow) → Playing
  | [] => state
  | event :: rest => if order.sizeShares ≤ state.filled then state else play order (playOne lower order state event) rest

def replayEvents (order : CounterfactualOrder) (snapshot : Snapshot) (events : List (ℤ × DeltaRow)) : CounterfactualResult :=
  let queue := initialQueueAhead lower order snapshot
  let final := play lower order { queue := queue } events
  { filledShares := final.filled
    averageFillPrice := if 0 < final.filled then some order.price else none
    timeToFill := final.firstFillAt.map fun filledAt => max 0 (filledAt - order.placedAt)
    finalQueueAhead := final.queue
    cancelsAheadObserved := final.cancels
    tradesAheadObserved := final.trades
    eventsProcessed := events.length
    expired := final.filled < order.sizeShares
    notes := .counted queue final.trades final.cancels }

def CounterfactualOrder.endAt (order : CounterfactualOrder) : ℤ := order.placedAt + max 0 order.timeInForce

def fetchInitialSnapshot (dirs : List WindowDir) (order : CounterfactualOrder) : Option Snapshot :=
  (resolveParquetWindow dirs order.tokenId (order.placedAt - snapshotLookback) order.placedAt).bind fun files =>
    (readParquetSnapshotAt order.tokenId order.placedAt files.snapshots).map snapshotOf

def streamDeltaEvents (dirs : List WindowDir) (order : CounterfactualOrder) : List (ℤ × DeltaRow) :=
  match (resolveParquetWindow dirs order.tokenId order.placedAt order.endAt).bind WindowFiles.deltas with
  | none => []
  | some rows => readParquetDeltas order.tokenId order.placedAt order.endAt rows

def replayCounterfactualOrder (dirs : List WindowDir) (order : CounterfactualOrder) : CounterfactualResult :=
  match fetchInitialSnapshot dirs order with
  | none =>
    { filledShares := 0
      averageFillPrice := none
      timeToFill := none
      finalQueueAhead := 0
      cancelsAheadObserved := 0
      tradesAheadObserved := 0
      eventsProcessed := 0
      expired := true
      notes := .noBookSnapshotAtPlacement }
  | some snapshot => replayEvents lower order snapshot (streamDeltaEvents dirs order)

end Callisto.FillSimulator
