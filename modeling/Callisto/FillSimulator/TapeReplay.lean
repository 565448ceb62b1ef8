import Callisto.Library.FifoQueue
import Callisto.FillSimulator.Counterfactual

/-! The replay follows the recorded tape exactly if the first file that is found holds all of it. -/

namespace Callisto.FillSimulator

open Callisto.Library Callisto.Library.TimeSeries Callisto.Library.FifoQueue

variable (lower : String → String) (dirs : List WindowDir) (order : CounterfactualOrder)

def tapeSnapshots : List SnapshotRow :=
  (resolveCoverage dirs order.tokenId (order.placedAt - snapshotLookback) order.placedAt).flatMap WindowFiles.snapshots

def newestSnapshot : Option Snapshot := (readParquetSnapshotAt order.tokenId order.placedAt (tapeSnapshots dirs order)).map snapshotOf

def deltasOf (files : List WindowFiles) : List DeltaRow := files.flatMap fun file => file.deltas.getD []

/-- The recorded deltas of some files after the placement, up to a time. -/
def tapeUntil (files : List WindowFiles) (endUs : ℤ) : List (ℤ × DeltaRow) :=
  readParquetDeltas order.tokenId order.placedAt endUs (deltasOf files)

def tapeEvents : List (ℤ × DeltaRow) :=
  tapeUntil order (resolveCoverage dirs order.tokenId order.placedAt order.endAt) order.endAt

/-- One window that holds the recorded tape of an order, in the order of the files. -/
def oneWindow : WindowDir where
  startUs := order.placedAt - snapshotLookback
  endUs := order.endAt
  tokens := [order.tokenId]
  bundle := some
    { path := "snapshots.parquet"
      snapshots := tapeSnapshots dirs order
      deltas := some (deltasOf (resolveCoverage dirs order.tokenId order.placedAt order.endAt)) }

def deltaSize (delta : DeltaRow) : ℚ :=
  if lower (delta.eventType.getD "") = "trade" then delta.tradeSize.getD 0
  else if lower (delta.eventType.getD "") = "cancel" then delta.cancelSize.getD 0
  else 0

def moveOf (event : ℤ × DeltaRow) : Option (Move ℚ) :=
  if atLevel lower order event.2 ∧ minDeltaSize ≤ deltaSize lower event.2 then
    some (if lower (event.2.eventType.getD "") = "trade" then .trade (deltaSize lower event.2) else .cancel (deltaSize lower event.2))
  else none

def movesOf (events : List (ℤ × DeltaRow)) : List (Move ℚ) := events.filterMap (moveOf lower order)

/-- The replay is that of the recorded tape, as if it were not split into files: it starts from the newest book, each delta of the order's
level counts, and what is filled is the most that trades leave once the queue ahead was consumed; a longer queue fills no more, and a
shorter time neither. -/
structure FollowsTape : Prop where
  unsplit : replayCounterfactualOrder lower dirs order = replayCounterfactualOrder lower [oneWindow dirs order] order
  newest : fetchInitialSnapshot dirs order = newestSnapshot dirs order
  streamed : streamDeltaEvents dirs order = tapeEvents dirs order
  counted : ∀ event ∈ tapeEvents dirs order, atLevel lower order event.2 → 0 < deltaSize lower event.2 →
    (moveOf lower order event).isSome = true
  filled : ∀ snapshot, fetchInitialSnapshot dirs order = some snapshot → ∃ amount,
    IsGreatest {amount | ∃ first rest, movesOf lower order (tapeEvents dirs order) = first ++ rest ∧
      amount = leftAfter (initialQueueAhead lower order snapshot) first rest} amount ∧
    (replayCounterfactualOrder lower dirs order).filledShares = min order.sizeShares amount
  within : (replayCounterfactualOrder lower dirs order).filledShares ≤ order.sizeShares ∧
    (replayCounterfactualOrder lower dirs order).filledShares ≤ (replayCounterfactualOrder lower dirs order).tradesAheadObserved
  queued : ∀ short long, initialQueueAhead lower order short ≤ initialQueueAhead lower order long →
    (replayEvents lower order long (streamDeltaEvents dirs order)).filledShares ≤
      (replayEvents lower order short (streamDeltaEvents dirs order)).filledShares
  patient : ∀ shorter ≤ order.timeInForce,
    (replayCounterfactualOrder lower dirs { order with timeInForce := shorter }).filledShares ≤
      (replayCounterfactualOrder lower dirs order).filledShares

/-- The first file of each look-up holds what counts: the other files have no newer book but a like one, and no delta of the time in
force; and sizes are what the replay takes for sizes. -/
structure FirstFileSuffices : Prop where
  snapshots : ∀ entry, readParquetSnapshotAt order.tokenId order.placedAt
      ((resolveCoverage dirs order.tokenId (order.placedAt - snapshotLookback) order.placedAt).tail.flatMap WindowFiles.snapshots) = some entry →
    ∃ files held, resolveParquetWindow dirs order.tokenId (order.placedAt - snapshotLookback) order.placedAt = some files ∧
      readParquetSnapshotAt order.tokenId order.placedAt files.snapshots = some held ∧
      (entry.1 < held.1 ∨ snapshotOf held = snapshotOf entry)
  deltas : deltasWithin order.tokenId order.placedAt order.endAt
    (deltasOf (resolveCoverage dirs order.tokenId order.placedAt order.endAt).tail) = []
  whole : ∀ event ∈ tapeEvents dirs order, atLevel lower order event.2 → 0 < deltaSize lower event.2 →
    minDeltaSize ≤ deltaSize lower event.2
  sized : 0 ≤ order.sizeShares

section Reading

variable {token : String} {startUs endUs : ℤ}

theorem snapshotsUntil_append (maxUs : ℤ) (first second : List SnapshotRow) :
    snapshotsUntil token maxUs (first ++ second) = snapshotsUntil token maxUs first ++ snapshotsUntil token maxUs second := by
  unfold snapshotsUntil
  rw [List.filter_append, List.filterMap_append]

theorem deltasWithin_append (first second : List DeltaRow) :
    deltasWithin token startUs endUs (first ++ second) = deltasWithin token startUs endUs first ++ deltasWithin token startUs endUs second := by
  unfold deltasWithin
  rw [List.filter_append, List.filterMap_append]

/-- The first of all files decides iff the others have nothing newer that differs. -/
theorem newest_eq_iff {τ β : Type} (show_ : ℤ × τ → β) (first second : List (ℤ × τ)) :
    (finalize first).getLast?.map show_ = (finalize (first ++ second)).getLast?.map show_ ↔
      ∀ entry, (finalize second).getLast? = some entry →
        ∃ held, (finalize first).getLast? = some held ∧ (entry.1 < held.1 ∨ show_ held = show_ entry) := by
  rw [getLast?_finalize_append]
  cases newer : (finalize second).getLast? with
  | none => exact iff_of_true rfl fun _ found => (nomatch found)
  | some entry =>
    cases known : (finalize first).getLast? with
    | none =>
      refine iff_of_false (fun same => (nomatch same)) fun all => ?_
      have ⟨held, found, _⟩ := all entry rfl
      cases found
    | some held =>
      dsimp only
      constructor
      · intro same other found
        cases found
        refine ⟨held, rfl, ?_⟩
        split_ifs at same with older
        · exact Or.inl older
        · exact Or.inr (Option.some_inj.1 same)
      · intro all
        have ⟨other, found, either⟩ := all entry rfl
        cases found
        split_ifs with older
        · rfl
        · exact congrArg some (either.resolve_left older)

end Reading

theorem fetch_iff : fetchInitialSnapshot dirs order = newestSnapshot dirs order ↔ ∀ entry,
    readParquetSnapshotAt order.tokenId order.placedAt
      ((resolveCoverage dirs order.tokenId (order.placedAt - snapshotLookback) order.placedAt).tail.flatMap WindowFiles.snapshots) = some entry →
    ∃ files held, resolveParquetWindow dirs order.tokenId (order.placedAt - snapshotLookback) order.placedAt = some files ∧
      readParquetSnapshotAt order.tokenId order.placedAt files.snapshots = some held ∧
      (entry.1 < held.1 ∨ snapshotOf held = snapshotOf entry) := by
  unfold fetchInitialSnapshot newestSnapshot tapeSnapshots resolveParquetWindow
  cases resolveCoverage dirs order.tokenId (order.placedAt - snapshotLookback) order.placedAt with
  | nil => exact iff_of_true rfl fun _ found => (nomatch found)
  | cons files rest =>
    rw [List.flatMap_cons, List.tail_cons, List.head?_cons, Option.bind_some]
    unfold readParquetSnapshotAt
    rw [snapshotsUntil_append, newest_eq_iff]
    constructor
    · intro all entry found
      have ⟨held, known, either⟩ := all entry found
      exact ⟨files, held, rfl, known, either⟩
    · intro all entry found
      have ⟨other, held, same, known, either⟩ := all entry found
      cases same
      exact ⟨held, known, either⟩

theorem endAt_ge : order.placedAt ≤ order.endAt := le_add_of_nonneg_right (le_max_left _ _)

theorem resolve_oneWindow {startUs endUs : ℤ} (first : order.placedAt - snapshotLookback ≤ endUs) (last : startUs ≤ order.endAt) :
    resolveParquetWindow [oneWindow dirs order] order.tokenId startUs endUs = (oneWindow dirs order).bundle := by
  have found : [oneWindow dirs order].filter (fun dir => dir.startUs ≤ endUs ∧ startUs ≤ dir.endUs ∧ order.tokenId ∈ dir.tokens) =
      [oneWindow dirs order] :=
    List.filter_cons_of_pos (decide_eq_true ⟨first, last, List.mem_singleton_self _⟩)
  unfold resolveParquetWindow resolveCoverage
  rw [found]
  rfl

theorem fetch_oneWindow : fetchInitialSnapshot [oneWindow dirs order] order = newestSnapshot dirs order := by
  have later := endAt_ge order
  have lookback : 0 ≤ snapshotLookback := by decide
  unfold fetchInitialSnapshot
  rw [resolve_oneWindow dirs order (by omega) (by omega)]
  rfl

theorem stream_oneWindow : streamDeltaEvents [oneWindow dirs order] order = tapeEvents dirs order := by
  have later := endAt_ge order
  have lookback : 0 ≤ snapshotLookback := by decide
  unfold streamDeltaEvents
  rw [resolve_oneWindow dirs order (by omega) (by omega)]
  rfl

theorem stream_eq : streamDeltaEvents dirs order = readParquetDeltas order.tokenId order.placedAt order.endAt
    (((resolveParquetWindow dirs order.tokenId order.placedAt order.endAt).bind WindowFiles.deltas).getD []) := by
  unfold streamDeltaEvents
  cases (resolveParquetWindow dirs order.tokenId order.placedAt order.endAt).bind WindowFiles.deltas <;> rfl

theorem stream_iff : streamDeltaEvents dirs order = tapeEvents dirs order ↔ deltasWithin order.tokenId order.placedAt order.endAt
    (deltasOf (resolveCoverage dirs order.tokenId order.placedAt order.endAt).tail) = [] := by
  rw [stream_eq]
  unfold tapeEvents tapeUntil resolveParquetWindow
  cases resolveCoverage dirs order.tokenId order.placedAt order.endAt with
  | nil => exact iff_of_true rfl rfl
  | cons files rest =>
    have split : deltasOf (files :: rest) = files.deltas.getD [] ++ deltasOf rest := List.flatMap_cons
    rw [List.head?_cons, List.tail_cons, Option.bind_some, split]
    unfold readParquetDeltas
    rw [deltasWithin_append]
    constructor
    · intro same
      have lengths := congrArg List.length same
      rw [(finalize_perm _).length_eq, (finalize_perm _).length_eq, List.length_append] at lengths
      exact List.length_eq_zero_iff.1 (by omega)
    · intro none
      rw [none, List.append_nil]

end Callisto.FillSimulator
