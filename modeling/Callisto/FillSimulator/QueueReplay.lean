import Callisto.FillSimulator.TapeReplay

/-! The loop of the replay is the queue model, and the replay follows the tape exactly if the first file holds it. -/

namespace Callisto.FillSimulator

open Callisto.Library Callisto.Library.TimeSeries Callisto.Library.FifoQueue

variable (lower : String → String) (order : CounterfactualOrder)

theorem minDeltaSize_pos : 0 < minDeltaSize := by
  unfold minDeltaSize
  norm_num

theorem playOne_none {event : ℤ × DeltaRow} (none : moveOf lower order event = none) (state : Playing) :
    playOne lower order state event = state := by
  unfold moveOf at none
  split_ifs at none with moves
  unfold playOne
  by_cases level : atLevel lower order event.2
  · have small : deltaSize lower event.2 < minDeltaSize := not_le.1 fun large => moves ⟨level, large⟩
    unfold deltaSize at small
    rw [if_neg (not_not.2 level)]
    split_ifs at small ⊢ with trades cancels
    · exact if_pos small
    · exact if_pos small
    · rfl
  · exact if_pos level

theorem playOne_some {event : ℤ × DeltaRow} {move : Move ℚ} (moves : moveOf lower order event = some move) {state : Playing}
    (queue : 0 ≤ state.queue) (sized : state.filled ≤ order.sizeShares) :
    (playOne lower order state event).queue = ahead state.queue move ∧
      (playOne lower order state event).filled = state.filled + min (passed state.queue move) (order.sizeShares - state.filled) ∧
      state.trades + passed state.queue move ≤ (playOne lower order state event).trades := by
  unfold moveOf at moves
  split_ifs at moves with counts trades
  · have positive : 0 < event.2.tradeSize.getD 0 := by
      have large := counts.2
      unfold deltaSize at large
      rw [if_pos trades] at large
      exact minDeltaSize_pos.trans_le large
    have size : deltaSize lower event.2 = event.2.tradeSize.getD 0 := if_pos trades
    rw [size] at moves counts
    cases moves
    have some : 0 ≤ event.2.tradeSize.getD 0 - min (event.2.tradeSize.getD 0) state.queue := sub_nonneg.2 (min_le_left _ _)
    have taken : 0 ≤ min (event.2.tradeSize.getD 0) state.queue := le_min positive.le queue
    unfold playOne
    rw [if_neg (not_not.2 counts.1), if_pos trades]
    dsimp only
    rw [if_neg (not_lt.2 counts.2)]
    split_ifs with more
    · exact ⟨rfl, rfl, by simp only [passed]; linarith⟩
    · have nothing : event.2.tradeSize.getD 0 - min (event.2.tradeSize.getD 0) state.queue = 0 := le_antisymm (not_lt.1 more) some
      refine ⟨rfl, ?_, by simp only [passed]; linarith⟩
      simp only [passed]
      rw [nothing, min_eq_left (sub_nonneg.2 sized), add_zero]
  · have cancels : lower (event.2.eventType.getD "") = "cancel" := by
      by_contra other
      have large := counts.2
      unfold deltaSize at large
      rw [if_neg trades, if_neg other] at large
      exact absurd large (not_le.2 minDeltaSize_pos)
    have size : deltaSize lower event.2 = event.2.cancelSize.getD 0 := by
      unfold deltaSize
      rw [if_neg trades, if_pos cancels]
    rw [size] at moves counts
    cases moves
    unfold playOne
    rw [if_neg (not_not.2 counts.1), if_neg trades, if_pos cancels]
    dsimp only
    rw [if_neg (not_lt.2 counts.2)]
    refine ⟨rfl, ?_, by simp only [passed, add_zero]; exact le_rfl⟩
    simp only [passed]
    rw [min_eq_left (sub_nonneg.2 sized), add_zero]

theorem movesOf_volume {events : List (ℤ × DeltaRow)} : ∀ move ∈ movesOf lower order events, 0 ≤ move.volume := by
  intro move member
  have ⟨event, _, found⟩ := List.mem_filterMap.1 member
  unfold moveOf at found
  split_ifs at found with counts trades
  · cases found
    exact minDeltaSize_pos.le.trans counts.2
  · cases found
    exact minDeltaSize_pos.le.trans counts.2

theorem play_filled {state : Playing} (queue : 0 ≤ state.queue) (sized : state.filled ≤ order.sizeShares)
    (fed : state.filled ≤ state.trades) (events : List (ℤ × DeltaRow)) :
    (play lower order state events).filled = min order.sizeShares (state.filled + left state.queue (movesOf lower order events)) ∧
      (play lower order state events).filled ≤ (play lower order state events).trades := by
  induction events generalizing state with
  | nil =>
    have same : left state.queue (movesOf lower order []) = 0 := rfl
    rw [same, add_zero, min_eq_right sized]
    exact ⟨rfl, fed⟩
  | cons event rest ih =>
    have leaves := left_nonneg state.queue (movesOf lower order (event :: rest))
    unfold play
    split_ifs with full
    · rw [le_antisymm sized full, min_eq_left (by linarith)]
      exact ⟨rfl, le_antisymm sized full ▸ fed⟩
    · cases moves : moveOf lower order event with
      | none =>
        have skipped : movesOf lower order (event :: rest) = movesOf lower order rest := List.filterMap_cons_none moves
        rw [playOne_none lower order moves, skipped]
        exact ih queue sized fed
      | some move =>
        have first : movesOf lower order (event :: rest) = move :: movesOf lower order rest := List.filterMap_cons_some moves
        have ⟨shorter, filled, trades⟩ := playOne_some lower order moves queue sized
        have share := min_le_left (passed state.queue move) (order.sizeShares - state.filled)
        have cap := min_le_right (passed state.queue move) (order.sizeShares - state.filled)
        have later := ih (shorter ▸ ahead_nonneg state.queue move) (by linarith) (by linarith)
        refine ⟨?_, later.2⟩
        have others := left_nonneg (ahead state.queue move) (movesOf lower order rest)
        rw [later.1, shorter, filled, first, left]
        cases le_total (passed state.queue move) (order.sizeShares - state.filled) with
        | inl fits => rw [min_eq_left fits, add_assoc]
        | inr exceeds => rw [min_eq_right exceeds, min_eq_left (by linarith), min_eq_left (by linarith)]

theorem initialQueueAhead_nonneg (snapshot : Snapshot) : 0 ≤ initialQueueAhead lower order snapshot := by
  apply List.sum_nonneg
  intro size member
  have ⟨level, _, same⟩ := List.mem_map.1 member
  exact same ▸ le_max_left _ _

theorem replayEvents_filled (sized : 0 ≤ order.sizeShares) (snapshot : Snapshot) (events : List (ℤ × DeltaRow)) :
    (replayEvents lower order snapshot events).filledShares =
        min order.sizeShares (left (initialQueueAhead lower order snapshot) (movesOf lower order events)) ∧
      (replayEvents lower order snapshot events).filledShares ≤ (replayEvents lower order snapshot events).tradesAheadObserved := by
  have start : (0 : ℚ) ≤ (0 : ℚ) := le_rfl
  have ⟨filled, fed⟩ := @play_filled lower order { queue := initialQueueAhead lower order snapshot }
    (initialQueueAhead_nonneg lower order snapshot) sized start events
  exact ⟨filled.trans (by rw [zero_add]), fed⟩

variable (dirs : List WindowDir)

theorem replay_negative (negative : order.sizeShares < 0) : (replayCounterfactualOrder lower dirs order).filledShares = 0 := by
  unfold replayCounterfactualOrder
  cases fetchInitialSnapshot dirs order with
  | none => rfl
  | some snapshot =>
    cases streamDeltaEvents dirs order with
    | nil => rfl
    | cons event rest =>
      have stops : play lower order { queue := initialQueueAhead lower order snapshot } (event :: rest) =
          { queue := initialQueueAhead lower order snapshot } := if_pos negative.le
      simp only [replayEvents, stops]

theorem deltasWithin_early (rows : List DeltaRow) {early late : ℤ} (before : early ≤ late) :
    (deltasWithin order.tokenId order.placedAt late rows).filter (fun entry => entry.1 ≤ early) =
      deltasWithin order.tokenId order.placedAt early rows := by
  unfold deltasWithin
  rw [List.filter_filterMap]
  apply List.filterMap_congr
  intro row _
  cases row.observedAtUs with
  | none => rfl
  | some observed =>
    simp only [Option.bind_some]
    by_cases inside : order.placedAt < observed ∧ observed ≤ early
    · have wider : order.placedAt < observed ∧ observed ≤ late := ⟨inside.1, inside.2.trans before⟩
      rw [if_pos inside, if_pos wider]
      simp [inside.2]
    · rw [if_neg inside]
      split_ifs with wider
      · have later : early < observed := not_le.1 fun reached => inside ⟨wider.1, reached⟩
        simp [later]
      · rfl

theorem tapeUntil_append (files : List WindowFiles) {early late : ℤ} (before : early ≤ late) :
    ∃ rest, tapeUntil order files late = tapeUntil order files early ++ rest := by
  have kept := deltasWithin_early order (deltasOf files) before
  have sorted := finalize_sorted (deltasWithin order.tokenId order.placedAt late (deltasOf files))
  have closed : (finalize (deltasWithin order.tokenId order.placedAt late (deltasOf files))).Pairwise
      fun first second => decide (second.1 ≤ early) → decide (first.1 ≤ early) :=
    sorted.imp fun below reached => decide_eq_true (below.trans (of_decide_eq_true reached))
  have first := filter_finalize (fun entry => decide (entry.1 ≤ early)) (deltasWithin order.tokenId order.placedAt late (deltasOf files))
  rw [kept, ← takeWhile_eq_filter closed] at first
  unfold tapeUntil readParquetDeltas
  rw [← first]
  exact ⟨_, List.takeWhile_append_dropWhile.symm⟩

theorem resolveCoverage_mono {token : String} {startUs early late : ℤ} (before : early ≤ late) {file : WindowFiles}
    (member : file ∈ resolveCoverage dirs token startUs early) : file ∈ resolveCoverage dirs token startUs late := by
  unfold resolveCoverage at member ⊢
  rw [List.mem_insertionSort, List.mem_dedup, List.mem_filterMap] at member ⊢
  obtain ⟨dir, inside, resolved⟩ := member
  rw [List.mem_filter, decide_eq_true_iff] at inside
  exact ⟨dir, List.mem_filter.2 ⟨inside.1, decide_eq_true ⟨inside.2.1.trans before, inside.2.2⟩⟩, resolved⟩

/-- A shorter order reads the tape up to its end, or a file without deltas of its time in force. -/
theorem stream_shorter {shorter : ℤ} (before : shorter ≤ order.timeInForce)
    (others : deltasWithin order.tokenId order.placedAt order.endAt
      (deltasOf (resolveCoverage dirs order.tokenId order.placedAt order.endAt).tail) = []) :
    ∃ rest, tapeEvents dirs order = streamDeltaEvents dirs { order with timeInForce := shorter } ++ rest := by
  have ends : ({ order with timeInForce := shorter } : CounterfactualOrder).endAt ≤ order.endAt := by
    unfold CounterfactualOrder.endAt
    dsimp only
    omega
  unfold streamDeltaEvents resolveParquetWindow
  dsimp only
  generalize ({ order with timeInForce := shorter } : CounterfactualOrder).endAt = early at ends ⊢
  have silent : ∀ rows, deltasWithin order.tokenId order.placedAt order.endAt rows = [] →
    deltasWithin order.tokenId order.placedAt early rows = [] := by
    intro rows nothing
    rw [← deltasWithin_early order rows ends, nothing]
    rfl
  have whole := tapeUntil_append order (resolveCoverage dirs order.tokenId order.placedAt order.endAt) ends
  cases found : (resolveCoverage dirs order.tokenId order.placedAt early).head? with
  | none => exact ⟨_, rfl⟩
  | some file =>
    have member := resolveCoverage_mono dirs ends (List.mem_of_mem_head? found)
    rw [Option.bind_some]
    unfold tapeEvents
    cases covered : resolveCoverage dirs order.tokenId order.placedAt order.endAt with
    | nil =>
      rw [covered] at member
      cases member
    | cons first tail =>
      rw [covered] at member whole others
      rw [List.tail_cons] at others
      cases deltas : file.deltas with
      | none => exact ⟨_, rfl⟩
      | some rows =>
        dsimp only
        cases List.mem_cons.1 member with
        | inl same =>
          have read : tapeUntil order (first :: tail) early = readParquetDeltas order.tokenId order.placedAt early rows := by
            have joined : deltasOf (first :: tail) = rows ++ deltasOf tail := by
              rw [deltasOf, List.flatMap_cons, ← same, deltas]
              rfl
            rw [tapeUntil, readParquetDeltas, joined, deltasWithin_append, silent _ others, List.append_nil]
            rfl
          rwa [read] at whole
        | inr later =>
          have part : rows.Sublist (deltasOf tail) := by
            have inside := List.sublist_flatten_of_mem (List.mem_map_of_mem (f := fun file : WindowFiles => file.deltas.getD []) later)
            rwa [deltas] at inside
          have nothing : deltasWithin order.tokenId order.placedAt order.endAt rows = [] := by
            have within : (deltasWithin order.tokenId order.placedAt order.endAt rows).Sublist
                (deltasWithin order.tokenId order.placedAt order.endAt (deltasOf tail)) := (part.filter _).filterMap _
            rwa [others, List.sublist_nil] at within
          rw [readParquetDeltas, silent rows nothing]
          exact ⟨_, rfl⟩

theorem movesOf_append (first second : List (ℤ × DeltaRow)) :
    movesOf lower order (first ++ second) = movesOf lower order first ++ movesOf lower order second := List.filterMap_append

theorem moveOf_isSome_iff {event : ℤ × DeltaRow} (level : atLevel lower order event.2) :
    (moveOf lower order event).isSome = true ↔ minDeltaSize ≤ deltaSize lower event.2 := by
  unfold moveOf
  by_cases large : minDeltaSize ≤ deltaSize lower event.2
  · rw [if_pos ⟨level, large⟩]
    exact iff_of_true rfl large
  · rw [if_neg fun counts => large counts.2]
    exact iff_of_false (fun some => (nomatch some)) large

/-- The replay of an order follows the recorded tape exactly if the first files that are found hold what counts. -/
theorem followsTape_iff : FollowsTape lower dirs order ↔ FirstFileSuffices lower dirs order := by
  constructor
  · intro follows
    refine ⟨(fetch_iff dirs order).1 follows.newest, (stream_iff dirs order).1 follows.streamed, ?_, ?_⟩
    · exact fun event member level some => (moveOf_isSome_iff lower order level).1 (follows.counted event member level some)
    · by_contra negative
      have nothing := replay_negative lower order dirs (not_le.1 negative)
      have within := follows.within.1
      rw [nothing] at within
      exact negative within
  · intro holds
    have streamed := (stream_iff dirs order).2 holds.deltas
    have events := fun snapshot => replayEvents_filled lower order holds.sized snapshot
    have newest := (fetch_iff dirs order).2 holds.snapshots
    refine ⟨?_, newest, streamed, ?_, ?_, ?_, ?_, ?_⟩
    · unfold replayCounterfactualOrder
      rw [newest, streamed, fetch_oneWindow, stream_oneWindow]
    · exact fun event member level some => (moveOf_isSome_iff lower order level).2 (holds.whole event member level some)
    · intro snapshot found
      refine ⟨_, left_isGreatest (initialQueueAhead_nonneg lower order snapshot) (movesOf_volume lower order), ?_⟩
      unfold replayCounterfactualOrder
      rw [found, ← streamed]
      exact (events snapshot _).1
    · unfold replayCounterfactualOrder
      cases fetchInitialSnapshot dirs order with
      | none => exact ⟨holds.sized, le_rfl⟩
      | some snapshot =>
        have ⟨filled, fed⟩ := events snapshot (streamDeltaEvents dirs order)
        exact ⟨filled ▸ min_le_left _ _, fed⟩
    · intro short long longer
      rw [(events long _).1, (events short _).1]
      exact min_le_min_left _ (left_antitone longer _)
    · intro shorter before
      have ⟨rest, tape⟩ := stream_shorter order dirs before holds.deltas
      have same : fetchInitialSnapshot dirs { order with timeInForce := shorter } = fetchInitialSnapshot dirs order := rfl
      unfold replayCounterfactualOrder
      rw [same]
      cases fetchInitialSnapshot dirs order with
      | none => exact le_rfl
      | some snapshot =>
        refine (replayEvents_filled lower { order with timeInForce := shorter } holds.sized snapshot _).1.trans_le ?_
        rw [(events snapshot _).1, streamed, tape, movesOf_append]
        exact min_le_min_left _ (left_le_left_append _ _ _)

def secondWindow : List WindowDir :=
  [{ startUs := 0, endUs := 900, tokens := ["t"],
     bundle := some { path := "w1/snapshots.parquet", snapshots := [{ tokenId := "t", observedAtUs := some 890 }], deltas := some [] } },
   { startUs := 900, endUs := 1800, tokens := ["t"],
     bundle := some { path := "w2/snapshots.parquet", snapshots := []
                      deltas := some [{ tokenId := "t", observedAtUs := some 910, eventType := some "trade", side := some "bid",
                                        price := some (1 / 2), tradeSize := some 5 }] } }]

def restingBuy : CounterfactualOrder where
  tokenId := "t"
  side := "buy"
  price := 1 / 2
  sizeShares := 5
  placedAt := 895
  timeInForce := 100

/-- The trade is not replayed. -/
theorem secondWindow_missed : ¬ FollowsTape id secondWindow restingBuy := by
  intro follows
  have streamed := congrArg List.length follows.streamed
  revert streamed
  decide +kernel

end Callisto.FillSimulator
