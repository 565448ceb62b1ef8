import Callisto.Backtest.EndOfLifeRuns

/-! The contract of the end of a run: what its final pass closes and at which price, and the runs that meet it. -/

namespace Callisto.Backtest

open Callisto.Library Callisto.Library.Runs

namespace BacktestEngine

variable {σ π ρ : Type} {config : BacktestConfig σ π ρ} {engine next last : BacktestEngine σ ρ} {snapshot : BookSnapshot}
  {past : List BookSnapshot} {opened : List (PositionKey × Option Instant)}

/-! ## The final pass -/

def resolution (config : BacktestConfig σ π ρ) (runEnd : Option Instant) (tokenId : String) : Option (ℚ × Instant) :=
  (config.settlements.get? tokenId).bind fun settlement =>
    settlement.settlePrice.bind fun price =>
      (settlement.resolutionTime.filter fun due => runEnd.any fun ended => due ≤ ended).map fun due => (price, due)

def endChoice (config : BacktestConfig σ π ρ) (runEnd : Option Instant) (entry : PositionKey × Position) : Option (ℚ × Instant × Bool) :=
  if entry.2.size ≤ dust then none
  else match resolution config runEnd entry.2.tokenId with
    | some close => some (close.1, close.2, true)
    | none => some (entry.2.exposurePrice, ((entry.2.lastMarkAt.or entry.2.openedAt).or runEnd).getD config.wallClock, false)

theorem resolution_eq_some {runEnd : Option Instant} {tokenId : String} {price : ℚ} {due : Instant} :
    resolution config runEnd tokenId = some (price, due) ↔ ResolvedBy config runEnd tokenId price due := by
  unfold resolution ResolvedBy Settles
  simp only [Option.bind_eq_some_iff, Option.map_eq_some_iff, Option.filter_eq_some_iff, Option.any_eq_true, decide_eq_true_eq, Prod.mk.injEq]
  constructor
  · intro found
    obtain ⟨settlement, known, value, priced, moment, ⟨timed, clock, ended, early⟩, samePrice, sameDue⟩ := found
    rw [← samePrice, ← sameDue]
    exact ⟨⟨settlement, known, priced, timed⟩, clock, ended, early⟩
  · intro resolved
    obtain ⟨⟨settlement, known, priced, timed⟩, clock, ended, early⟩ := resolved
    exact ⟨settlement, known, price, priced, due, ⟨timed, clock, ended, early⟩, rfl, rfl⟩

theorem resolution_eq_none {runEnd : Option Instant} {tokenId : String} :
    resolution config runEnd tokenId = none ↔ ¬ ∃ price due, ResolvedBy config runEnd tokenId price due := by
  rw [Option.eq_none_iff_forall_ne_some]
  constructor
  · intro none_ resolved
    have ⟨price, due, here⟩ := resolved
    exact none_ (price, due) (resolution_eq_some.mpr here)
  · intro open_ close found
    exact open_ ⟨close.1, close.2, resolution_eq_some.mp found⟩

theorem endChoice_ne_none {runEnd : Option Instant} {entry : PositionKey × Position} :
    endChoice config runEnd entry ≠ none ↔ dust < entry.2.size := by
  unfold endChoice
  by_cases spent : entry.2.size ≤ dust
  · rw [if_pos spent]
    exact ⟨fun picked => absurd rfl picked, fun large => absurd spent (not_le.mpr large)⟩
  · rw [if_neg spent]
    refine ⟨fun _ => not_le.mp spent, fun _ => ?_⟩
    split
    · exact Option.some_ne_none _
    · exact Option.some_ne_none _

theorem closeAtEnd_portfolio (runEnd : Option Instant) (engine : BacktestEngine σ ρ) (entry : PositionKey × Position) :
    (closeAtEnd config runEnd engine entry).portfolio = Portfolio.closeChosen (endChoice config runEnd) engine.portfolio entry := by
  have ⟨key, pos⟩ := entry
  unfold closeAtEnd Portfolio.closeChosen endChoice resolution
  simp only
  by_cases spent : pos.size ≤ dust
  · rw [if_pos spent, if_pos spent]
  · rw [if_neg spent, if_neg spent]
    cases (config.settlements.get? pos.tokenId).bind fun settlement => settlement.settlePrice.bind fun price =>
        (settlement.resolutionTime.filter fun due => runEnd.any fun ended => due ≤ ended).map fun due => (price, due) with
    | none => rfl
    | some close => rfl

theorem closeAllAtEnd_portfolio (config : BacktestConfig σ π ρ) (runEnd : Option Instant)
    (entries : List (PositionKey × Position)) (engine : BacktestEngine σ ρ) :
    (entries.foldl (closeAtEnd config runEnd) engine).portfolio =
      entries.foldl (Portfolio.closeChosen (endChoice config runEnd)) engine.portfolio := by
  induction entries generalizing engine with
  | nil => rfl
  | cons entry rest ih => rw [List.foldl_cons, List.foldl_cons, ih, closeAtEnd_portfolio]

/-- The portfolio at the end of a run, before its equity curve is anchored. -/
def closedBook (config : BacktestConfig σ π ρ) (engine : BacktestEngine σ ρ) : Portfolio :=
  engine.portfolio.positions.entries.foldl (Portfolio.closeChosen (endChoice config engine.matching.now)) engine.portfolio

theorem closesTo_closedBook (config : BacktestConfig σ π ρ) (engine : BacktestEngine σ ρ) :
    Portfolio.ClosesTo (endChoice config engine.matching.now) engine.portfolio.positions.entries engine.portfolio (closedBook config engine) :=
  Portfolio.closesTo_foldl engine.portfolio.positions.nodup (fun _ member => Dict.get?_of_mem member)
    fun _ _ picked => Position.dust_pos.trans (endChoice_ne_none.mp picked)

theorem finish_portfolio (closes : config.finalCloseAtLastMid = true) (engine : BacktestEngine σ ρ) :
    (finish config engine).portfolio.positions = (closedBook config engine).positions ∧
      (finish config engine).portfolio.closedPositions = (closedBook config engine).closedPositions ∧
      (finish config engine).portfolio.equityHistory =
        (closedBook config engine).equityHistory ++ [(anchorAt config (closedBook config engine), (closedBook config engine).equityUsd)] ∧
      (finish config engine).portfolio.equityUsd = (closedBook config engine).equityUsd := by
  unfold finish
  rw [if_pos closes]
  unfold finalMarkToMarket
  simp only
  have book := closeAllAtEnd_portfolio config engine.matching.now engine.portfolio.positions.entries engine
  refine ⟨congrArg Portfolio.positions book, congrArg Portfolio.closedPositions book, by rw [book]; rfl, ?_⟩
  show (engine.portfolio.positions.entries.foldl (closeAtEnd config engine.matching.now) engine).portfolio.equityUsd = _
  rw [book]
  rfl

theorem anchorAt_le (config : BacktestConfig σ π ρ) (book : Portfolio) :
    ∀ point, book.equityHistory.getLast? = some point → point.1 ≤ anchorAt config book := by
  intro point last
  unfold anchorAt
  rw [last, Option.map_some]
  cases book.closedPositions.reverse.findSome? Position.closedAt with
  | none => exact le_rfl
  | some closed =>
    simp only
    by_cases later : point.1 ≤ closed
    · rw [if_pos later]
      exact later
    · rw [if_neg later]

theorem pairwise_snoc {curve : List (Instant × ℚ)} {point : Instant × ℚ} (ordered : curve.Pairwise fun first later => first.1 ≤ later.1)
    (after : ∀ last, curve.getLast? = some last → last.1 ≤ point.1) : (curve ++ [point]).Pairwise fun first later => first.1 ≤ later.1 := by
  refine List.pairwise_append.mpr ⟨ordered, List.pairwise_singleton _ _, fun first member other single => ?_⟩
  rw [List.mem_singleton.mp single]
  have some_ : curve ≠ [] := List.ne_nil_of_mem member
  have last := after (curve.getLast some_) (List.getLast?_eq_getLast_of_ne_nil some_)
  have below : first.1 ≤ (curve.getLast some_).1 := by
    have split := List.dropLast_append_getLast some_
    rw [← split] at ordered member
    cases List.mem_append.mp member with
    | inl early => exact (List.pairwise_append.mp ordered).2.2 first early _ (List.mem_singleton_self _)
    | inr here => rw [List.mem_singleton.mp here]
  exact below.trans last

/-! ## The contract -/

/-- What a run with a final pass leaves of the positions that were open in it. -/
structure EndsWell (config : BacktestConfig σ π ρ) (start : Except MatchingError (BacktestEngine σ ρ)) (snapshots : List BookSnapshot)
    (last : BacktestEngine σ ρ) : Prop where
  flat : ∀ entry ∈ (finish config last).portfolio.positions.entries, entry.2.size ≤ dust
  once : ((finish config last).portfolio.closedPositions.map Position.name).Perm (openings config start snapshots)
  -- open at the first snapshot at or after the resolution of its token
  settled : ∀ before snapshot after, snapshots = before ++ snapshot :: after → ∀ engine, run (step config true) start before = .ok engine →
    ∀ entry ∈ engine.portfolio.positions.entries, ∀ price due, Settles config entry.1.1 price due →
      (∀ earlier ∈ before, earlier.observedAt < due) → due ≤ snapshot.observedAt →
        Portfolio.closedOut engine.portfolio.config entry.2 price due ∈ (finish config last).portfolio.closedPositions
  marked : ∀ entry ∈ last.portfolio.positions.entries,
    (∀ price due, Settles config entry.1.1 price due → ∀ snapshot ∈ snapshots, snapshot.observedAt < due) →
      ∃ moment, Portfolio.closedOut last.portfolio.config entry.2 (entry.2.lastMarkPrice.getD entry.2.entryPrice) moment ∈
        (finish config last).portfolio.closedPositions
  ended : ∀ pos ∈ (finish config last).portfolio.closedPositions, pos.Ended
  curve : (finish config last).portfolio.equityHistory.Pairwise fun point later => point.1 ≤ later.1
  equity : (finish config last).portfolio.equityHistory.getLast?.map Prod.snd = some (finish config last).portfolio.equityUsd

/-! ## Runs -/

theorem run_error (config : BacktestConfig σ π ρ) (raised : MatchingError) (snapshots : List BookSnapshot) :
    run (step config true) (.error raised) snapshots = .error raised := by
  induction snapshots with
  | nil => rfl
  | cons snapshot rest ih =>
    rw [run_cons]
    exact ih

theorem Tracked.run {snapshots : List BookSnapshot} (tracked : Tracked config past opened engine)
    (timely : Meets (step config true) (fun run snapshot => OnOk run fun engine => InTime config engine snapshot) (.ok engine) snapshots)
    (done : Runs.run (step config true) (.ok engine) snapshots = .ok last) :
    Tracked config (past ++ snapshots) (opened ++ openings config (.ok engine) snapshots) last ∧
      engine.portfolio.closedPositions <+: last.portfolio.closedPositions := by
  induction snapshots generalizing engine past opened with
  | nil =>
    rw [run_nil] at done
    rw [← Except.ok.inj done, openings, List.append_nil, List.append_nil]
    · exact ⟨tracked, List.prefix_rfl⟩
    · intro _ _ _ _ none_
      exact nomatch none_
  | cons snapshot rest ih =>
    rw [run_cons] at done
    have stepped : step config true (.ok engine) snapshot = BacktestEngine.onSnapshot config true engine snapshot := rfl
    cases result : BacktestEngine.onSnapshot config true engine snapshot with
    | error raised =>
      rw [stepped, result, run_error] at done
      exact nomatch done
    | ok next =>
      rw [stepped, result] at done
      have ⟨trackedNext, longer⟩ := tracked.onSnapshot timely.1 result
      have timelyRest := timely.2
      rw [stepped, result] at timelyRest
      have ⟨trackedLast, longerLast⟩ := ih trackedNext timelyRest done
      have ⟨more, swept, _⟩ := (settleDue_sweeps tracked snapshot.observedAt).closed
      have sweptLonger : engine.portfolio.closedPositions <+:
          (BacktestEngine.settleDue config snapshot.observedAt engine).portfolio.closedPositions := by
        rw [swept]
        exact List.prefix_append _ _
      rw [openings, stepped, result, List.append_cons, ← List.append_assoc]
      exact ⟨trackedLast, sweptLonger.trans (longer.trans longerLast)⟩

theorem tracked_new (config : BacktestConfig σ π ρ) (strategy : σ) (latency : ρ) (intents : List TradeIntent) :
    Tracked config [] [] (new config strategy latency intents) where
  onTime := MatchingEngine.onTime_empty
  clock _ known := nomatch known
  held := Dict.all_empty _
  ended _ member := nomatch member
  named _ := rfl
  sorted := List.pairwise_insertionSort (fun first second : Instant × String => first.1 ≤ second.1) _
  listed _ member := member
  ahead _ _ _ known := nomatch known
  awaits _ member _ := member
  curve := List.Pairwise.nil
  drawn _ member := nomatch member

theorem Tracked.closedBook_spec (tracked : Tracked config past opened last) (inTime : ClosesInTime config last) :
    (closedBook config last).positions.entries = [] ∧
      ((closedBook config last).closedPositions.map Position.name).Perm opened ∧
      (∀ pos ∈ (closedBook config last).closedPositions, pos.Ended) ∧
      last.portfolio.closedPositions <+: (closedBook config last).closedPositions := by
  have closes := closesTo_closedBook config last
  have empty : (closedBook config last).positions.entries = [] := by
    rw [List.eq_nil_iff_forall_not_mem]
    intro entry member
    have ⟨before, apart⟩ := closes.left entry member
    exact apart entry before (endChoice_ne_none.mpr (tracked.held entry before).large) rfl
  refine ⟨empty, ?_, ?_, ?_⟩
  · rw [List.perm_iff_count]
    intro name
    have counted := (closes.named name).trans (tracked.named name)
    have nothing : (closedBook config last).positions.sumBy (fun pos => if pos.name = name then (1 : ℤ) else 0) = 0 := by
      unfold Dict.sumBy Dict.values
      rw [empty]
      rfl
    rw [Portfolio.named, nothing, add_zero, Nat.cast_inj] at counted
    rw [← counted, List.count, List.countP_map]
    exact List.countP_congr fun pos _ => by simp
  · rw [closes.closed]
    intro pos member
    cases List.mem_append.mp member with
    | inl old => exact tracked.ended pos old
    | inr new =>
      have ⟨entry, entryMember, chosen⟩ := List.mem_filterMap.mp new
      have ⟨close, choice, same⟩ := Option.map_eq_some_iff.mp chosen
      have held := tracked.held entry entryMember
      have ⟨since, now, at_, known, below, sinceMark⟩ := held.opened
      have token : entry.2.tokenId = entry.1.1 := congrArg Prod.fst held.keyed
      rw [← same]
      refine ended_closedOut held fun other named => ?_
      rw [← Option.some.inj (at_.symm.trans named)]
      unfold endChoice at choice
      rw [if_neg (not_le.mpr held.large)] at choice
      split at choice
      · next settled resolved =>
        rw [← Option.some.inj choice]
        have due := resolution_eq_some.mp resolved
        rw [token] at due
        exact (inTime entry entryMember).1 settled.1 settled.2 due since at_
      · rw [← Option.some.inj choice]
        simp only [at_]
        cases marked : entry.2.lastMarkAt with
        | none => exact le_rfl
        | some moment => exact sinceMark moment marked
  · rw [closes.closed]
    exact List.prefix_append _ _

/-- In a run whose fills are timely, and at whose end nothing is open that was opened after the resolution of its token or is marked at zero,
each position is closed once, at its settlement if it has one that is due and at its last mark else, and not before it was opened. -/
theorem endsWell_run (config : BacktestConfig σ π ρ) (closes : config.finalCloseAtLastMid = true) (strategy : σ) (latency : ρ)
    (intents : List TradeIntent) (snapshots : List BookSnapshot)
    (timely : Meets (step config true) (fun run snapshot => OnOk run fun engine => InTime config engine snapshot)
      (.ok (new config strategy latency intents)) snapshots)
    (inTime : OnOk (run (step config true) (.ok (new config strategy latency intents)) snapshots) (ClosesInTime config)) :
    OnOk (run (step config true) (.ok (new config strategy latency intents)) snapshots)
      (EndsWell config (.ok (new config strategy latency intents)) snapshots) := by
  cases done : run (step config true) (.ok (new config strategy latency intents)) snapshots with
  | error raised => trivial
  | ok last =>
    rw [done] at inTime
    have start := tracked_new config strategy latency intents
    have ⟨tracked, _⟩ := start.run timely done
    rw [List.nil_append, List.nil_append] at tracked
    have ⟨empty, once, ended, longer⟩ := tracked.closedBook_spec inTime
    have ⟨positions, closed, history, equity⟩ := finish_portfolio closes last
    have closesTo := closesTo_closedBook config last
    refine ⟨?_, ?_, ?_, ?_, ?_, ?_, ?_⟩
    · rw [positions, empty]
      exact fun _ none_ => nomatch none_
    · rw [closed]
      exact once
    · intro before snapshot after split engine reached entry member price due settles waits early
      rw [closed]
      rw [split] at timely done
      have ⟨timelyBefore, timelyRest⟩ := timely.of_append
      rw [run_append, reached] at done
      rw [reached] at timelyRest
      have ⟨trackedBefore, _⟩ := start.run timelyBefore reached
      rw [List.nil_append] at trackedBefore
      have ⟨settlement, known, priced, timed⟩ := settles
      have listed : (due, entry.1.1) ∈ config.resolutionSchedule := mem_resolutionSchedule.mpr ⟨settlement, price, known, timed, priced⟩
      have waiting := trackedBefore.awaits (due, entry.1.1) listed waits
      have swept :=
          (settleDue_sweeps trackedBefore snapshot.observedAt).settled entry member (trackedBefore.held entry member).large price due settles
        waiting early
      have stepped : step config true (.ok engine) snapshot = onSnapshot config true engine snapshot := rfl
      rw [run_cons, stepped] at done
      cases result : onSnapshot config true engine snapshot with
      | error raised =>
        rw [result, run_error] at done
        exact nomatch done
      | ok next =>
        rw [result] at done
        have ⟨trackedNext, further⟩ := trackedBefore.onSnapshot timelyRest.1 result
        have timelyAfter := timelyRest.2
        rw [stepped, result] at timelyAfter
        have ⟨_, toLast⟩ := trackedNext.run timelyAfter done
        exact longer.subset (toLast.subset (further.subset swept))
    · intro entry member unresolved
      have held := tracked.held entry member
      have token : entry.2.tokenId = entry.1.1 := congrArg Prod.fst held.keyed
      have open_ : ¬ ∃ price due, ResolvedBy config last.matching.now entry.1.1 price due := by
        intro resolved
        have ⟨price, due, settles, clock, known, reached⟩ := resolved
        have ⟨shown, shownMember, same⟩ := tracked.clock clock known
        have before := unresolved price due settles shown shownMember
        rw [same] at before
        exact absurd before (not_lt.mpr reached)
      have none_ : resolution config last.matching.now entry.2.tokenId = none := by
        rw [token, resolution_eq_none]
        exact open_
      have price : entry.2.exposurePrice = entry.2.lastMarkPrice.getD entry.2.entryPrice := by
        have nonzero := (inTime entry member).2 open_
        unfold Position.exposurePrice
        cases marked : entry.2.lastMarkPrice with
        | none => rfl
        | some mark =>
          simp only
          rw [if_neg fun zero => nonzero (by rw [marked, zero])]
          rfl
      refine ⟨((entry.2.lastMarkAt.or entry.2.openedAt).or last.matching.now).getD config.wallClock, ?_⟩
      rw [closed, closesTo.closed, ← price]
      apply List.mem_append_right
      refine List.mem_filterMap.mpr ⟨entry, member, ?_⟩
      unfold endChoice
      rw [if_neg (not_le.mpr held.large), none_]
      rfl
    · rw [closed]
      exact ended
    · rw [history, closesTo.history]
      refine pairwise_snoc tracked.curve ?_
      rw [← closesTo.history]
      exact anchorAt_le config (closedBook config last)
    · rw [history, List.getLast?_concat, equity]
      rfl

instance (config : BacktestConfig σ π ρ) (engine : BacktestEngine σ ρ) : Decidable (ClosesInTime config engine) :=
  decidable_of_iff (∀ entry ∈ engine.portfolio.positions.entries,
    (∀ close ∈ resolution config engine.matching.now entry.1.1, ∀ opened ∈ entry.2.openedAt, opened ≤ close.2) ∧
    (resolution config engine.matching.now entry.1.1 = none → entry.2.lastMarkPrice ≠ some 0)) (by
    refine forall₂_congr fun entry _ => ?_
    rw [resolution_eq_none]
    refine and_congr_left fun _ => ?_
    constructor
    · intro below price due resolved
      exact below (price, due) (resolution_eq_some.mpr resolved)
    · intro below close found
      exact below close.1 close.2 (resolution_eq_some.mp found))

def resolvesAtTwo : BacktestConfig Unit Unit Unit where
  planChildren := fun _ _ _ _ _ => []
  sampleSubmit := fun _ _ => ((), 0)
  makeOrderId := fun _ => "made"
  settlements := Dict.empty.set "T" { settlePrice := some 1, resolutionTime := some 2000000, winningOutcome := some "Yes" }

def buysOfTokens (tokens : List String) : List TradeIntent :=
  tokens.map fun token => { intentId := token, emittedAt := 1000000, tokenId := token, side := .buy, size := 10, limitPrice := 1 / 2 }

def askedAt (tokenId : String) (moment : Instant) (price : ℚ) : BookSnapshot := ⟨tokenId, moment, [⟨2 / 5, 100⟩], [⟨price, 100⟩], none⟩

theorem endsWell_settledAndMarked :
    OnOk (run (step resolvesAtTwo true) (.ok (new resolvesAtTwo () () (buysOfTokens ["T", "U"])))
        [askedAt "T" 1000000 (1 / 2), askedAt "U" 1500000 (1 / 2), askedAt "U" 3000000 (3 / 5)])
      (EndsWell resolvesAtTwo (.ok (new resolvesAtTwo () () (buysOfTokens ["T", "U"])))
        [askedAt "T" 1000000 (1 / 2), askedAt "U" 1500000 (1 / 2), askedAt "U" 3000000 (3 / 5)]) := by
  apply endsWell_run resolvesAtTwo rfl () () (buysOfTokens ["T", "U"])
  · decide +kernel
  · decide +kernel

/-- An order that rests when its token resolves is filled afterwards, and the position is closed before it was opened. -/
theorem not_endsWell_filledAfterResolution :
    ¬ OnOk (run (step resolvesAtTwo true) (.ok (new resolvesAtTwo () () (buysOfTokens ["T"])))
        [askedAt "T" 1000000 (3 / 5), askedAt "T" 3000000 (1 / 2)])
      (EndsWell resolvesAtTwo (.ok (new resolvesAtTwo () () (buysOfTokens ["T"])))
        [askedAt "T" 1000000 (3 / 5), askedAt "T" 3000000 (1 / 2)]) := by
  intro ends
  have ended : OnOk (run (step resolvesAtTwo true) (.ok (new resolvesAtTwo () () (buysOfTokens ["T"])))
      [askedAt "T" 1000000 (3 / 5), askedAt "T" 3000000 (1 / 2)])
      fun last => ∀ pos ∈ (finish resolvesAtTwo last).portfolio.closedPositions, pos.Ended := by
    cases done : run (step resolvesAtTwo true) (.ok (new resolvesAtTwo () () (buysOfTokens ["T"])))
        [askedAt "T" 1000000 (3 / 5), askedAt "T" 3000000 (1 / 2)] with
    | error raised => trivial
    | ok last =>
      rw [done] at ends
      exact ends.ended
  revert ended
  decide +kernel

end BacktestEngine

end Callisto.Backtest
