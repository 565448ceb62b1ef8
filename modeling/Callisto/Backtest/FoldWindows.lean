import Callisto.Library.Decimals
import Callisto.Library.Traversals
import Mathlib.Data.List.Sort
import Mathlib.Order.Interval.Basic

/-! The train and test windows of a backtest period: walk-forward splits and the test folds of a combinatorial selection. Times are
in microseconds. -/

namespace Callisto.Backtest

open Callisto.Library (pairwise_sortedBy)
open Callisto.Library.Decimals

structure Period where
  start : ℤ
  stop : ℤ
  second : start + 1000000 ≤ stop

structure WalkForwardConfig where
  anchored : Bool
  nFolds : ℤ
  trainRatio : ℚ
  embargoSeconds : ℚ

structure WalkForwardWindow where
  foldIndex : ℕ
  trainStart : ℤ
  trainEnd : ℤ
  testStart : ℤ
  testEnd : ℤ
  deriving DecidableEq

structure CPCVFold where
  foldIndex : ℕ
  start : ℤ
  stop : ℤ
  deriving DecidableEq

/-- `timedelta(seconds=…)` -/
def timedelta (seconds : ℚ) : ℤ := nearest (seconds * 1000000)

/-- The width of a rolling fold, of a division that rounds half to even. -/
def foldWidth (start stop : ℤ) (nFolds : ℕ) : ℤ := nearest (((stop - start : ℤ) : ℚ) / ((nFolds + 1 : ℕ) : ℚ))

def rollingWindow (start stop : ℤ) (nFolds : ℕ) (embargo : ℤ) (i : ℕ) : WalkForwardWindow :=
  let foldW := foldWidth start stop nFolds
  let trainStart := start + foldW * i
  let trainEnd := trainStart + foldW
  let testStart := trainEnd + embargo
  { foldIndex := i, trainStart := trainStart, trainEnd := trainEnd, testStart := testStart,
    testEnd := if stop < testStart + foldW then stop else testStart + foldW }

def rollingWindows (start stop : ℤ) (nFolds : ℕ) (embargo : ℤ) : List WalkForwardWindow :=
  ((List.range nFolds).map (rollingWindow start stop nFolds embargo)).filter fun window => ¬ window.testEnd ≤ window.testStart

def initialTrain (start stop : ℤ) (trainRatio : ℚ) : ℤ := nearest (((stop - start : ℤ) : ℚ) * max (1 / 10) (min (95 / 100) trainRatio))

def remainingTest (start stop : ℤ) (trainRatio : ℚ) (embargo : ℤ) : ℤ := stop - start - initialTrain start stop trainRatio - embargo

def testWidth (start stop : ℤ) (nFolds : ℕ) (trainRatio : ℚ) (embargo : ℤ) : ℤ :=
  nearest ((remainingTest start stop trainRatio embargo : ℚ) / (nFolds : ℚ))

def anchoredWindow (start stop : ℤ) (nFolds : ℕ) (trainRatio : ℚ) (embargo : ℤ) (i : ℕ) : WalkForwardWindow :=
  let testW := testWidth start stop nFolds trainRatio embargo
  let trainEnd := start + initialTrain start stop trainRatio + testW * i
  let testStart := trainEnd + embargo
  { foldIndex := i, trainStart := start, trainEnd := trainEnd, testStart := testStart,
    testEnd := if stop < testStart + testW then stop else testStart + testW }

def anchoredWindows (start stop : ℤ) (nFolds : ℕ) (trainRatio : ℚ) (embargo : ℤ) : List WalkForwardWindow :=
  if remainingTest start stop trainRatio embargo ≤ 0 then []
  else ((List.range nFolds).map (anchoredWindow start stop nFolds trainRatio embargo)).filter fun window => ¬ window.testEnd ≤ window.testStart

namespace WalkForwardConfig
variable (config : WalkForwardConfig)

def folds : ℕ := (max 1 config.nFolds).toNat

def embargo : ℤ := timedelta (max 0 config.embargoSeconds)

/-- `walk_forward_split`; the period is not empty. -/
def walkForwardSplit (period : Period) : List WalkForwardWindow :=
  if config.anchored then anchoredWindows period.start period.stop config.folds config.trainRatio config.embargo
  else rollingWindows period.start period.stop config.folds config.embargo

end WalkForwardConfig

def foldSeconds (period : Period) (nFolds : ℕ) : ℚ := max 1 (((period.stop - period.start : ℤ) : ℚ) / 1000000) / nFolds

/-- `_build_folds` -/
def buildFolds (period : Period) (nFolds : ℕ) : List CPCVFold :=
  (List.range nFolds).map fun i =>
    { foldIndex := i, start := period.start + timedelta (i * foldSeconds period nFolds),
      stop := period.start + timedelta ((i + 1 : ℕ) * foldSeconds period nFolds) }

/-- `_test_fold_windows`, for indices of folds. -/
def testFoldWindows (folds : List CPCVFold) (testIndices : List ℕ) (embargoSeconds : ℚ) : List (ℤ × ℤ) :=
  let emb := timedelta (max 0 embargoSeconds)
  (testIndices.dedup.mergeSort fun first second => first ≤ second).filterMap fun i =>
    folds[i]?.bind fun fold =>
      let start := if 0 < i then fold.start + emb else fold.start
      if start < fold.stop then some (start, fold.stop) else none

/-- Windows in time order, each inside the period and each test apart from its own training by the embargo. -/
structure Separated (period : Period) (embargo : ℤ) (windows : List WalkForwardWindow) : Prop where
  ordered : windows.Pairwise fun earlier later => earlier.foldIndex < later.foldIndex ∧ earlier.testEnd ≤ later.testStart
  inside : ∀ window ∈ windows, period.start ≤ window.trainStart ∧ window.testEnd ≤ period.stop
  trained : ∀ window ∈ windows, window.trainStart < window.trainEnd ∧ window.trainEnd ≤ window.testStart ∧ window.testStart < window.testEnd
  embargoed : ∀ window ∈ windows, window.testStart = window.trainEnd + embargo

/-- Every fold has its window, the windows touch, and the last one reaches the end but for the rounding. -/
structure Covering (period : Period) (folds : ℕ) (windows : List WalkForwardWindow) : Prop where
  complete : windows.length = folds
  contiguous : ∀ i earlier later, windows[i]? = some earlier → windows[i + 1]? = some later → earlier.testEnd = later.testStart
  reaches : ∀ last ∈ windows.getLast?, period.stop - folds ≤ last.testEnd

/-- The windows of a selection of folds: in time order, apart, each inside its fold and at least the embargo behind the fold before. -/
structure Apart (period : Period) (folds : ℕ) (embargo : ℤ) (windows : List (ℤ × ℤ)) : Prop where
  ordered : windows.Pairwise fun earlier later => earlier.2 ≤ later.1
  inside : ∀ window ∈ windows, ∃ i fold, (buildFolds period folds)[i]? = some fold ∧ fold.start ≤ window.1 ∧
    window.1 < window.2 ∧ window.2 = fold.stop ∧
    ∀ before, 0 < i → (buildFolds period folds)[i - 1]? = some before → before.stop + embargo ≤ window.1

/-- Test windows of one width, one after the other from a first start, cut off at the end of the period. -/
structure Sliding (first width stop : ℤ) (window : ℕ → WalkForwardWindow) : Prop where
  nonneg : 0 ≤ width
  index : ∀ i, (window i).foldIndex = i
  testStart : ∀ i, (window i).testStart = first + width * i
  testEnd : ∀ i, (window i).testEnd = min (first + width * i + width) stop

theorem nearest_nonneg {value : ℚ} (nonneg : 0 ≤ value) : 0 ≤ nearest value := nearest_intCast 0 ▸ nearest_mono nonneg

theorem one_le_nearest {value : ℚ} (large : 1 ≤ value) : 1 ≤ nearest value := nearest_intCast 1 ▸ nearest_mono (by exact_mod_cast large)

theorem timedelta_mono {first second : ℚ} (le : first ≤ second) : timedelta first ≤ timedelta second :=
  nearest_mono (mul_le_mul_of_nonneg_right le (by norm_num))

theorem timedelta_nonneg (seconds : ℚ) : 0 ≤ timedelta (max 0 seconds) := nearest_nonneg (mul_nonneg (le_max_left _ _) (by norm_num))

section Slides
variable {first width stop : ℤ} {window : ℕ → WalkForwardWindow} {folds : ℕ}

def kept (window : ℕ → WalkForwardWindow) (folds : ℕ) : List WalkForwardWindow :=
  ((List.range folds).map window).filter fun window => ¬ window.testEnd ≤ window.testStart

theorem mem_kept {held : WalkForwardWindow} (member : held ∈ kept window folds) : ∃ i < folds, window i = held ∧ held.testStart < held.testEnd := by
  have ⟨stored, nonempty⟩ := List.mem_filter.1 member
  have ⟨i, inside, same⟩ := List.mem_map.1 stored
  exact ⟨i, List.mem_range.1 inside, same, not_le.1 (of_decide_eq_true nonempty)⟩

theorem Sliding.ordered (sliding : Sliding first width stop window) (folds : ℕ) :
    (kept window folds).Pairwise fun earlier later => earlier.foldIndex < later.foldIndex ∧ earlier.testEnd ≤ later.testStart := by
  refine List.Pairwise.filter _ (List.pairwise_map.2 (List.pairwise_lt_range.imp fun {i j} before => ?_))
  rw [sliding.index, sliding.index, sliding.testEnd, sliding.testStart]
  refine ⟨before, (min_le_left _ _).trans ?_⟩
  have steps : width * (i + 1 : ℕ) ≤ width * j := mul_le_mul_of_nonneg_left (by exact_mod_cast before) sliding.nonneg
  push_cast at steps
  linarith

theorem Sliding.nonempty_iff (sliding : Sliding first width stop window) (positive : 0 < width) (i : ℕ) :
    ¬ (window i).testEnd ≤ (window i).testStart ↔ first + width * i < stop := by
  rw [not_le, sliding.testStart, sliding.testEnd, lt_min_iff]
  exact and_iff_right (lt_add_of_pos_right _ positive)

theorem Sliding.covers (sliding : Sliding first width stop window) (positive : 0 < width) (last : first + width * (folds - 1) < stop) :
    kept window folds = (List.range folds).map window := by
  refine List.filter_eq_self.2 fun held member => decide_eq_true ?_
  have ⟨i, inside, same⟩ := List.mem_map.1 member
  rw [← same]
  refine (sliding.nonempty_iff positive i).2 (lt_of_le_of_lt ?_ last)
  have within := List.mem_range.1 inside
  have steps : width * i ≤ width * (folds - 1) := mul_le_mul_of_nonneg_left (by omega) positive.le
  linarith

theorem Sliding.covering_iff {period : Period} (sliding : Sliding first width period.stop window) (positive : 0 < width) (some_fold : 0 < folds)
    (near : period.stop - folds ≤ first + width * folds) :
    Covering period folds (kept window folds) ↔ first + width * (folds - 1) < period.stop := by
  refine ⟨fun covering => ?_, fun last => ?_⟩
  · have all : ∀ held ∈ (List.range folds).map window, decide (¬ held.testEnd ≤ held.testStart) = true := by
      refine List.length_filter_eq_length_iff.1 ?_
      rw [List.length_map, List.length_range]
      exact covering.complete
    have kept_last := of_decide_eq_true (all (window (folds - 1)) (List.mem_map_of_mem (List.mem_range.2 (by omega))))
    have starts := (sliding.nonempty_iff positive (folds - 1)).1 kept_last
    have index : ((folds - 1 : ℕ) : ℤ) = folds - 1 := by omega
    rwa [index] at starts
  · have all := sliding.covers positive last
    rw [all]
    have entry : ∀ i held, ((List.range folds).map window)[i]? = some held → i < folds ∧ window i = held := by
      intro i held found
      have ⟨bound, same⟩ := List.getElem?_eq_some_iff.1 found
      rw [List.getElem_map, List.getElem_range] at same
      rw [List.length_map, List.length_range] at bound
      exact ⟨bound, same⟩
    refine { complete := by rw [List.length_map, List.length_range], contiguous := ?_, reaches := ?_ }
    · intro i earlier later found found_next
      have ⟨_, same⟩ := entry i earlier found
      have ⟨bound, same_next⟩ := entry (i + 1) later found_next
      have steps : width * (i + 1 : ℕ) ≤ width * (folds - 1) := mul_le_mul_of_nonneg_left (by omega) positive.le
      have next_start : first + width * i + width = first + width * (i + 1 : ℕ) := by
        push_cast
        ring
      rw [← same, ← same_next, sliding.testEnd, sliding.testStart, next_start]
      exact min_eq_left (by linarith)
    · intro last_window found
      rw [List.getLast?_eq_getElem?] at found
      have ⟨_, same⟩ := entry _ _ found
      have index : (((List.range folds).map window).length - 1 : ℕ) = folds - 1 := by rw [List.length_map, List.length_range]
      have cast : ((folds - 1 : ℕ) : ℤ) = folds - 1 := by omega
      rw [← same, index, sliding.testEnd, cast]
      refine le_min ?_ (by omega)
      calc period.stop - folds ≤ first + width * folds := near
        _ = first + width * (folds - 1) + width := by ring

end Slides

/-- A split of a period into at most as many folds as it has milliseconds. -/
structure SplitRequest (period : Period) extends WalkForwardConfig where
  positive : 1 ≤ nFolds
  bounded : nFolds * 1000 ≤ period.stop - period.start

section Requests
variable {period : Period} (request : SplitRequest period)

theorem SplitRequest.folds_eq : ((request.toWalkForwardConfig.folds : ℕ) : ℤ) = request.nFolds := by
  have positive := request.positive
  unfold WalkForwardConfig.folds
  omega

theorem SplitRequest.sizes : (1 : ℚ) ≤ request.toWalkForwardConfig.folds ∧
    (request.toWalkForwardConfig.folds : ℚ) * 1000 ≤ ((period.stop - period.start : ℤ) : ℚ) ∧
    (1000000 : ℚ) ≤ ((period.stop - period.start : ℤ) : ℚ) := by
  have folds := request.folds_eq
  have positive := request.positive
  have bounded := request.bounded
  have second := period.second
  refine ⟨?_, ?_, ?_⟩
  · exact_mod_cast (show 1 ≤ request.toWalkForwardConfig.folds by omega)
  · exact_mod_cast (show ((request.toWalkForwardConfig.folds : ℕ) : ℤ) * 1000 ≤ period.stop - period.start by omega)
  · exact_mod_cast (show (1000000 : ℤ) ≤ period.stop - period.start by omega)

theorem foldWidth_pos : 0 < foldWidth period.start period.stop request.toWalkForwardConfig.folds := by
  have ⟨some_fold, bounded, _⟩ := request.sizes
  refine one_le_nearest ?_
  rw [le_div_iff₀ (by positivity)]
  push_cast at bounded ⊢
  linarith

theorem foldWidth_near : period.stop - request.toWalkForwardConfig.folds ≤
    period.start + foldWidth period.start period.stop request.toWalkForwardConfig.folds +
      foldWidth period.start period.stop request.toWalkForwardConfig.folds * request.toWalkForwardConfig.folds := by
  have ⟨some_fold, _, _⟩ := request.sizes
  have close := (nearest_close (((period.stop - period.start : ℤ) : ℚ) / ((request.toWalkForwardConfig.folds + 1 : ℕ) : ℚ))).1
  have parts : (0 : ℚ) < ((request.toWalkForwardConfig.folds + 1 : ℕ) : ℚ) := by positivity
  have scaled := mul_le_mul_of_nonneg_right close parts.le
  rw [sub_mul, div_mul_cancel₀ _ parts.ne'] at scaled
  change ((period.stop - period.start : ℤ) : ℚ) - _ ≤ (foldWidth period.start period.stop request.toWalkForwardConfig.folds : ℚ) * _ at scaled
  push_cast at scaled
  have rational : ((period.stop - request.toWalkForwardConfig.folds : ℤ) : ℚ) ≤
    ((period.start + foldWidth period.start period.stop request.toWalkForwardConfig.folds +
      foldWidth period.start period.stop request.toWalkForwardConfig.folds * request.toWalkForwardConfig.folds : ℤ) : ℚ) := by
    push_cast
    linarith
  exact_mod_cast rational

theorem initialTrain_pos : 0 < initialTrain period.start period.stop request.trainRatio := by
  have ⟨_, _, second⟩ := request.sizes
  refine one_le_nearest ?_
  calc (1 : ℚ) ≤ 1000000 * (1 / 10) := by norm_num
    _ ≤ ((period.stop - period.start : ℤ) : ℚ) * max (1 / 10) (min (95 / 100) request.trainRatio) :=
      mul_le_mul second (le_max_left _ _) (by norm_num) (by linarith)

theorem initialTrain_le : (initialTrain period.start period.stop request.trainRatio : ℚ) ≤
    ((period.stop - period.start : ℤ) : ℚ) * (95 / 100) + 1 / 2 := by
  have ⟨_, _, second⟩ := request.sizes
  have close := (nearest_close (((period.stop - period.start : ℤ) : ℚ) * max (1 / 10) (min (95 / 100) request.trainRatio))).2
  have ratio : max (1 / 10) (min (95 / 100) request.trainRatio) ≤ 95 / 100 := max_le (by norm_num) (min_le_left _ _)
  exact close.trans (add_le_add_left (mul_le_mul_of_nonneg_left ratio (by linarith)) _)

theorem testWidth_pos : 0 < remainingTest period.start period.stop request.trainRatio 0 ∧
    0 < testWidth period.start period.stop request.toWalkForwardConfig.folds request.trainRatio 0 := by
  have ⟨some_fold, bounded, second⟩ := request.sizes
  have trained := initialTrain_le request
  have remaining : (request.toWalkForwardConfig.folds : ℚ) ≤ (remainingTest period.start period.stop request.trainRatio 0 : ℚ) := by
    unfold remainingTest
    push_cast at trained bounded second ⊢
    linarith
  refine ⟨?_, one_le_nearest ?_⟩
  · exact_mod_cast lt_of_lt_of_le (lt_of_lt_of_le one_pos some_fold) remaining
  · rw [le_div_iff₀ (by linarith), one_mul]
    exact remaining

theorem testWidth_near : period.stop - request.toWalkForwardConfig.folds ≤ period.start + initialTrain period.start period.stop request.trainRatio +
    testWidth period.start period.stop request.toWalkForwardConfig.folds request.trainRatio 0 * request.toWalkForwardConfig.folds := by
  have ⟨some_fold, _, _⟩ := request.sizes
  have close := (nearest_close ((remainingTest period.start period.stop request.trainRatio 0 : ℚ) / (request.toWalkForwardConfig.folds : ℚ))).1
  have parts : (0 : ℚ) < (request.toWalkForwardConfig.folds : ℚ) := by linarith
  have scaled := mul_le_mul_of_nonneg_right close parts.le
  rw [sub_mul, div_mul_cancel₀ _ parts.ne'] at scaled
  change (remainingTest period.start period.stop request.trainRatio 0 : ℚ) - _ ≤
    (testWidth period.start period.stop request.toWalkForwardConfig.folds request.trainRatio 0 : ℚ) * _ at scaled
  have whole : (remainingTest period.start period.stop request.trainRatio 0 : ℚ) =
      (period.stop : ℚ) - period.start - initialTrain period.start period.stop request.trainRatio := by
    unfold remainingTest
    push_cast
    ring
  rw [whole] at scaled
  have rational : ((period.stop - request.toWalkForwardConfig.folds : ℤ) : ℚ) ≤
    ((period.start + initialTrain period.start period.stop request.trainRatio +
      testWidth period.start period.stop request.toWalkForwardConfig.folds request.trainRatio 0 * request.toWalkForwardConfig.folds : ℤ) : ℚ) := by
    push_cast
    linarith
  exact_mod_cast rational

theorem cutOff (stop reached : ℤ) : (if stop < reached then stop else reached) = min reached stop := by
  split
  · next beyond => exact (min_eq_right beyond.le).symm
  · next within => exact (min_eq_left (not_lt.1 within)).symm

theorem rolling_sliding (embargo : ℤ) : Sliding (period.start + foldWidth period.start period.stop request.toWalkForwardConfig.folds + embargo)
    (foldWidth period.start period.stop request.toWalkForwardConfig.folds) period.stop
    (rollingWindow period.start period.stop request.toWalkForwardConfig.folds embargo) where
  nonneg := (foldWidth_pos request).le
  index _ := rfl
  testStart i := by
    unfold rollingWindow
    dsimp only
    ring
  testEnd i := by
    unfold rollingWindow
    dsimp only
    rw [cutOff]
    congr 1
    ring

theorem anchored_sliding {embargo : ℤ} (remaining : 0 < remainingTest period.start period.stop request.trainRatio embargo) :
    Sliding (period.start + initialTrain period.start period.stop request.trainRatio + embargo)
      (testWidth period.start period.stop request.toWalkForwardConfig.folds request.trainRatio embargo) period.stop
      (anchoredWindow period.start period.stop request.toWalkForwardConfig.folds request.trainRatio embargo) where
  nonneg := nearest_nonneg (div_nonneg (by exact_mod_cast remaining.le) (Nat.cast_nonneg _))
  index _ := rfl
  testStart i := by
    unfold anchoredWindow
    dsimp only
    ring
  testEnd i := by
    unfold anchoredWindow
    dsimp only
    rw [cutOff]
    congr 1
    ring

theorem embargo_nonneg (config : WalkForwardConfig) : 0 ≤ config.embargo := timedelta_nonneg _

theorem walkForwardSplit_separated : Separated period request.toWalkForwardConfig.embargo (request.toWalkForwardConfig.walkForwardSplit period) := by
  have embargoed := embargo_nonneg request.toWalkForwardConfig
  unfold WalkForwardConfig.walkForwardSplit
  by_cases anchored : request.anchored = true
  · rw [if_pos anchored]
    unfold anchoredWindows
    by_cases none_left : remainingTest period.start period.stop request.trainRatio request.toWalkForwardConfig.embargo ≤ 0
    · rw [if_pos none_left]
      exact ⟨List.Pairwise.nil, fun _ member => (nomatch member), fun _ member => (nomatch member), fun _ member => (nomatch member)⟩
    · rw [if_neg none_left]
      have sliding := anchored_sliding request (not_le.1 none_left)
      have trained := initialTrain_pos request
      refine { ordered := sliding.ordered _, inside := ?_, trained := ?_, embargoed := ?_ }
      all_goals
        intro window member
        have ⟨i, _, same, nonempty⟩ := mem_kept member
        have steps :
            0 ≤ testWidth period.start period.stop request.toWalkForwardConfig.folds request.trainRatio
              request.toWalkForwardConfig.embargo * (i : ℤ) :=
          mul_nonneg sliding.nonneg (Int.natCast_nonneg i)
      · refine ⟨?_, ?_⟩
        · rw [← same]
          exact le_refl period.start
        · rw [← same, sliding.testEnd]
          exact min_le_right _ _
      · refine ⟨?_, ?_, nonempty⟩
        · rw [← same]
          change period.start < period.start + _ + _
          linarith
        · rw [← same]
          exact le_add_of_nonneg_right embargoed
      · rw [← same]
        rfl
  · rw [if_neg anchored]
    have sliding := rolling_sliding request request.toWalkForwardConfig.embargo
    have width := foldWidth_pos request
    refine { ordered := sliding.ordered _, inside := ?_, trained := ?_, embargoed := ?_ }
    all_goals
      intro window member
      have ⟨i, _, same, nonempty⟩ := mem_kept member
      have steps : 0 ≤ foldWidth period.start period.stop request.toWalkForwardConfig.folds * (i : ℤ) := mul_nonneg width.le (Int.natCast_nonneg i)
    · refine ⟨?_, ?_⟩
      · rw [← same]
        exact le_add_of_nonneg_right steps
      · rw [← same, sliding.testEnd]
        exact min_le_right _ _
    · refine ⟨?_, ?_, nonempty⟩
      · rw [← same]
        exact lt_add_of_pos_right _ width
      · rw [← same]
        exact le_add_of_nonneg_right embargoed
    · rw [← same]
      rfl

def SplitRequest.Fits (request : SplitRequest period) : Prop :=
  if request.anchored then
    initialTrain period.start period.stop request.trainRatio +
      testWidth period.start period.stop request.toWalkForwardConfig.folds request.trainRatio 0 * (request.nFolds - 1) < period.stop - period.start
  else foldWidth period.start period.stop request.toWalkForwardConfig.folds * request.nFolds < period.stop - period.start

theorem walkForwardSplit_covering_iff (unembargoed : request.toWalkForwardConfig.embargo = 0) :
    Covering period request.toWalkForwardConfig.folds (request.toWalkForwardConfig.walkForwardSplit period) ↔ request.Fits := by
  have folds := request.folds_eq
  have some_fold : 0 < request.toWalkForwardConfig.folds := by
    have positive := request.positive
    omega
  unfold WalkForwardConfig.walkForwardSplit SplitRequest.Fits
  rw [unembargoed]
  by_cases anchored : request.anchored = true
  · have ⟨remaining, positive⟩ := testWidth_pos request
    rw [if_pos anchored, if_pos anchored]
    unfold anchoredWindows
    rw [if_neg (not_le.2 remaining)]
    refine ((anchored_sliding request remaining).covering_iff positive some_fold ?_).trans ?_
    · rw [add_zero]
      exact testWidth_near request
    · rw [folds]
      constructor <;> intro before <;> linarith
  · have positive := foldWidth_pos request
    rw [if_neg anchored, if_neg anchored]
    refine ((rolling_sliding request 0).covering_iff positive some_fold ?_).trans ?_
    · rw [add_zero]
      exact foldWidth_near request
    · rw [folds]
      constructor <;> intro before <;> linarith

end Requests

structure TestSelection where
  nFolds : ℕ
  two : 2 ≤ nFolds
  testIndices : List (Fin nFolds)
  embargoSeconds : ℚ

namespace TestSelection
variable (period : Period) (selection : TestSelection)

def windows : List (ℤ × ℤ) :=
  testFoldWindows (buildFolds period selection.nFolds) (selection.testIndices.map Fin.val) selection.embargoSeconds

end TestSelection

section Folds
variable {period : Period} {folds : ℕ}

theorem foldSeconds_nonneg : 0 ≤ foldSeconds period folds := div_nonneg (le_max_of_le_left zero_le_one) (Nat.cast_nonneg _)

theorem buildFolds_get {i : ℕ} {fold : CPCVFold} (found : (buildFolds period folds)[i]? = some fold) :
    fold.start = period.start + timedelta (i * foldSeconds period folds) ∧
      fold.stop = period.start + timedelta ((i + 1 : ℕ) * foldSeconds period folds) := by
  unfold buildFolds at found
  have ⟨bound, same⟩ := List.getElem?_eq_some_iff.1 found
  rw [List.getElem_map, List.getElem_range] at same
  rw [← same]
  exact ⟨rfl, rfl⟩

theorem buildFolds_mono {i j : ℕ} {first second : CPCVFold} (before : i < j) (found : (buildFolds period folds)[i]? = some first)
    (found_later : (buildFolds period folds)[j]? = some second) : first.stop ≤ second.start := by
  rw [(buildFolds_get found).2, (buildFolds_get found_later).1]
  refine add_le_add_right (timedelta_mono (mul_le_mul_of_nonneg_right ?_ foldSeconds_nonneg)) _
  exact_mod_cast before

def foldWindow (folds : List CPCVFold) (emb : ℤ) (i : ℕ) : Option (ℤ × ℤ) :=
  folds[i]?.bind fun fold =>
    if (if 0 < i then fold.start + emb else fold.start) < fold.stop then some (if 0 < i then fold.start + emb else fold.start, fold.stop) else none

theorem foldWindow_some {held : List CPCVFold} {emb : ℤ} {i : ℕ} {window : ℤ × ℤ} (found : foldWindow held emb i = some window) :
    ∃ fold, held[i]? = some fold ∧ window = (if 0 < i then fold.start + emb else fold.start, fold.stop) ∧ window.1 < window.2 := by
  have ⟨fold, stored, opened⟩ := Option.bind_eq_some_iff.1 found
  have ⟨nonempty, same⟩ := Option.ite_none_right_eq_some.1 opened
  have equal := (Option.some.inj same).symm
  exact ⟨fold, stored, equal, by rw [equal]; exact nonempty⟩

theorem testFoldWindows_apart (period : Period) (selection : TestSelection) :
    Apart period selection.nFolds (timedelta (max 0 selection.embargoSeconds)) (selection.windows period) := by
  have embargoed := timedelta_nonneg selection.embargoSeconds
  have windows_eq : selection.windows period = ((selection.testIndices.map Fin.val).dedup.mergeSort fun first second => first ≤ second).filterMap
      (foldWindow (buildFolds period selection.nFolds) (timedelta (max 0 selection.embargoSeconds))) := rfl
  have sorted := pairwise_sortedBy id (selection.testIndices.map Fin.val).dedup
  have distinct := (List.mergeSort_perm (selection.testIndices.map Fin.val).dedup fun first second => decide (first ≤ second)).nodup_iff.2
    (List.nodup_dedup _)
  rw [windows_eq]
  refine { ordered := ?_, inside := ?_ }
  · refine List.pairwise_filterMap.2 ((sorted.and distinct).imp fun {i j} ordered first opened second opened_later => ?_)
    have before : i < j := lt_of_le_of_ne ordered.1 ordered.2
    have ⟨fold, stored, same, _⟩ := foldWindow_some opened
    have ⟨later, stored_later, same_later, _⟩ := foldWindow_some opened_later
    rw [same, same_later]
    dsimp only
    rw [if_pos (by omega)]
    exact (buildFolds_mono before stored stored_later).trans (le_add_of_nonneg_right embargoed)
  · intro window member
    have ⟨i, _, opened⟩ := List.mem_filterMap.1 member
    have ⟨fold, stored, same, nonempty⟩ := foldWindow_some opened
    refine ⟨i, fold, stored, ?_, nonempty, by rw [same], fun before later stored_before => ?_⟩
    · rw [same]
      dsimp only
      split
      · exact le_add_of_nonneg_right embargoed
      · exact le_rfl
    · rw [same, if_pos later]
      exact add_le_add_left (buildFolds_mono (by omega) stored_before stored) _

end Folds

/-- The windows of both kinds of split: separated, and covering the period without an embargo. -/
structure WindowsHold (period : Period) (request : SplitRequest period) (selection : TestSelection) : Prop where
  separated : Separated period request.toWalkForwardConfig.embargo (request.toWalkForwardConfig.walkForwardSplit period)
  covering : request.toWalkForwardConfig.embargo = 0 →
    Covering period request.toWalkForwardConfig.folds (request.toWalkForwardConfig.walkForwardSplit period)
  apart : Apart period selection.nFolds (timedelta (max 0 selection.embargoSeconds)) (selection.windows period)

theorem windowsHold_iff (period : Period) (request : SplitRequest period) (selection : TestSelection) :
    WindowsHold period request selection ↔ (request.toWalkForwardConfig.embargo = 0 → request.Fits) :=
  ⟨fun hold unembargoed => (walkForwardSplit_covering_iff request unembargoed).1 (hold.covering unembargoed),
    fun fits => {
      separated := walkForwardSplit_separated request
      covering := fun unembargoed => (walkForwardSplit_covering_iff request unembargoed).2 (fits unembargoed)
      apart := testFoldWindows_apart period selection }⟩

def tenSeconds : Period := ⟨0, 10000000, by decide⟩

/-- Ten seconds in ten thousand rolling folds: each is rounded up to a millisecond. -/
def millisecondFolds : SplitRequest tenSeconds where
  anchored := false
  nFolds := 10000
  trainRatio := 7 / 10
  embargoSeconds := 0
  positive := by decide
  bounded := by decide

def firstOfTwo : TestSelection := ⟨2, le_rfl, [0], 0⟩

/-- The rounded folds reach the end one too early, and the last window is left out. -/
theorem millisecondFolds_not_covering : ¬ WindowsHold tenSeconds millisecondFolds firstOfTwo := by
  intro hold
  have unembargoed : millisecondFolds.toWalkForwardConfig.embargo = 0 := by decide +kernel
  have fits := (walkForwardSplit_covering_iff millisecondFolds unembargoed).1 (hold.covering unembargoed)
  have width : foldWidth tenSeconds.start tenSeconds.stop millisecondFolds.toWalkForwardConfig.folds = 1000 := by decide +kernel
  change foldWidth tenSeconds.start tenSeconds.stop millisecondFolds.toWalkForwardConfig.folds * 10000 < 10000000 - 0 at fits
  rw [width] at fits
  exact absurd fits (by decide)

end Callisto.Backtest
