import Callisto.Library.TimeSeries
import Mathlib.Algebra.Order.Ring.Rat
import Mathlib.Algebra.Order.Field.Basic
import Mathlib.Tactic.Linarith
import Mathlib.Tactic.Ring

/-! The point of a price series that an emission is replayed at, the price moves before it, and the close at a mark. -/

namespace Callisto.Replay

open Callisto.Library

/-- A price point; `p` is missing where it is not a number. -/
structure Point where
  t : ℤ
  p : Option ℚ
  deriving DecidableEq

structure PriceSeries where
  points : List Point
  sorted : points.Pairwise fun earlier later => earlier.t ≤ later.t

def clampPrice (price : ℚ) : ℚ := max (1 / 10000) (min (9999 / 10000) price)

/-- The loop of `_find_point_for_ts`, at `idx` with the candidate found so far. -/
def candidateIndex (tsMs : ℤ) : List Point → ℕ → ℕ → ℕ
  | [], _, candidateIdx => candidateIdx
  | point :: points, idx, candidateIdx => if point.t ≤ tsMs then candidateIndex tsMs points (idx + 1) idx else candidateIdx

def findPointForTs (points : List Point) (tsMs : Option ℤ) : Option (ℕ × Point) :=
  match tsMs with
  | none => points.getLast?.map fun point => (points.length - 1, point)
  | some ts => points[candidateIndex ts points 0 0]?.map fun point => (candidateIndex ts points 0 0, point)

/-- The baseline of a move: the rows are those up to the anchor, newest first. -/
def baseline (cutoffTs : ℤ) : List Point → ℚ → ℚ
  | [], price => price
  | row :: rows, price =>
    if row.t ≤ cutoffTs then clampPrice (row.p.getD price) else baseline cutoffTs rows (clampPrice (row.p.getD price))

def movePercent (points : List Point) (anchor : Point) (anchorIndex : ℕ) (windowMinutes : ℤ) : ℚ :=
  let anchorPrice := clampPrice (anchor.p.getD (1 / 2))
  let price := baseline (anchor.t - windowMinutes * 60000) (points.take (anchorIndex + 1)).reverse anchorPrice
  if 0 < price then (anchorPrice - price) / price * 100 else 0

structure HistorySummary where
  move5m : ℚ
  move30m : ℚ
  move2h : ℚ
  deriving DecidableEq

/-- `none` is the empty summary of an empty series. -/
def historySummaryForPoint (points : List Point) (anchorIndex : ℕ) : Option HistorySummary :=
  let anchorIndex := min anchorIndex (points.length - 1)
  points[anchorIndex]?.map fun anchor => {
    move5m := movePercent points anchor anchorIndex 5
    move30m := movePercent points anchor anchorIndex 30
    move2h := movePercent points anchor anchorIndex 120 }

structure MarkClose where
  entryPrice : ℚ
  exitPrice : ℚ
  quantity : ℚ
  feesUsd : ℚ
  notionalUsd : ℚ
  realizedPnlUsd : ℚ
  deriving DecidableEq

def markToMarketClose (entryPrice quantity markPrice feeBps : ℚ) : MarkClose :=
  let qty := max 0 quantity
  let entry := clampPrice entryPrice
  let mark := clampPrice markPrice
  let notional := qty * mark
  let fees := notional * (max 0 feeBps / 10000)
  { entryPrice := entry, exitPrice := mark, quantity := qty, feesUsd := fees, notionalUsd := notional,
    realizedPnlUsd := (mark - entry) * qty - fees }

def known (ts : ℤ) (points : List Point) : List Point := points.filter fun point => point.t ≤ ts

/-- A replay at a time that the points after it have no part in: it is the replay of the points known by then. -/
def LooksBack (points : List Point) (ts : ℤ) (point : Point) (history : Option HistorySummary) : Prop :=
  point.t ≤ ts ∧ ∃ idx, findPointForTs (known ts points) (some ts) = some (idx, point) ∧
    historySummaryForPoint (known ts points) idx = history

theorem known_eq (series : PriceSeries) (ts : ℤ) : known ts series.points = series.points.takeWhile fun point => decide (point.t ≤ ts) :=
  (TimeSeries.takeWhile_eq_filter (series.sorted.imp fun ordered later => decide_eq_true (ordered.trans (of_decide_eq_true later)))).symm

theorem candidateIndex_eq (ts : ℤ) (points : List Point) (idx candidateIdx : ℕ) : candidateIndex ts points idx candidateIdx =
    if points.takeWhile (fun point => decide (point.t ≤ ts)) = [] then candidateIdx
    else idx + ((points.takeWhile fun point => decide (point.t ≤ ts)).length - 1) := by
  induction points generalizing idx candidateIdx with
  | nil => rfl
  | cons point points ih =>
    by_cases reached : point.t ≤ ts
    · rw [candidateIndex, if_pos reached, ih,
        @List.takeWhile_cons_of_pos _ (fun point : Point => decide (point.t ≤ ts)) point points (decide_eq_true reached),
          if_neg (List.cons_ne_nil _ _)]
      split
      · next gone => rw [gone]; rfl
      · next more =>
        have some_more := List.length_pos_of_ne_nil more
        rw [List.length_cons]
        omega
    · rw [candidateIndex, if_neg reached,
        @List.takeWhile_cons_of_neg _ (fun point : Point => decide (point.t ≤ ts)) point points (by rwa [decide_eq_true_iff]), if_pos rfl]

section Selection
variable {series : PriceSeries} {ts : ℤ}

theorem findPointForTs_known (reached : known ts series.points ≠ []) : findPointForTs series.points (some ts) =
    (known ts series.points).getLast?.map fun point => ((known ts series.points).length - 1, point) := by
  have split : series.points = known ts series.points ++ series.points.dropWhile fun point => decide (point.t ≤ ts) := by
    rw [known_eq]
    exact List.takeWhile_append_dropWhile.symm
  have index : candidateIndex ts series.points 0 0 = (known ts series.points).length - 1 := by
    rw [candidateIndex_eq, ← known_eq, if_neg reached, zero_add]
  have positive := List.length_pos_of_ne_nil reached
  unfold findPointForTs
  dsimp only
  have newest : series.points[(known ts series.points).length - 1]? = (known ts series.points)[(known ts series.points).length - 1]? := by
    exact (congrArg (·[(known ts series.points).length - 1]?) split).trans (List.getElem?_append_left (by omega))
  rw [index, List.getLast?_eq_getElem?, newest]

theorem known_known : known ts (known ts series.points) = known ts series.points := by
  unfold known
  rw [List.filter_filter]
  congr 1
  funext point
  exact Bool.and_self _

def knownSeries (ts : ℤ) (series : PriceSeries) : PriceSeries where
  points := known ts series.points
  sorted := series.sorted.sublist List.filter_sublist

theorem historySummary_known {idx : ℕ} (inside : idx < (known ts series.points).length) :
    historySummaryForPoint series.points idx = historySummaryForPoint (known ts series.points) idx := by
  have split : series.points = known ts series.points ++ series.points.dropWhile fun point => decide (point.t ≤ ts) := by
    rw [known_eq]
    exact List.takeWhile_append_dropWhile.symm
  have shorter : (known ts series.points).length ≤ series.points.length := List.length_filter_le _ _
  have anchored : min idx (series.points.length - 1) = idx := by omega
  have anchored_known : min idx ((known ts series.points).length - 1) = idx := by omega
  have taken : series.points.take (idx + 1) = (known ts series.points).take (idx + 1) := by
    exact (congrArg (List.take (idx + 1)) split).trans (List.take_append_of_le_length inside)
  have same : series.points[idx]? = (known ts series.points)[idx]? := by
    exact (congrArg (·[idx]?) split).trans (List.getElem?_append_left inside)
  unfold historySummaryForPoint movePercent
  dsimp only
  rw [anchored, anchored_known, same, taken]

theorem looksBack_iff {idx : ℕ} {point : Point} (found : findPointForTs series.points (some ts) = some (idx, point)) :
    LooksBack series.points ts point (historySummaryForPoint series.points idx) ↔ known ts series.points ≠ [] := by
  refine ⟨fun back none_known => ?_, fun reached => ?_⟩
  · have ⟨_, position, selected, _⟩ := back
    rw [none_known] at selected
    exact absurd selected nofun
  · have selected := findPointForTs_known reached
    have again : known ts (knownSeries ts series).points ≠ [] := known_known.symm ▸ reached
    have selected_again := findPointForTs_known again
    change findPointForTs (known ts series.points) (some ts) = (known ts (known ts series.points)).getLast?.map
      fun point => ((known ts (known ts series.points)).length - 1, point) at selected_again
    rw [known_known] at selected_again
    have positive := List.length_pos_of_ne_nil reached
    rw [found] at selected
    have ⟨last, last_eq, pair⟩ := Option.map_eq_some_iff.1 selected.symm
    have index : (known ts series.points).length - 1 = idx := congrArg Prod.fst pair
    have point_eq : last = point := congrArg Prod.snd pair
    have member : point ∈ known ts series.points := List.mem_of_getLast? (point_eq ▸ last_eq)
    refine ⟨of_decide_eq_true (List.mem_filter.1 member).2, idx, ?_, ?_⟩
    · exact selected_again.trans selected.symm
    · exact (historySummary_known (by omega)).symm

end Selection

def pnlAt (entryPrice quantity feeBps markPrice : ℚ) : ℚ := (markToMarketClose entryPrice quantity markPrice feeBps).realizedPnlUsd

theorem clampPrice_mono : Monotone clampPrice := fun _ _ below => max_le_max le_rfl (min_le_min le_rfl below)

theorem pnlAt_eq (entryPrice quantity feeBps markPrice : ℚ) : pnlAt entryPrice quantity feeBps markPrice =
    max 0 quantity * (1 - max 0 feeBps / 10000) * clampPrice markPrice - clampPrice entryPrice * max 0 quantity := by
  unfold pnlAt markToMarketClose
  dsimp only
  ring

section Close
variable {entryPrice quantity feeBps : ℚ}

theorem slope_nonneg (capped : feeBps ≤ 10000) : 0 ≤ max 0 quantity * (1 - max 0 feeBps / 10000) :=
  mul_nonneg (le_max_left _ _) (sub_nonneg.2 ((div_le_one (by norm_num)).2 (max_le (by norm_num) capped)))

theorem pnlAt_mono (capped : feeBps ≤ 10000) : Monotone (pnlAt entryPrice quantity feeBps) := by
  intro lower higher below
  rw [pnlAt_eq, pnlAt_eq]
  exact sub_le_sub_right (mul_le_mul_of_nonneg_left (clampPrice_mono below) (slope_nonneg capped)) _

theorem pnlAt_antitone_iff (capped : feeBps ≤ 10000) : Antitone (pnlAt entryPrice quantity feeBps) ↔ quantity ≤ 0 ∨ feeBps = 10000 := by
  refine ⟨fun falling => ?_, fun flat => ?_⟩
  · have ends := falling (show (1 / 4 : ℚ) ≤ 1 / 2 by norm_num)
    have low : clampPrice (1 / 4) = 1 / 4 := by decide +kernel
    have high : clampPrice (1 / 2) = 1 / 2 := by decide +kernel
    rw [pnlAt_eq, pnlAt_eq, low, high] at ends
    have slope := @slope_nonneg quantity _ capped
    have zero : max 0 quantity * (1 - max 0 feeBps / 10000) = 0 := by linarith
    rcases mul_eq_zero.1 zero with none_held | no_share
    · exact Or.inl (none_held ▸ le_max_right 0 quantity)
    · have full : max 0 feeBps = 10000 := by linarith
      rcases max_choice 0 feeBps with free | charged
      · rw [free] at full
        norm_num at full
      · exact Or.inr (charged ▸ full)
  · have zero : max 0 quantity * (1 - max 0 feeBps / 10000) = 0 := by
      rcases flat with none_held | full
      · rw [max_eq_left none_held, zero_mul]
      · rw [full]
        norm_num
    intro lower higher _
    rw [pnlAt_eq, pnlAt_eq, zero, zero_mul, zero_mul]

end Close

end Callisto.Replay
