import Callisto.Backtest.MatchingWalks

/-! The accounts of one order: its fills, its filled size and its average price agree whatever it meets. -/

namespace Callisto.Backtest

open Callisto.Library

/-- Filled size and average price are those of the fills, and the fills are numbered as they came. -/
structure BacktestOrder.Booked (order : BacktestOrder) : Prop where
  filled : order.filledSize = (order.fills.map Fill.size).sum
  averaged : order.avgFillPrice * order.filledSize = (order.fills.map fun fill => fill.price * fill.size).sum
  indexed : order.fills.map Fill.fillIndex = List.range order.fills.length
  own : ∀ fill ∈ order.fills, fill.Of order.toNewOrder

namespace BacktestOrder.Booked

variable {order : BacktestOrder}

theorem nonneg (booked : order.Booked) : 0 ≤ order.filledSize := by
  rw [booked.filled]
  apply List.sum_nonneg
  intro size member
  obtain ⟨fill, mem, rfl⟩ := List.mem_map.1 member
  exact (booked.own fill mem).positive.le

theorem record (booked : order.Booked) {fill : Fill} (of_ : fill.Of order.toNewOrder)
    (numbered : fill.fillIndex = order.fills.length) : (order.record fill).Booked := by
  have more : 0 < order.filledSize + fill.size := by linarith [booked.nonneg, of_.positive]
  constructor
  · simp [BacktestOrder.record, booked.filled]
  · have total : (order.record fill).avgFillPrice * (order.record fill).filledSize =
        order.avgFillPrice * order.filledSize + fill.price * fill.size := by
      simp only [BacktestOrder.record, if_pos more]
      exact div_mul_cancel₀ _ more.ne'
    rw [total, booked.averaged]
    simp [BacktestOrder.record]
  · simp [BacktestOrder.record, booked.indexed, numbered, List.range_succ]
  · intro other member
    rcases List.mem_append.1 member with old | new
    · exact booked.own other old
    · rw [List.mem_singleton.1 new]
      exact of_

theorem congr {other : BacktestOrder} (booked : order.Booked) (terms : other.toNewOrder = order.toNewOrder)
    (fills : other.fills = order.fills) (filled : other.filledSize = order.filledSize)
    (average : other.avgFillPrice = order.avgFillPrice) : other.Booked := by
  constructor
  · rw [filled, fills, booked.filled]
  · rw [average, filled, fills, booked.averaged]
  · rw [fills, booked.indexed]
  · rw [fills, terms]
    exact booked.own

end BacktestOrder.Booked

/-- An order as a match of it at rest may note on it: nothing but the probability. -/
def BacktestOrder.NotedAs (order noted : BacktestOrder) : Prop :=
  ∃ probability, noted = { order with fillProbabilityCumulative := probability }

namespace MatchingConfig

variable {config : MatchingConfig}

theorem cappedTake_noted (order : BacktestOrder) (observedAt : Instant) (candidate : ℚ) :
    (config.cappedTake order observedAt candidate).1 ≤ candidate ∧
      order.NotedAs (config.cappedTake order observedAt candidate).2.1 := by
  unfold cappedTake
  split_ifs
  · exact ⟨le_rfl, order.fillProbabilityCumulative, rfl⟩
  · cases config.fillProbability order observedAt with
    | none => exact ⟨le_rfl, order.fillProbabilityCumulative, rfl⟩
    | some probability => exact ⟨min_le_left _ _, probability, rfl⟩

theorem takerWalk_keeps {now : Instant} {impactBps : ℚ} {good : Walk → Prop}
    (keeps : ∀ walk index price take, good walk → 0 < take → take ≤ walk.remaining →
      ¬ walk.order.side.Beyond walk.order.price price →
        good (walk.fillFrom index (config.takerFill now walk price take impactBps) price))
    (levels : List (ℚ × ℚ)) (index : ℕ) (walk : Walk) (start : good walk) :
    good (config.takerWalk now impactBps index levels walk) := by
  induction levels generalizing index walk with
  | nil => exact start
  | cons level rest ih =>
    obtain ⟨price, qty⟩ := level
    simp only [takerWalk]
    split_ifs with done empty beyond
    · exact start
    · exact ih (index + 1) walk start
    · exact start
    · exact ih (index + 1) _ (keeps walk index price _ start (lt_min (not_le.1 empty) (not_le.1 done))
        (min_le_right _ _) beyond)

theorem restingWalk_keeps {good : Walk → Prop}
    (notes : ∀ walk order, good walk → walk.order.NotedAs order → good { walk with order := order })
    (keeps : ∀ (walk : Walk) index take probability, good walk → 0 < take → take ≤ walk.remaining →
      good (walk.fillFrom index (config.restingFill walk.book.snapshot walk.order take probability) walk.order.price))
    (levels : List (ℚ × ℚ)) (index : ℕ) (walk : Walk) (start : good walk) :
    good (config.restingWalk index levels walk) := by
  induction levels generalizing index walk with
  | nil => exact start
  | cons level rest ih =>
    obtain ⟨price, qty⟩ := level
    simp only [restingWalk]
    by_cases done : walk.remaining ≤ 0
    · rwa [if_pos done]
    rw [if_neg done]
    by_cases beyond : walk.order.side.Beyond walk.order.price price
    · rwa [if_pos beyond]
    rw [if_neg beyond]
    have capped := @cappedTake_noted config walk.order walk.book.snapshot.observedAt (min qty walk.remaining)
    generalize config.cappedTake walk.order walk.book.snapshot.observedAt (min qty walk.remaining) = outcome at *
    obtain ⟨take, order, probability⟩ := outcome
    have noted := notes walk order start capped.2
    simp only
    split_ifs with nothing
    · exact ih (index + 1) _ noted
    · have fits : take ≤ walk.remaining := capped.1.trans (min_le_right _ _)
      exact ih (index + 1) _ (keeps { walk with order := order } index take probability noted (not_le.1 nothing) fits)

end MatchingConfig

/-- A walk of an order whose accounts are kept, with the fills since its start. -/
structure Walk.Kept (start : BacktestOrder) (before : List Fill) (walk : Walk) : Prop where
  booked : walk.order.Booked
  terms : walk.order.toNewOrder = start.toNewOrder
  state : walk.order.state = start.state
  received : walk.order.venueReceivedAt = start.venueReceivedAt
  pending : walk.order.cancelPendingAt = start.cancelPendingAt
  left : walk.remaining = walk.order.size - walk.order.filledSize
  nonneg : 0 ≤ walk.remaining
  fills : ∃ more, walk.produced = before ++ more ∧ walk.order.fills = start.fills ++ more ∧ ∀ fill ∈ more, fill.Of start.toNewOrder

namespace Walk.Kept

variable {start : BacktestOrder} {before : List Fill} {walk : Walk}

theorem fillFrom (kept : walk.Kept start before) {fill : Fill} (of_ : fill.Of walk.order.toNewOrder)
    (numbered : fill.fillIndex = walk.order.fills.length) (fits : fill.size ≤ walk.remaining) (index : ℕ) (consumedAt : ℚ) :
    (walk.fillFrom index fill consumedAt).Kept start before := by
  have left := kept.left
  obtain ⟨more, produced, fills, own⟩ := kept.fills
  refine ⟨kept.booked.record of_ numbered, kept.terms, kept.state, kept.received, kept.pending, ?_, ?_, more ++ [fill], ?_, ?_, ?_⟩
  · simp only [Walk.fillFrom, BacktestOrder.record]
    linarith
  · simp only [Walk.fillFrom]
    linarith
  · simp only [Walk.fillFrom, produced, List.append_assoc]
  · simp only [Walk.fillFrom, BacktestOrder.record, fills, List.append_assoc]
  · intro other member
    rcases List.mem_append.1 member with old | new
    · exact own other old
    · rw [List.mem_singleton.1 new, ← kept.terms]
      exact of_

theorem noted (kept : walk.Kept start before) {order : BacktestOrder} (noted : walk.order.NotedAs order) :
    Walk.Kept start before { walk with order := order } := by
  obtain ⟨probability, rfl⟩ := noted
  have booked : { walk.order with fillProbabilityCumulative := probability }.Booked :=
    kept.booked.congr rfl rfl rfl rfl
  exact ⟨booked, kept.terms, kept.state, kept.received, kept.pending, kept.left, kept.nonneg, kept.fills⟩

end Walk.Kept

namespace MatchingConfig

variable {config : MatchingConfig} {order : BacktestOrder}

theorem consumeLevels_kept (config : MatchingConfig) (booked : order.Booked) (now : Instant) (book : ResidualBook)
    (produced : List Fill) (fits : order.filledSize ≤ order.size) :
    (config.consumeLevels now order book produced).Kept order produced := by
  have left : order.remainingSize = order.size - order.filledSize := max_eq_right (by linarith)
  have start : Walk.Kept order produced ⟨order, book, produced, order.remainingSize⟩ :=
    ⟨booked, rfl, rfl, rfl, rfl, left, le_max_left _ _, [], by simp⟩
  unfold consumeLevels
  split_ifs with full
  · exact start
  · refine takerWalk_keeps (fun walk index price take kept positive enough _ => ?_) _ 0 _ start
    have of_ : (config.takerFill now walk price take (config.adverseBps order.remainingSize
        (((book.remaining order.side).filter fun level => ¬ level.2 ≤ 0 ∧ ¬ order.side.Beyond order.price level.1).map
          Prod.snd).sum)).Of walk.order.toNewOrder := ⟨rfl, rfl, rfl, positive⟩
    exact kept.fillFrom of_ rfl enough index price

theorem restingWalk_kept (config : MatchingConfig) (booked : order.Booked) (book : ResidualBook) (produced : List Fill)
    (fits : order.filledSize ≤ order.size) :
    (config.restingWalk 0 (book.remaining order.side) ⟨order, book, produced, order.remainingSize⟩).Kept order produced := by
  have left : order.remainingSize = order.size - order.filledSize := max_eq_right (by linarith)
  have start : Walk.Kept order produced ⟨order, book, produced, order.remainingSize⟩ :=
    ⟨booked, rfl, rfl, rfl, rfl, left, le_max_left _ _, [], by simp⟩
  refine restingWalk_keeps (fun walk other kept noted => kept.noted noted)
    (fun walk index take probability kept positive enough => ?_) _ 0 _ start
  have of_ : (config.restingFill walk.book.snapshot walk.order take probability).Of walk.order.toNewOrder :=
    ⟨rfl, rfl, rfl, positive⟩
  exact kept.fillFrom of_ rfl enough index walk.order.price

end MatchingConfig

/-- The bids fall and the asks rise, as the ladders of a snapshot are documented. -/
structure BookSnapshot.Sorted (snapshot : BookSnapshot) : Prop where
  bids : snapshot.bids.Pairwise fun level next => next.price ≤ level.price
  asks : snapshot.asks.Pairwise fun level next => level.price ≤ next.price

theorem BookSnapshot.Sorted.beyond {snapshot : BookSnapshot} (sorted : snapshot.Sorted) (side : Side) (limit : ℚ) :
    (snapshot.opposite side).Pairwise fun level next => side.Beyond limit level.price → side.Beyond limit next.price := by
  cases side with
  | sell =>
    refine sorted.bids.imp fun {level next} falls beyond => ?_
    simp only [Side.Beyond] at beyond ⊢
    linarith
  | buy =>
    refine sorted.asks.imp fun {level next} rises beyond => ?_
    simp only [Side.Beyond] at beyond ⊢
    linarith

def sizeWithin (side : Side) (limit : ℚ) (levels : List (ℚ × ℚ)) : ℚ :=
  ((levels.filter fun level => ¬ side.Beyond limit level.1).map Prod.snd).sum

theorem sizeWithin_nonneg {side : Side} {limit : ℚ} {levels : List (ℚ × ℚ)} (sizes : ∀ level ∈ levels, 0 ≤ level.2) :
    0 ≤ sizeWithin side limit levels := by
  apply List.sum_nonneg
  intro size member
  obtain ⟨level, mem, rfl⟩ := List.mem_map.1 member
  exact sizes level (List.mem_of_mem_filter mem)

theorem sizeWithin_cons (side : Side) (limit : ℚ) (level : ℚ × ℚ) (rest : List (ℚ × ℚ)) :
    sizeWithin side limit (level :: rest) =
      (if side.Beyond limit level.1 then 0 else level.2) + sizeWithin side limit rest := by
  unfold sizeWithin
  by_cases beyond : side.Beyond limit level.1
  · simp [beyond]
  · simp [beyond]

namespace MatchingConfig

variable {config : MatchingConfig}

theorem takerWalk_exhausts {now : Instant} {impactBps : ℚ} (levels : List (ℚ × ℚ)) (index : ℕ) (walk : Walk)
    (sizes : ∀ level ∈ levels, 0 ≤ level.2)
    (sorted : levels.Pairwise fun level next =>
      walk.order.side.Beyond walk.order.price level.1 → walk.order.side.Beyond walk.order.price next.1) :
    (config.takerWalk now impactBps index levels walk).remaining ≤
      max 0 (walk.remaining - sizeWithin walk.order.side walk.order.price levels) := by
  induction levels generalizing index walk with
  | nil => simp [takerWalk, sizeWithin]
  | cons level rest ih =>
    obtain ⟨price, qty⟩ := level
    obtain ⟨first, sortedRest⟩ := List.pairwise_cons.1 sorted
    have sizesRest : ∀ level ∈ rest, 0 ≤ level.2 := fun level member => sizes level (List.mem_cons_of_mem _ member)
    have sizeRest := @sizeWithin_nonneg walk.order.side walk.order.price rest sizesRest
    have size : 0 ≤ qty := sizes (price, qty) List.mem_cons_self
    rw [sizeWithin_cons]
    simp only [takerWalk]
    by_cases done : walk.remaining ≤ 0
    · rw [if_pos done]
      exact le_max_of_le_left done
    rw [if_neg done]
    by_cases empty : qty ≤ 0
    · have nothing : qty = 0 := le_antisymm empty size
      rw [if_pos empty]
      have next := ih (index + 1) walk sizesRest sortedRest
      simpa [nothing] using next
    rw [if_neg empty]
    by_cases beyond : walk.order.side.Beyond walk.order.price price
    · have none_ : sizeWithin walk.order.side walk.order.price rest = 0 := by
        unfold sizeWithin
        rw [List.filter_eq_nil_iff.2 (fun level member => by simp [first level member beyond])]
        rfl
      rw [if_pos beyond, if_pos beyond, none_]
      simp
    · rw [if_neg beyond, if_neg beyond]
      have next := ih (index + 1)
        (walk.fillFrom index (config.takerFill now walk price (min qty walk.remaining) impactBps) price) sizesRest sortedRest
      refine next.trans (max_le (le_max_left _ _) ?_)
      simp only [Walk.fillFrom, takerFill, BacktestOrder.record]
      rcases le_total qty walk.remaining with part | all
      · rw [min_eq_left part]
        exact le_max_of_le_right (by linarith)
      · rw [min_eq_right all]
        exact le_max_of_le_left (by linarith)

theorem availableForTaker_eq (book : ResidualBook) (side : Side) (price : ℚ) :
    availableForTaker book side price = sizeWithin side price (book.remaining side) := by
  cases side with
  | sell =>
    simp only [availableForTaker, sizeWithin, ResidualBook.remainingBids, Side.Beyond, not_lt, sub_le_iff_le_add]
  | buy =>
    simp only [availableForTaker, sizeWithin, ResidualBook.remainingAsks, Side.Beyond, not_lt, sub_le_iff_le_add]

theorem consumeLevels_fills {order : BacktestOrder} {book : ResidualBook} (sorted : book.snapshot.Sorted) (now : Instant)
    (produced : List Fill) (enough : order.remainingSize ≤ availableForTaker book order.side order.price + slack) :
    (config.consumeLevels now order book produced).remaining ≤ slack := by
  have small : (0 : ℚ) ≤ slack := by norm_num [slack]
  unfold consumeLevels
  split_ifs with full
  · exact full.trans small
  · have sizes : ∀ level ∈ book.remaining order.side, 0 ≤ level.2 := by
      intro level member
      obtain ⟨other, -, rfl⟩ := List.mem_map.1 member
      exact le_max_left _ _
    have ordered : (book.remaining order.side).Pairwise fun level next =>
        order.side.Beyond order.price level.1 → order.side.Beyond order.price next.1 := by
      unfold ResidualBook.remaining
      rw [List.pairwise_map]
      exact sorted.beyond order.side order.price
    have bound := @takerWalk_exhausts config now (config.adverseBps order.remainingSize
      (((book.remaining order.side).filter fun level => ¬ level.2 ≤ 0 ∧ ¬ order.side.Beyond order.price level.1).map
        Prod.snd).sum) (book.remaining order.side) 0 ⟨order, book, produced, order.remainingSize⟩ sizes ordered
    rw [availableForTaker_eq] at enough
    exact bound.trans (max_le small (by linarith))

end MatchingConfig

end Callisto.Backtest
