import Callisto.Library.Traversals
import Callisto.Optimization.TakerFills

/-! What the estimate of a taker order says against the depth inside its limit. -/

namespace Callisto.Optimization.Estimator

open Callisto.Library (pairwise_sortedBy)
open Callisto.Library.Ladder

variable (upper : String → String)

/-- An order with a size, and a depth factor between zero and one. -/
structure TakerOrder extends OrderRequest where
  sized : 0 < sizeUsd.getD 0 ∨ 0 < sizeShares.getD 0
  min_nonneg : 0 ≤ config.minDepthFactor
  min_le_one : config.minDepthFactor ≤ 1

namespace OrderRequest

variable (request : OrderRequest)

/-- The displayed levels of the other side inside the limit, at their executable sizes. -/
def rungs : List (ℚ × ℚ) :=
  rungsOf (request.sideKey upper) request.limit (bookDepthFactor request.bookAgeMs request.config) (request.book.opposite (request.sideKey upper))

def depth : ℚ := depthOf (request.rungs upper)

def depthNotional : ℚ := ((request.rungs upper).map fun rung => rung.1 * rung.2).sum

def usd : ℚ := request.sizeUsd.getD 0

def Suffices (part : ℚ) : Prop :=
  if 0 < request.usd then part * request.usd ≤ request.depthNotional upper else part * request.shares upper ≤ request.depth upper

instance (part : ℚ) : Decidable (request.Suffices upper part) := inferInstanceAs (Decidable (ite _ _ _))

/-- The shares asked for do not run out before the dollars: the order is sized in shares, or it buys without a limit or sells with one. -/
def DollarsBind : Prop :=
  request.usd ≤ 0 ∨ request.sizeShares.getD 0 ≤ 0 ∧ (request.sideKey upper = .buy ↔ request.limit = none)

def filledRatio : ℚ := 999999 / 1000000

end OrderRequest

def Side.AsGood : Side → ℚ → ℚ → Prop
  | .buy, first, second => first ≤ second
  | .sell, first, second => second ≤ first

/-- One order asks for at least as much as another, in the same unit. -/
structure AsksMore (first second : OrderRequest) : Prop where
  book : second.book = first.book
  side : second.side = first.side
  limit : second.limitPrice = first.limitPrice
  age : second.bookAgeMs = first.bookAgeMs
  config : second.config = first.config
  usd : first.usd ≤ second.usd
  in_usd : 0 < first.usd ↔ 0 < second.usd
  shares : first.sizeShares.getD 0 ≤ second.sizeShares.getD 0
  in_shares : 0 < first.sizeShares.getD 0 ↔ 0 < second.sizeShares.getD 0

/-- One order differs from another in a limit that excludes no more. -/
structure Looser (first second : OrderRequest) : Prop where
  book : second.book = first.book
  side : second.side = first.side
  age : second.bookAgeMs = first.bookAgeMs
  config : second.config = first.config
  usd : second.sizeUsd = first.sizeUsd
  shares : second.sizeShares = first.sizeShares
  limit : ∀ price, Beyond (first.sideKey upper) second.limit price → Beyond (first.sideKey upper) first.limit price

structure Faithful (order : TakerOrder) (estimate : ExecutionEstimate) : Prop where
  filled_le : estimate.filledShares ≤ order.depth upper
  within_budget : order.sideKey upper = .buy → 0 < order.usd → estimate.filledNotionalUsd ≤ order.usd
  best_first : (order.rungs upper).Pairwise (fun first second => (order.sideKey upper).AsGood first.1 second.1) ∧
    estimate.filledNotionalUsd = cost (order.rungs upper) (sweep estimate.filledShares (order.rungs upper))
  best : ∀ amounts, IsAllocation (order.rungs upper) amounts → amounts.sum = estimate.filledShares →
    (order.sideKey upper).AsGood estimate.filledNotionalUsd (cost (order.rungs upper) amounts)
  average : ∀ average ∈ estimate.averagePrice, (∃ best ∈ (order.book.opposite (order.sideKey upper)).head?,
    (order.sideKey upper).AsGood best.1 average) ∧ ∀ limit ∈ order.limit, (order.sideKey upper).AsGood average limit
  grows : ∀ other : TakerOrder, AsksMore order.toOrderRequest other.toOrderRequest → estimate.filledShares ≤ (other.takerEstimate upper).filledShares
  loosens : order.usd ≤ 0 → ∀ other : TakerOrder, Looser upper order.toOrderRequest other.toOrderRequest →
    estimate.filledShares ≤ (other.takerEstimate upper).filledShares

def StatusFits (order : TakerOrder) (estimate : ExecutionEstimate) : Prop :=
  (order.Suffices upper 1 → estimate.status = "filled") ∧
    (¬ order.Suffices upper 1 → estimate.status = "partial" ∨ estimate.status = "unfilled")

section Levels

variable {upper : String → String} {request : OrderRequest}

theorem clampPrice_pos (price : ℚ) : 0 < clampPrice price := lt_max_of_lt_left (by norm_num [minPrice])

theorem levels_priced {raw : List RawLevel} {reverse : Bool} : ∀ level ∈ levels raw reverse, 0 < level.1 ∧ 0 < level.2 := by
  intro level member
  have ⟨given, _, kept⟩ := List.mem_filterMap.1 ((List.mergeSort_perm _ _).subset member)
  dsimp only at kept
  split_ifs at kept with positive
  cases kept
  exact ⟨clampPrice_pos _, positive.2⟩

theorem opposite_sorted (book : OrderBook) (side : Side) :
    (book.opposite side).Pairwise fun first second => side.AsGood first.1 second.1 := by
  cases side with
  | buy => exact pairwise_sortedBy Prod.fst _
  | sell => exact pairwise_sortedBy (fun level : ℚ × ℚ => OrderDual.toDual level.1) _

theorem opposite_priced (book : OrderBook) (side : Side) : ∀ level ∈ book.opposite side, 0 < level.1 := by
  cases side with
  | buy => exact fun level member => (levels_priced level member).1
  | sell => exact fun level member => (levels_priced level member).1

theorem Beyond.mono {side : Side} {worst : Option ℚ} {first second : ℚ} (good : side.AsGood first second) (beyond : Beyond side worst first) :
    Beyond side worst second := by
  have ⟨limit, given, past⟩ := beyond
  cases side with
  | buy => exact ⟨limit, given, lt_of_lt_of_le past good⟩
  | sell => exact ⟨limit, given, lt_of_le_of_lt good past⟩

theorem limit_pos {limit : ℚ} (given : limit ∈ request.limit) : 0 < limit := by
  unfold OrderRequest.limit normalizePrice at given
  split at given
  · cases given
  · split_ifs at given
    · cases given
    · rw [← Option.some.inj given]
      exact clampPrice_pos _

theorem reference_eq {best : ℚ × ℚ} {others : List (ℚ × ℚ)} (displayed : request.book.opposite (request.sideKey upper) = best :: others) :
    request.reference upper = request.limit.getD best.1 := by
  have priced : 0 < best.1 := opposite_priced request.book (request.sideKey upper) best (displayed ▸ List.mem_cons_self)
  unfold OrderRequest.reference referencePrice
  cases given : request.limit with
  | some limit =>
    have kept : (some limit).filter (fun limit => decide (0 < limit)) = some limit := Option.filter_some_pos (decide_eq_true (limit_pos given))
    rw [kept]
    rfl
  | none =>
    dsimp only [Option.filter_none, Option.getD_none]
    cases side : request.sideKey upper with
    | buy =>
      rw [side] at displayed
      have first : request.book.bestAsk = best.1 := by
        unfold OrderBook.bestAsk
        rw [show request.book.askLevels = best :: others from displayed]
        rfl
      rw [if_pos ⟨rfl, first ▸ priced⟩, first]
    | sell =>
      rw [side] at displayed
      have first : request.book.bestBid = best.1 := by
        unfold OrderBook.bestBid
        rw [show request.book.bidLevels = best :: others from displayed]
        rfl
      rw [if_neg (fun both => absurd both.1 nofun), if_pos ⟨rfl, first ▸ priced⟩, first]

theorem reference_pos {best : ℚ × ℚ} {others : List (ℚ × ℚ)} (displayed : request.book.opposite (request.sideKey upper) = best :: others) :
    0 < request.reference upper := by
  rw [reference_eq displayed]
  cases given : request.limit with
  | some limit => exact limit_pos given
  | none => exact opposite_priced request.book (request.sideKey upper) best (displayed ▸ List.mem_cons_self)

end Levels

namespace OrderRequest

variable (request : OrderRequest)

def start : Walk where
  remaining := request.shares upper
  remainingBudget := if request.sideKey upper = .buy then (if 0 < request.usd then some request.usd else none) else none

/-- The fill ratio: of the dollars if the order is sized in dollars, else of the shares. -/
def fillRatio (notional filled : ℚ) : ℚ :=
  if 0 < request.usd then notional / request.usd
  else if 0 < request.shares upper then filled / request.shares upper
  else 0

end OrderRequest

section Estimate

variable {upper : String → String} {order : TakerOrder} {request : OrderRequest}

theorem budget_eq {budget : ℚ} (given : budget ∈ (request.start upper).remainingBudget) :
    request.sideKey upper = .buy ∧ 0 < request.usd ∧ budget = request.usd := by
  unfold OrderRequest.start at given
  dsimp only at given
  split_ifs at given with buys funded
  · exact ⟨buys, funded, (Option.some.inj given).symm⟩
  · cases given
  · cases given

theorem rungs_priced : ∀ rung ∈ request.rungs upper, 0 < rung.1 := by
  intro rung member
  have ⟨level, known, same, _⟩ := mem_rungsOf member
  exact same ▸ opposite_priced request.book (request.sideKey upper) level known

theorem rungs_sorted (request : OrderRequest) :
    (request.rungs upper).Pairwise fun first second => (request.sideKey upper).AsGood first.1 second.1 := by
  unfold OrderRequest.rungs rungsOf
  rw [List.pairwise_map]
  exact (opposite_sorted request.book (request.sideKey upper)).sublist List.filter_sublist

variable {others : List (ℚ × ℚ)} {best : ℚ × ℚ}

theorem shares_pos
    (displayed : order.book.opposite (order.sideKey upper) = best :: others) : 0 < order.shares upper := by
  have reference := reference_pos displayed
  unfold OrderRequest.shares requestedShares
  split_ifs with given missing
  · exact given
  · cases missing with
    | inl none => exact absurd (order.sized.resolve_right given) (not_lt.2 none)
    | inr none => exact absurd reference (not_lt.2 none)
  · exact div_pos (not_le.1 (not_or.1 missing).1) reference

theorem shares_nonneg (request : OrderRequest) : 0 ≤ request.shares upper := by
  unfold OrderRequest.shares requestedShares
  split_ifs with given missing
  · exact given.le
  · exact le_rfl
  · exact div_nonneg (not_le.1 (not_or.1 missing).1).le (not_le.1 (not_or.1 missing).2).le

theorem takerEstimate_walk
    (displayed : request.book.opposite (request.sideKey upper) = best :: others) {walked : Walk}
    (walk : (request.start upper).along (request.sideKey upper) request.limit (bookDepthFactor request.bookAgeMs request.config)
      (request.book.opposite (request.sideKey upper)) = walked) :
    (request.takerEstimate upper).filledShares = (if walked.filled ≤ 0 then 0 else walked.filled) ∧
      (request.takerEstimate upper).filledNotionalUsd = (if walked.filled ≤ 0 then 0 else walked.notional) ∧
      (request.takerEstimate upper).averagePrice = (if walked.filled ≤ 0 then none else some (walked.notional / walked.filled)) ∧
      (request.takerEstimate upper).status = (if walked.filled ≤ 0 then "unfilled"
        else if OrderRequest.filledRatio ≤ request.fillRatio upper walked.notional walked.filled then "filled" else "partial") := by
  have ratio : ((if 0 < request.sizeUsd.getD 0 then some (request.sizeUsd.getD 0) else none).filter fun budget => decide (0 < budget)).elim
      (if 0 < request.shares upper then walked.filled / request.shares upper else 0) (fun budget => walked.notional / budget) =
      request.fillRatio upper walked.notional walked.filled := by
    unfold OrderRequest.fillRatio OrderRequest.usd
    by_cases funded : 0 < request.sizeUsd.getD 0
    · rw [if_pos funded, if_pos funded]
      simp [Option.filter, funded]
    · rw [if_neg funded, if_neg funded]
      rfl
  unfold OrderRequest.start OrderRequest.usd at walk
  unfold OrderRequest.takerEstimate estimateTaker OrderRequest.filledRatio
  rw [displayed] at walk ⊢
  dsimp only
  rw [walk]
  by_cases nothing : walked.filled ≤ 0
  · simp only [if_pos nothing]
    exact ⟨rfl, rfl, rfl, rfl⟩
  · simp only [if_neg nothing]
    rw [← ratio]
    refine ⟨trivial, trivial, trivial, ?_⟩
    generalize Option.filter _ _ = funds
    cases funds <;> rfl

theorem takerEstimate_fills (upper : String → String) (order : TakerOrder) :
    ∃ final, Fills (order.rungs upper) (order.start upper) final (order.takerEstimate upper).filledShares ∧
    (order.takerEstimate upper).filledNotionalUsd =
      cost (order.rungs upper) (sweep (order.takerEstimate upper).filledShares (order.rungs upper)) ∧
    (order.takerEstimate upper).averagePrice = (if (order.takerEstimate upper).filledShares ≤ 0 then none
      else some ((order.takerEstimate upper).filledNotionalUsd / (order.takerEstimate upper).filledShares)) ∧
    (order.takerEstimate upper).status = (if (order.takerEstimate upper).filledShares ≤ 0 then "unfilled"
      else if OrderRequest.filledRatio ≤
          order.fillRatio upper (order.takerEstimate upper).filledNotionalUsd (order.takerEstimate upper).filledShares then "filled"
      else "partial") := by
  cases displayed : order.book.opposite (order.sideKey upper) with
  | nil =>
    have empty : order.takerEstimate upper = emptyEstimate (order.sideKey upper) "taker" "empty_opposite_book" (order.shares upper)
        (order.notional upper) order.limit order.config.latencyMs 0 := by
      unfold OrderRequest.takerEstimate estimateTaker
      rw [displayed]
    have none : order.rungs upper = [] := by
      unfold OrderRequest.rungs
      rw [displayed]
      rfl
    rw [empty, none]
    refine ⟨order.start upper, ⟨le_rfl, (add_zero _).symm, (add_zero _).symm, shares_nonneg order.toOrderRequest, le_rfl, ?_, ?_⟩, rfl, rfl, rfl⟩
    · intro budget given
      have ⟨_, funded, same⟩ := budget_eq given
      exact same ▸ funded.le
    · exact Or.inl (min_eq_right (shares_nonneg order.toOrderRequest)).symm
  | cons best others =>
    have worse : (order.book.opposite (order.sideKey upper)).Pairwise fun first second =>
        Beyond (order.sideKey upper) order.limit first.1 → Beyond (order.sideKey upper) order.limit second.1 :=
      (opposite_sorted order.book (order.sideKey upper)).imp fun good beyond => beyond.mono good
    have ⟨amount, fills⟩ := @along_fills (order.sideKey upper) order.limit (bookDepthFactor order.bookAgeMs order.config)
      (order.book.opposite (order.sideKey upper)) (order.start upper) (shares_pos displayed)
      (fun budget given => (budget_eq given).2.2 ▸ (budget_eq given).2.1) (opposite_priced order.book (order.sideKey upper)) worse
    generalize walk : (order.start upper).along _ _ _ _ = walked at fills
    have ⟨filled, notional, average, status⟩ := takerEstimate_walk displayed walk
    have amount_eq : walked.filled = amount := fills.filled.trans (zero_add _)
    have paid : walked.notional = cost (order.rungs upper) (sweep amount (order.rungs upper)) := fills.notional.trans (zero_add _)
    rw [amount_eq] at filled notional average status
    by_cases nothing : amount ≤ 0
    · have zero : amount = 0 := le_antisymm nothing fills.nonneg
      rw [if_pos nothing] at filled notional average status
      rw [filled, notional, average, status, if_pos le_rfl, if_pos le_rfl, @sweep_zero _ _ _ (order.rungs upper) rungsOf_sized, cost_replicate_zero]
      exact ⟨walked, zero ▸ fills, rfl, rfl, rfl⟩
    · rw [if_neg nothing] at filled notional average status
      rw [filled, notional, average, status, if_neg nothing, if_neg nothing]
      exact ⟨walked, fills, paid, rfl, rfl⟩

theorem filled_cost {final : Walk} {amount : ℚ} (fills : Fills (order.rungs upper) (order.start upper) final amount) :
    IsAllocation (order.rungs upper) (sweep amount (order.rungs upper)) ∧ (sweep amount (order.rungs upper)).sum = amount :=
  ⟨sweep_isAllocation fills.nonneg rungsOf_sized, (sweep_sum fills.nonneg rungsOf_sized).trans (min_eq_left fills.available)⟩

theorem depthNotional_eq (request : OrderRequest) :
    request.depthNotional upper = cost (request.rungs upper) (sweep (request.depth upper) (request.rungs upper)) :=
  (cost_sweep_all rungsOf_sized).symm

theorem best_asGood
    (displayed : request.book.opposite (request.sideKey upper) = best :: others) :
    ∀ rung ∈ request.rungs upper, (request.sideKey upper).AsGood best.1 rung.1 := by
  intro rung member
  have ⟨level, known, same, _⟩ := mem_rungsOf member
  have sorted := opposite_sorted request.book (request.sideKey upper)
  rw [displayed] at sorted known
  rw [← same]
  cases List.mem_cons.1 known with
  | inl first =>
    rw [first]
    cases request.sideKey upper <;> exact le_rfl
  | inr later => exact (List.pairwise_cons.1 sorted).1 level later

theorem asGood_limit {limit : ℚ} (given : limit ∈ request.limit) :
    ∀ rung ∈ request.rungs upper, (request.sideKey upper).AsGood rung.1 limit := by
  intro rung member
  have ⟨_, _, _, inside⟩ := mem_rungsOf member
  cases side : request.sideKey upper with
  | buy => exact not_lt.1 fun past => inside ⟨limit, given, by rw [side]; exact past⟩
  | sell => exact not_lt.1 fun past => inside ⟨limit, given, by rw [side]; exact past⟩

theorem usd_le_cost {final : Walk} {amount : ℚ} (fills : Fills (order.rungs upper) (order.start upper) final amount)
    (funded : 0 < order.usd) (binds : order.DollarsBind upper) (suffices_ : order.usd ≤ order.depthNotional upper) :
    order.usd ≤ cost (order.rungs upper) (sweep amount (order.rungs upper)) := by
  have ⟨allocated, total⟩ := filled_cost fills
  cases fills.all with
  | inr spent =>
    have ⟨budget, given, same⟩ := spent
    exact (same.trans (budget_eq given).2.2).ge
  | inl least =>
    by_cases deep : order.depth upper ≤ order.shares upper
    · have whole : amount = order.depth upper := least.trans (min_eq_right deep)
      rw [depthNotional_eq] at suffices_
      exact whole ▸ suffices_
    · have ⟨unshared, limited⟩ := binds.resolve_left (not_le.2 funded)
      have asked : amount = order.shares upper := least.trans (min_eq_left (not_le.1 deep).le)
      cases displayed : order.book.opposite (order.sideKey upper) with
      | nil =>
        have none : order.depth upper = 0 := by
          unfold OrderRequest.depth OrderRequest.rungs
          rw [displayed]
          rfl
        exact absurd (shares_nonneg order.toOrderRequest) (not_le.2 (none ▸ not_le.1 deep))
      | cons best others =>
        have reference := reference_pos displayed
        have shares : order.shares upper * order.reference upper = order.usd := by
          have plain : ¬ (order.sizeUsd.getD 0 ≤ 0 ∨ order.reference upper ≤ 0) := not_or.2 ⟨not_le.2 funded, not_le.2 reference⟩
          unfold OrderRequest.shares requestedShares
          rw [if_neg (not_lt.2 unshared), if_neg plain]
          exact div_mul_cancel₀ _ reference.ne'
        have above : ∀ rung ∈ order.rungs upper, order.reference upper ≤ rung.1 := by
          intro rung member
          rw [reference_eq displayed]
          cases side : order.sideKey upper with
          | buy =>
            have good := best_asGood displayed rung member
            rw [side] at good
            rw [limited.1 side]
            exact good
          | sell =>
            have given : order.limit ≠ none := fun none => absurd (limited.2 none) (by rw [side]; nofun)
            have ⟨limit, found⟩ := Option.ne_none_iff_exists'.1 given
            have good := asGood_limit found rung member
            rw [side] at good
            rw [found]
            exact good
        calc order.usd = order.reference upper * (sweep amount (order.rungs upper)).sum := by rw [total, asked, mul_comm, shares]
          _ ≤ _ := mul_sum_le_cost above allocated

theorem filled_of_suffices (binds : order.DollarsBind upper) (suffices_ : order.Suffices upper 1) :
    (order.takerEstimate upper).status = "filled" := by
  have ⟨final, fills, notional, _, status⟩ := takerEstimate_fills upper order
  have tolerant : OrderRequest.filledRatio ≤ 1 := by norm_num [OrderRequest.filledRatio]
  unfold OrderRequest.Suffices at suffices_
  by_cases funded : 0 < order.usd
  · rw [if_pos funded, one_mul] at suffices_
    have spent := usd_le_cost fills funded binds suffices_
    rw [← notional] at spent
    have some_filled : ¬ (order.takerEstimate upper).filledShares ≤ 0 := by
      intro none
      have zero := le_antisymm none fills.nonneg
      rw [notional, zero, @sweep_zero _ _ _ (order.rungs upper) rungsOf_sized, cost_replicate_zero] at spent
      exact absurd funded (not_lt.2 spent)
    have ratio : OrderRequest.filledRatio ≤ order.fillRatio upper (order.takerEstimate upper).filledNotionalUsd
        (order.takerEstimate upper).filledShares := by
      unfold OrderRequest.fillRatio
      rw [if_pos funded]
      exact tolerant.trans ((one_le_div₀ funded).2 spent)
    rw [status, if_neg some_filled, if_pos ratio]
  · rw [if_neg funded, one_mul] at suffices_
    have given : 0 < order.sizeShares.getD 0 := order.sized.resolve_left funded
    have shares : order.shares upper = order.sizeShares.getD 0 := if_pos given
    have whole : (order.takerEstimate upper).filledShares = order.shares upper := by
      cases fills.all with
      | inl least => exact least.trans (min_eq_left suffices_)
      | inr spent =>
        have ⟨budget, member, _⟩ := spent
        exact absurd (budget_eq member).2.1 funded
    have positive : 0 < order.shares upper := shares ▸ given
    have ratio : OrderRequest.filledRatio ≤ order.fillRatio upper (order.takerEstimate upper).filledNotionalUsd
        (order.takerEstimate upper).filledShares := by
      unfold OrderRequest.fillRatio
      rw [if_neg funded, if_pos positive, whole, div_self positive.ne']
      exact tolerant
    rw [status, if_neg (not_le.2 (whole ▸ positive)), if_pos ratio]

theorem not_filled_of_short (short : ¬ order.Suffices upper OrderRequest.filledRatio) :
    (order.takerEstimate upper).status = "partial" ∨ (order.takerEstimate upper).status = "unfilled" := by
  have ⟨final, fills, notional, _, status⟩ := takerEstimate_fills upper order
  have ratio : ¬ OrderRequest.filledRatio ≤ order.fillRatio upper (order.takerEstimate upper).filledNotionalUsd
      (order.takerEstimate upper).filledShares := by
    unfold OrderRequest.Suffices at short
    unfold OrderRequest.fillRatio
    by_cases funded : 0 < order.usd
    · rw [if_pos funded] at short ⊢
      have most := cost_sweep_le fills.nonneg fills.available rungsOf_sized rungs_priced le_rfl
      rw [le_div_iff₀ funded, not_le]
      rw [depthNotional_eq, not_le] at short
      exact (notional ▸ most).trans_lt short
    · rw [if_neg funded] at short ⊢
      split_ifs with positive
      · rw [le_div_iff₀ positive, not_le]
        exact fills.available.trans_lt (not_le.1 short)
      · norm_num [OrderRequest.filledRatio]
  rw [status]
  split_ifs
  · exact Or.inr rfl
  · exact Or.inl rfl

theorem average_within {average : ℚ} (given : average ∈ (order.takerEstimate upper).averagePrice) :
    (∃ best ∈ (order.book.opposite (order.sideKey upper)).head?, (order.sideKey upper).AsGood best.1 average) ∧
      ∀ limit ∈ order.limit, (order.sideKey upper).AsGood average limit := by
  have ⟨final, fills, notional, average_eq, _⟩ := takerEstimate_fills upper order
  have ⟨allocated, total⟩ := filled_cost fills
  rw [average_eq] at given
  split_ifs at given with nothing
  · cases given
  · have positive := not_le.1 nothing
    cases given
    rw [notional]
    -- a price as good as each rung's bounds what the filled shares cost
    have from_best (price : ℚ) (good : ∀ rung ∈ order.rungs upper, (order.sideKey upper).AsGood price rung.1) :
        (order.sideKey upper).AsGood price (cost (order.rungs upper) (sweep (order.takerEstimate upper).filledShares (order.rungs upper)) /
          (order.takerEstimate upper).filledShares) := by
      cases side : order.sideKey upper with
      | buy =>
        rw [side] at good
        refine (le_div_iff₀ positive).2 ?_
        calc price * (order.takerEstimate upper).filledShares = price * _ := by rw [total]
          _ ≤ _ := mul_sum_le_cost good allocated
      | sell =>
        rw [side] at good
        refine (div_le_iff₀ positive).2 ?_
        calc _ ≤ price * _ := cost_le_mul_sum good allocated
          _ = price * (order.takerEstimate upper).filledShares := by rw [total]
    have to_limit (price : ℚ) (good : ∀ rung ∈ order.rungs upper, (order.sideKey upper).AsGood rung.1 price) :
        (order.sideKey upper).AsGood (cost (order.rungs upper) (sweep (order.takerEstimate upper).filledShares (order.rungs upper)) /
          (order.takerEstimate upper).filledShares) price := by
      cases side : order.sideKey upper with
      | buy =>
        rw [side] at good
        refine (div_le_iff₀ positive).2 ?_
        calc _ ≤ price * _ := cost_le_mul_sum good allocated
          _ = price * (order.takerEstimate upper).filledShares := by rw [total]
      | sell =>
        rw [side] at good
        refine (le_div_iff₀ positive).2 ?_
        calc price * (order.takerEstimate upper).filledShares = price * _ := by rw [total]
          _ ≤ _ := mul_sum_le_cost good allocated
    refine ⟨?_, fun limit found => to_limit limit (asGood_limit found)⟩
    cases displayed : order.book.opposite (order.sideKey upper) with
    | nil =>
      have none : order.depth upper = 0 := by
        unfold OrderRequest.depth OrderRequest.rungs
        rw [displayed]
        rfl
      exact absurd fills.available (not_le.2 (lt_of_eq_of_lt none positive))
    | cons best others => exact ⟨best, rfl, from_best best.1 (best_asGood displayed)⟩

theorem filled_best {amounts : List ℚ} (allocated : IsAllocation (order.rungs upper) amounts)
    (same : amounts.sum = (order.takerEstimate upper).filledShares) :
    (order.sideKey upper).AsGood (order.takerEstimate upper).filledNotionalUsd (cost (order.rungs upper) amounts) := by
  have ⟨final, fills, notional, _, _⟩ := takerEstimate_fills upper order
  have ⟨_, total⟩ := filled_cost fills
  have sorted := @rungs_sorted upper order.toOrderRequest
  rw [notional]
  cases side : order.sideKey upper with
  | buy =>
    rw [side] at sorted
    exact sweep_optimal fills.nonneg rungsOf_sized sorted (List.Perm.refl _) allocated (same.trans total.symm)
  | sell =>
    rw [side] at sorted
    have signed := sorted.imp fun good => neg_le_neg good
    have optimal := @sweep_best ℚ _ _ _ (-1) _ fills.nonneg (order.rungs upper) (order.rungs upper) rungsOf_sized (by simpa using signed)
      (List.Perm.refl _) amounts allocated (same.trans total.symm)
    rw [neg_one_mul, neg_one_mul] at optimal
    exact neg_le_neg_iff.1 optimal

theorem filled_grows {order other : TakerOrder} (more : AsksMore order.toOrderRequest other.toOrderRequest) :
    (order.takerEstimate upper).filledShares ≤ (other.takerEstimate upper).filledShares := by
  have ⟨_, fills, _, _, _⟩ := takerEstimate_fills upper order
  have ⟨_, later, _, _, _⟩ := takerEstimate_fills upper other
  have side : other.sideKey upper = order.sideKey upper := congrArg (normalizeSide upper) more.side
  have limit : other.limit = order.limit := congrArg normalizePrice more.limit
  have rungs : other.rungs upper = order.rungs upper := by
    unfold OrderRequest.rungs
    rw [side, limit, more.age, more.config, more.book]
  have reference : other.reference upper = order.reference upper := by
    unfold OrderRequest.reference
    rw [side, limit, more.book]
  have shares : order.shares upper ≤ other.shares upper := by
    unfold OrderRequest.shares requestedShares
    rw [reference]
    by_cases given : 0 < order.sizeShares.getD 0
    · rw [if_pos given, if_pos (more.in_shares.1 given)]
      exact more.shares
    · rw [if_neg given, if_neg fun others => given (more.in_shares.2 others)]
      by_cases missing : order.sizeUsd.getD 0 ≤ 0 ∨ order.reference upper ≤ 0
      · have others : other.sizeUsd.getD 0 ≤ 0 ∨ order.reference upper ≤ 0 :=
          missing.imp_left fun none => not_lt.1 fun funded => absurd (more.in_usd.2 funded) (not_lt.2 none)
        rw [if_pos missing, if_pos others]
      · have ⟨funded, priced⟩ := not_or.1 missing
        have others : ¬ (other.sizeUsd.getD 0 ≤ 0 ∨ order.reference upper ≤ 0) :=
          not_or.2 ⟨not_le.2 (more.in_usd.1 (not_le.1 funded)), priced⟩
        rw [if_neg missing, if_neg others]
        exact div_le_div_of_nonneg_right more.usd (not_le.1 priced).le
  apply later.maximal rungsOf_sized rungs_priced (fills.wanted.trans shares)
  · rw [rungs]
    exact fills.available
  · intro budget given
    have ⟨buys, funded, same⟩ := budget_eq given
    have member : order.usd ∈ (order.start upper).remainingBudget := by
      unfold OrderRequest.start
      dsimp only
      rw [if_pos (side.symm.trans buys), if_pos (more.in_usd.2 funded)]
      rfl
    rw [rungs, same]
    exact (fills.affordable _ member).trans more.usd

theorem depth_looser {first second : OrderRequest} (looser : Looser upper first second) : first.depth upper ≤ second.depth upper := by
  have side : second.sideKey upper = first.sideKey upper := congrArg (normalizeSide upper) looser.side
  unfold OrderRequest.depth OrderRequest.rungs
  rw [side, looser.book, looser.age, looser.config]
  generalize first.book.opposite (first.sideKey upper) = displayed
  unfold depthOf
  induction displayed with
  | nil => exact le_rfl
  | cons level rest ih =>
    by_cases inside : Beyond (first.sideKey upper) first.limit level.1
    · rw [rungsOf_cons_beyond inside]
      by_cases within : Beyond (first.sideKey upper) second.limit level.1
      · rw [rungsOf_cons_beyond within]
        exact ih
      · rw [rungsOf_cons_inside within, List.map_cons, List.sum_cons]
        exact ih.trans (le_add_of_nonneg_left (le_max_left _ _))
    · rw [rungsOf_cons_inside inside, rungsOf_cons_inside fun past => inside (looser.limit _ past), List.map_cons, List.sum_cons, List.map_cons,
        List.sum_cons]
      exact add_le_add_right ih _

theorem filled_loosens {order other : TakerOrder} (in_shares : order.usd ≤ 0) (looser : Looser upper order.toOrderRequest other.toOrderRequest) :
    (order.takerEstimate upper).filledShares ≤ (other.takerEstimate upper).filledShares := by
  have ⟨_, fills, _, _, _⟩ := takerEstimate_fills upper order
  have ⟨_, later, _, _, _⟩ := takerEstimate_fills upper other
  have given : 0 < order.sizeShares.getD 0 := order.sized.resolve_left (not_lt.2 in_shares)
  have shares : order.shares upper = other.shares upper := by
    unfold OrderRequest.shares requestedShares
    rw [looser.shares, if_pos given, if_pos given]
  apply later.maximal rungsOf_sized rungs_priced
  · exact fills.wanted.trans shares.le
  · exact fills.available.trans (depth_looser looser)
  · intro budget member
    have ⟨_, funded, _⟩ := budget_eq member
    unfold OrderRequest.usd at funded in_shares
    rw [looser.usd] at funded
    exact absurd funded (not_lt.2 in_shares)

end Estimate

/-- An estimate that is faithful, and whose status follows the depth where the dollars bind and where the depth is clearly short. -/
structure TakerSound (order : TakerOrder) (estimate : ExecutionEstimate) : Prop extends Faithful upper order estimate where
  filled : order.DollarsBind upper → order.Suffices upper 1 → estimate.status = "filled"
  short : ¬ order.Suffices upper OrderRequest.filledRatio → estimate.status = "partial" ∨ estimate.status = "unfilled"

/-- The estimate of every sized taker order is so. -/
theorem takerEstimate_sound (order : TakerOrder) : TakerSound upper order (order.takerEstimate upper) := by
  have ⟨_, fills, notional, _, _⟩ := takerEstimate_fills upper order
  constructor
  case toFaithful =>
    constructor
    case filled_le => exact fills.available
    case within_budget =>
      intro buys funded
      have member : order.usd ∈ (order.start upper).remainingBudget := by
        unfold OrderRequest.start
        dsimp only
        rw [if_pos buys, if_pos funded]
        rfl
      rw [notional]
      exact fills.affordable _ member
    case best_first => exact ⟨rungs_sorted order.toOrderRequest, notional⟩
    case best => exact fun amounts allocated same => filled_best allocated same
    case average => exact fun average given => average_within given
    case grows => exact fun other more => filled_grows more
    case loosens => exact fun in_shares other looser => filled_loosens in_shares looser
  case filled => exact filled_of_suffices
  case short => exact not_filled_of_short

/-- Ten dollars at a limit of a half, against a hundred shares at a quarter. -/
def halfLimit : TakerOrder where
  book := ⟨[], [⟨some (1 / 4), some 100⟩]⟩
  side := "BUY"
  sizeUsd := some 10
  limitPrice := some (1 / 2)
  config := { displayedDepthFactor := 1 }
  sized := by decide +kernel
  min_nonneg := by decide +kernel
  min_le_one := by decide +kernel

def nearlyDeep : TakerOrder where
  book := ⟨[], [⟨some (1 / 4), some (9999995 / 10)⟩]⟩
  side := "BUY"
  sizeShares := some 1000000
  config := { displayedDepthFactor := 1 }
  sized := by decide +kernel
  min_nonneg := by decide +kernel
  min_le_one := by decide +kernel

/-- The first buys its twenty shares for five dollars, of a depth of twenty-five, and counts as partial; the second counts as filled. -/
theorem status_misfits : ¬ StatusFits id halfLimit (halfLimit.takerEstimate id) ∧ ¬ StatusFits id nearlyDeep (nearlyDeep.takerEstimate id) := by
  constructor
  · intro fits
    have filled := fits.1 (by decide +kernel)
    revert filled
    decide +kernel
  · intro fits
    have short := fits.2 (by decide +kernel)
    revert short
    decide +kernel

end Callisto.Optimization.Estimator
