import Callisto.Optimization.TakerStatus

/-! The profit of a pair of YES and NO shares, estimated from the average prices of two books. -/

namespace Callisto.Optimization.Estimator

open Callisto.Library (pairwise_sortedBy)
open Callisto.Library.Ladder

structure OrderBookLevel where
  price : ℚ
  size : ℚ

structure VwapBook where
  bids : List OrderBookLevel
  asks : List OrderBookLevel

def OrderBookLevel.raw (level : OrderBookLevel) : RawLevel := ⟨some level.price, some level.size⟩

def VwapBook.orderBook (book : VwapBook) : OrderBook := ⟨book.bids.map OrderBookLevel.raw, book.asks.map OrderBookLevel.raw⟩

structure VWAPResult where
  vwap : ℚ
  totalAvailable : ℚ
  slippageBps : ℚ
  levelsConsumed : ℕ
  fillProbability : ℚ

/-- `_static_vwap_config` -/
def staticVwapConfig : ExecutionEstimatorConfig :=
  { latencyMs := 0, displayedDepthFactor := 1, minDepthFactor := 1, staleDepthDecay := 0, adverseSelectionMultiplier := 0,
    makerTradeFlowMultiplier := 0 }

/-- `min_profit_threshold` -/
structure VWAPCalculator where
  minProfitThreshold : ℚ := 5 / 100

/-- `str.upper` and `str.lower` -/
structure Casing where
  upper : String → String
  lower : String → String
  upper_buy : upper "BUY" = "BUY"

variable (casing : Casing)

def vwapRequest (book : VwapBook) (sizeUsd : ℚ) : OrderRequest :=
  { book := book.orderBook, side := "BUY", sizeUsd := some sizeUsd, orderType := "market", config := staticVwapConfig }

def readEstimate (book : VwapBook) (estimate : ExecutionEstimate) : VWAPResult :=
  if estimate.filledShares = 0 then
    { vwap := (book.asks.head?.map OrderBookLevel.price).getD 0, totalAvailable := 0, slippageBps := 0, levelsConsumed := 0, fillProbability := 0 }
  else
    { vwap := estimate.averagePrice.getD 0, totalAvailable := estimate.filledNotionalUsd, slippageBps := estimate.slippageBps
      levelsConsumed := estimate.levelsConsumed, fillProbability := estimate.fillProbability }

/-- `calculate_buy_vwap`. A market order does not go to the maker's estimator. -/
def calculateBuyVwap (book : VwapBook) (sizeUsd : ℚ) : VWAPResult :=
  if sizeUsd ≤ 0 then
    { vwap := (book.asks.head?.map OrderBookLevel.price).getD 0, totalAvailable := 0, slippageBps := 0, levelsConsumed := 0, fillProbability := 1 }
  else if book.asks = [] then { vwap := 0, totalAvailable := 0, slippageBps := 0, levelsConsumed := 0, fillProbability := 0 }
  else match (vwapRequest book sizeUsd).estimateOrder casing.upper casing.lower with
    | .invalid estimate | .taker estimate => readEstimate book estimate
    | .maker => { vwap := 0, totalAvailable := 0, slippageBps := 0, levelsConsumed := 0, fillProbability := 0 }

/-- The dictionary of `estimate_arbitrage_profit`. -/
structure ArbitrageEstimate where
  yesVwap : ℚ
  noVwap : ℚ
  totalVwapCost : ℚ
  yesSlippageBps : ℚ
  noSlippageBps : ℚ
  fillProbability : ℚ
  orphanLegRiskUsd : ℚ
  maxExecutableUsd : ℚ
  recommendedSizeUsd : ℚ
  grossProfit : ℚ
  netProfit : ℚ
  expectedProfit : ℚ
  roiPercent : ℚ
  isProfitable : Bool
  yesLevelsConsumed : ℕ
  noLevelsConsumed : ℕ

/-- `estimate_arbitrage_profit` -/
def VWAPCalculator.estimateArbitrageProfit (calculator : VWAPCalculator) (yesBook noBook : VwapBook) (sizeUsd feeRate : ℚ) : ArbitrageEstimate :=
  let halfSize := sizeUsd / 2
  let yesVwap := calculateBuyVwap casing yesBook halfSize
  let noVwap := calculateBuyVwap casing noBook halfSize
  let totalVwapCost := yesVwap.vwap + noVwap.vwap
  let achievableUsd := min yesVwap.totalAvailable noVwap.totalAvailable
  let fillProbability := yesVwap.fillProbability * noVwap.fillProbability
  let profits := totalVwapCost < 1 ∧ 0 < achievableUsd
  let grossProfitPerDollar := 1 - totalVwapCost
  let netProfitPerDollar := grossProfitPerDollar - 1 * feeRate
  let positionSize := if profits then min achievableUsd sizeUsd else 0
  let netProfit := if profits then netProfitPerDollar * positionSize else 0
  { yesVwap := yesVwap.vwap
    noVwap := noVwap.vwap
    totalVwapCost := totalVwapCost
    yesSlippageBps := yesVwap.slippageBps
    noSlippageBps := noVwap.slippageBps
    fillProbability := fillProbability
    orphanLegRiskUsd := halfSize * (yesVwap.fillProbability * (1 - noVwap.fillProbability) + noVwap.fillProbability * (1 - yesVwap.fillProbability))
    maxExecutableUsd := achievableUsd
    recommendedSizeUsd := positionSize
    grossProfit := if profits then grossProfitPerDollar * positionSize else 0
    netProfit := netProfit
    expectedProfit := if profits then netProfit * fillProbability else 0
    roiPercent := if profits then netProfitPerDollar / totalVwapCost * 100 else 0
    isProfitable := decide (calculator.minProfitThreshold < netProfit ∧ 1 / 2 < fillProbability ∧ totalVwapCost < 95 / 100)
    yesLevelsConsumed := yesVwap.levelsConsumed
    noLevelsConsumed := noVwap.levelsConsumed }

structure DisplayedBook extends VwapBook where
  displayed : ∀ level ∈ bids ++ asks, 1 / 10000 ≤ level.price ∧ level.price ≤ 9999 / 10000 ∧ 0 < level.size

def VwapBook.cheapestAsks (book : VwapBook) : List (ℚ × ℚ) :=
  (book.asks.map fun level => (level.price, level.size)).mergeSort fun first second => decide (first.1 ≤ second.1)

def VwapBook.costOf (book : VwapBook) (shares : ℚ) : ℚ := cost book.cheapestAsks (sweep shares book.cheapestAsks)

def VwapBook.askDepth (book : VwapBook) : ℚ := depthOf book.cheapestAsks

/-- The estimated profit can be locked in: so many pairs can be bought for the money, and gain that much whichever side wins. -/
structure LocksIn (yesBook noBook : VwapBook) (sizeUsd feeRate : ℚ) (estimate : ArbitrageEstimate) : Prop where
  deep : 0 < estimate.recommendedSizeUsd →
    estimate.recommendedSizeUsd ≤ yesBook.askDepth ∧ estimate.recommendedSizeUsd ≤ noBook.askDepth
  affordable : 0 < estimate.recommendedSizeUsd →
    yesBook.costOf estimate.recommendedSizeUsd + noBook.costOf estimate.recommendedSizeUsd ≤ sizeUsd
  gained : 0 < estimate.recommendedSizeUsd → estimate.netProfit ≤ estimate.recommendedSizeUsd -
    (yesBook.costOf estimate.recommendedSizeUsd + noBook.costOf estimate.recommendedSizeUsd) - estimate.recommendedSizeUsd * feeRate
  below_one : estimate.totalVwapCost < 1 ∨ estimate.recommendedSizeUsd = 0 ∧ estimate.grossProfit = 0 ∧ estimate.netProfit = 0 ∧
    estimate.expectedProfit = 0

section Books

variable {casing : Casing} {book : DisplayedBook} {sizeUsd : ℚ}

theorem clampPrice_displayed {price : ℚ} (low : 1 / 10000 ≤ price) (high : price ≤ 9999 / 10000) : clampPrice price = price := by
  unfold clampPrice minPrice maxPrice
  rw [min_eq_right high, max_eq_right low]

theorem askLevels_eq (book : DisplayedBook) : book.orderBook.askLevels = book.cheapestAsks := by
  have kept : ((book.asks.map OrderBookLevel.raw).filterMap fun level =>
      if 0 < level.price.getD 0 ∧ 0 < level.size.getD 0 then some (clampPrice (level.price.getD 0), level.size.getD 0) else none) =
      book.asks.map fun level => (level.price, level.size) := by
    rw [List.filterMap_map, ← List.filterMap_eq_map]
    apply List.filterMap_congr
    intro level member
    have ⟨low, high, sized⟩ := book.displayed level (List.mem_append_right _ member)
    have priced : 0 < level.price := lt_of_lt_of_le (by norm_num) low
    show (if 0 < level.price ∧ 0 < level.size then some (clampPrice level.price, level.size) else none) = some (level.price, level.size)
    rw [if_pos ⟨priced, sized⟩, clampPrice_displayed low high]
  unfold OrderBook.askLevels levels VwapBook.cheapestAsks VwapBook.orderBook
  dsimp only
  rw [kept]
  rfl

theorem sideKey_eq (casing : Casing) (book : VwapBook) (sizeUsd : ℚ) : (vwapRequest book sizeUsd).sideKey casing.upper = .buy := by
  have spelled : Callisto.Ws.strip "BUY" = "BUY" := by decide
  unfold OrderRequest.sideKey normalizeSide vwapRequest
  dsimp only
  rw [spelled, casing.upper_buy]
  rfl

theorem mem_cheapestAsks {book : DisplayedBook} {rung : ℚ × ℚ} (member : rung ∈ book.cheapestAsks) : 0 < rung.1 ∧ rung.1 < 1 ∧ 0 < rung.2 := by
  have ⟨level, known, same⟩ := List.mem_map.1 ((List.mergeSort_perm _ _).subset member)
  have ⟨low, high, sized⟩ := book.displayed level (List.mem_append_right _ known)
  rw [← same]
  exact ⟨lt_of_lt_of_le (by norm_num) low, lt_of_le_of_lt high (by norm_num), sized⟩

theorem rungs_eq (casing : Casing) (book : DisplayedBook) (sizeUsd : ℚ) :
    (vwapRequest book.toVwapBook sizeUsd).rungs casing.upper = book.cheapestAsks := by
  have factor : bookDepthFactor none staticVwapConfig = 1 := by decide +kernel
  have inside : ∀ level ∈ book.cheapestAsks, (decide (¬ Beyond .buy none level.1)) = true := fun _ _ => decide_eq_true (fun beyond => nomatch beyond)
  have whole : book.cheapestAsks.map (fun level => (level.1, max 0 (level.2 * 1))) = book.cheapestAsks := by
    apply (List.map_congr_left _).trans (List.map_id _)
    intro level member
    rw [mul_one, max_eq_right (mem_cheapestAsks member).2.2.le]
    rfl
  unfold OrderRequest.rungs
  rw [sideKey_eq]
  show rungsOf .buy none (bookDepthFactor none staticVwapConfig) book.orderBook.askLevels = _
  rw [factor, askLevels_eq]
  unfold rungsOf
  rw [List.filter_eq_self.2 inside, whole]

def vwapOrder (book : VwapBook) {sizeUsd : ℚ} (positive : 0 < sizeUsd) : TakerOrder where
  toOrderRequest := vwapRequest book sizeUsd
  sized := Or.inl positive
  min_nonneg := zero_le_one' ℚ
  min_le_one := le_refl (1 : ℚ)

/-- The average price of a book, where something is available: that of the cheapest shares for the money. -/
structure Averages (book : VwapBook) (sizeUsd filled : ℚ) (result : VWAPResult) : Prop where
  filled_pos : 0 < filled
  available : filled ≤ book.askDepth
  paid : result.totalAvailable = book.costOf filled
  within : book.costOf filled ≤ sizeUsd
  average : result.vwap = book.costOf filled / filled

theorem calculateBuyVwap_averages (some_available : 0 < (calculateBuyVwap casing book.toVwapBook sizeUsd).totalAvailable) :
    ∃ filled, Averages book.toVwapBook sizeUsd filled (calculateBuyVwap casing book.toVwapBook sizeUsd) := by
  unfold calculateBuyVwap at some_available ⊢
  by_cases unfunded : sizeUsd ≤ 0
  · rw [if_pos unfunded] at some_available
    exact absurd some_available (lt_irrefl 0)
  · rw [if_neg unfunded] at some_available ⊢
    by_cases empty : book.asks = []
    · rw [if_pos empty] at some_available
      exact absurd some_available (lt_irrefl 0)
    · rw [if_neg empty] at some_available ⊢
      have positive := not_le.1 unfunded
      have side := sideKey_eq casing book.toVwapBook sizeUsd
      have nonempty : book.cheapestAsks ≠ [] := by
        intro sorted
        have perm := List.mergeSort_perm (book.asks.map fun level => (level.price, level.size)) fun first second => decide (first.1 ≤ second.1)
        have gone : book.asks.map (fun level => (level.price, level.size)) = [] := List.nil_perm.1 (sorted ▸ perm)
        exact empty (List.map_eq_nil_iff.1 gone)
      have ⟨best, others, displayed⟩ := List.exists_cons_of_ne_nil nonempty
      have opposite : (vwapRequest book.toVwapBook sizeUsd).book.opposite ((vwapRequest book.toVwapBook sizeUsd).sideKey casing.upper) =
          best :: others := by
        rw [side]
        exact (askLevels_eq book).trans displayed
      have shares : 0 < (vwapRequest book.toVwapBook sizeUsd).shares casing.upper :=
        @shares_pos casing.upper (vwapOrder book.toVwapBook positive) _ _ opposite
      have reference := reference_pos opposite
      have routed : (vwapRequest book.toVwapBook sizeUsd).estimateOrder casing.upper casing.lower =
          .taker ((vwapRequest book.toVwapBook sizeUsd).takerEstimate casing.upper) := by
        unfold OrderRequest.estimateOrder
        dsimp only
        rw [if_neg (not_or.2 ⟨not_le.2 shares, not_le.2 reference⟩)]
        exact if_pos (Or.inl rfl)
      rw [routed] at some_available ⊢
      have ⟨_, fills, notional, average, _⟩ := takerEstimate_fills casing.upper (vwapOrder book.toVwapBook positive)
      have within := (takerEstimate_sound casing.upper (vwapOrder book.toVwapBook positive)).within_budget side positive
      have rungs := rungs_eq casing book sizeUsd
      change Fills ((vwapRequest book.toVwapBook sizeUsd).rungs casing.upper) _ _
        ((vwapRequest book.toVwapBook sizeUsd).takerEstimate casing.upper).filledShares at fills
      change ((vwapRequest book.toVwapBook sizeUsd).takerEstimate casing.upper).filledNotionalUsd =
        cost ((vwapRequest book.toVwapBook sizeUsd).rungs casing.upper)
          (sweep ((vwapRequest book.toVwapBook sizeUsd).takerEstimate casing.upper).filledShares
            ((vwapRequest book.toVwapBook sizeUsd).rungs casing.upper))
        at notional
      rw [rungs] at fills notional
      have nonzero : ((vwapRequest book.toVwapBook sizeUsd).takerEstimate casing.upper).filledShares ≠ 0 := by
        intro zero
        unfold readEstimate at some_available
        dsimp only at some_available
        rw [if_pos zero] at some_available
        exact absurd some_available (lt_irrefl 0)
      have filled := lt_of_le_of_ne fills.nonneg nonzero.symm
      change ((vwapRequest book.toVwapBook sizeUsd).takerEstimate casing.upper).averagePrice = if
        ((vwapRequest book.toVwapBook sizeUsd).takerEstimate casing.upper).filledShares ≤ 0 then none else
          some (((vwapRequest book.toVwapBook sizeUsd).takerEstimate casing.upper).filledNotionalUsd /
            ((vwapRequest book.toVwapBook sizeUsd).takerEstimate casing.upper).filledShares) at average
      rw [if_neg (not_le.2 filled)] at average
      have read : readEstimate book.toVwapBook ((vwapRequest book.toVwapBook sizeUsd).takerEstimate casing.upper) = _ := if_neg nonzero
      dsimp only
      rw [read]
      exact ⟨_, filled, fills.available, notional, notional.ge.trans within, by rw [average, notional]; rfl⟩

theorem costOf_le {filled shares : ℚ} {result : VWAPResult} (averages : Averages book.toVwapBook sizeUsd filled result) (nonneg : 0 ≤ shares)
    (fewer : shares ≤ filled) : book.costOf shares ≤ result.vwap * shares := by
  have sorted := pairwise_sortedBy Prod.fst (book.asks.map fun level => (level.price, level.size))
  have cheaper := cost_sweep_average nonneg fewer averages.filled_pos (fun rung member => (mem_cheapestAsks member).2.2.le)
    sorted averages.available
  calc book.costOf shares ≤ shares / filled * book.costOf filled := cheaper
    _ = result.vwap * shares := by
      rw [averages.average]
      ring

theorem vwap_pos {filled : ℚ} {result : VWAPResult} (averages : Averages book.toVwapBook sizeUsd filled result)
    (some_available : 0 < result.totalAvailable) : 0 < result.vwap := by
  rw [averages.average, ← averages.paid]
  exact div_pos some_available averages.filled_pos

theorem totalAvailable_le {filled : ℚ} {result : VWAPResult} (averages : Averages book.toVwapBook sizeUsd filled result)
    (below : result.vwap ≤ 1) : result.totalAvailable ≤ filled := by
  have paid : result.totalAvailable = result.vwap * filled := by
    rw [averages.paid, averages.average, div_mul_cancel₀ _ averages.filled_pos.ne']
  rw [paid]
  exact mul_le_of_le_one_left averages.filled_pos.le below

end Books

/-- Every estimated profit can be locked in. -/
theorem arbitrageProfit_locksIn (casing : Casing) (calculator : VWAPCalculator) (yesBook noBook : DisplayedBook) (sizeUsd feeRate : ℚ) :
    LocksIn yesBook.toVwapBook noBook.toVwapBook sizeUsd feeRate
      (calculator.estimateArbitrageProfit casing yesBook.toVwapBook noBook.toVwapBook sizeUsd feeRate) := by
  unfold VWAPCalculator.estimateArbitrageProfit
  dsimp only
  generalize yes_eq : calculateBuyVwap casing yesBook.toVwapBook (sizeUsd / 2) = yes
  generalize no_eq : calculateBuyVwap casing noBook.toVwapBook (sizeUsd / 2) = no
  by_cases profits : yes.vwap + no.vwap < 1 ∧ 0 < min yes.totalAvailable no.totalAvailable
  · have ⟨below, achievable⟩ := profits
    have ⟨yes_available, no_available⟩ := lt_min_iff.1 achievable
    have ⟨yes_filled, yes_averages⟩ := calculateBuyVwap_averages (yes_eq ▸ yes_available)
    have ⟨no_filled, no_averages⟩ := calculateBuyVwap_averages (no_eq ▸ no_available)
    rw [yes_eq] at yes_averages
    rw [no_eq] at no_averages
    have yes_pos := vwap_pos yes_averages yes_available
    have no_pos := vwap_pos no_averages no_available
    have yes_shares := totalAvailable_le yes_averages (by linarith)
    have no_shares := totalAvailable_le no_averages (by linarith)
    simp only [if_pos profits]
    generalize size_eq : min (min yes.totalAvailable no.totalAvailable) sizeUsd = size
    have in_yes : size ≤ yes_filled := size_eq ▸ (min_le_left _ _).trans ((min_le_left _ _).trans yes_shares)
    have in_no : size ≤ no_filled := size_eq ▸ (min_le_left _ _).trans ((min_le_right _ _).trans no_shares)
    have in_usd : size ≤ sizeUsd := size_eq ▸ min_le_right _ _
    refine ⟨?_, ?_, ?_, Or.inl below⟩
    · exact fun _ => ⟨in_yes.trans yes_averages.available, in_no.trans no_averages.available⟩
    · intro positive
      have yes_cost := costOf_le yes_averages positive.le in_yes
      have no_cost := costOf_le no_averages positive.le in_no
      calc _ ≤ (yes.vwap + no.vwap) * size := by linarith
        _ ≤ size := mul_le_of_le_one_left positive.le below.le
        _ ≤ sizeUsd := in_usd
    · intro positive
      have yes_cost := costOf_le yes_averages positive.le in_yes
      have no_cost := costOf_le no_averages positive.le in_no
      dsimp only
      linarith
  · simp only [if_neg profits]
    exact ⟨fun positive => absurd positive (lt_irrefl 0), fun positive => absurd positive (lt_irrefl 0),
      fun positive => absurd positive (lt_irrefl 0), Or.inr ⟨rfl, rfl, rfl, rfl⟩⟩

theorem toUpper_buy : "BUY".toUpper = "BUY" := by decide +kernel

def asciiCasing : Casing := ⟨String.toUpper, String.toLower, toUpper_buy⟩

def askBook (price size : ℚ) (displayed : 1 / 10000 ≤ price ∧ price ≤ 9999 / 10000 ∧ 0 < size) : DisplayedBook where
  bids := []
  asks := [⟨price, size⟩]
  displayed level member := by
    rw [List.mem_singleton.1 member]
    exact displayed

def yesAtForty : DisplayedBook := askBook (2 / 5) 1000 (by norm_num)

def noAtFifty : DisplayedBook := askBook (1 / 2) 1000 (by norm_num)

theorem arbitrageProfit_locksIn_tenCents :
    0 < (VWAPCalculator.estimateArbitrageProfit asciiCasing {} yesAtForty.toVwapBook noAtFifty.toVwapBook 100 (1 / 50)).recommendedSizeUsd ∧
      LocksIn yesAtForty.toVwapBook noAtFifty.toVwapBook 100 (1 / 50)
        (VWAPCalculator.estimateArbitrageProfit asciiCasing {} yesAtForty.toVwapBook noAtFifty.toVwapBook 100 (1 / 50)) :=
  ⟨by decide +kernel, arbitrageProfit_locksIn asciiCasing {} yesAtForty noAtFifty 100 (1 / 50)⟩

end Callisto.Optimization.Estimator
