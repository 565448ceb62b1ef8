import Mathlib.Algebra.Order.Field.Rat
import Mathlib.Data.Rat.Cast.Order
import Callisto.Ws.Payload

/-! What a taker order would execute at against the displayed book. -/

namespace Callisto.Optimization.Estimator

open Callisto.Ws (strip)

/-- `_MIN_PRICE` -/
def minPrice : ℚ := 1 / 10000

/-- `_MAX_PRICE` -/
def maxPrice : ℚ := 9999 / 10000

def clampPrice (price : ℚ) : ℚ := max minPrice (min maxPrice price)

structure ExecutionEstimatorConfig where
  feeBps : ℚ := 0
  latencyMs : ℚ := 350
  timeInForceSeconds : ℚ := 6
  displayedDepthFactor : ℚ := 88 / 100
  minDepthFactor : ℚ := 20 / 100
  maxBookAgeMs : ℚ := 10000
  staleDepthDecay : ℚ := 55 / 100
  makerQueueAheadFraction : ℚ := 65 / 100
  makerTradeFlowMultiplier : ℚ := 120 / 100
  adverseSelectionMultiplier : ℚ := 70 / 100
  recentTradeLookbackSeconds : ℚ := 30

structure RawLevel where
  price : Option ℚ
  size : Option ℚ

structure OrderBook where
  bids : List RawLevel
  asks : List RawLevel

structure RecentTrade where
  timestamp : Option ℚ
  price : Option ℚ
  size : Option ℚ
  side : String

inductive Side where
  | buy
  | sell
  deriving DecidableEq

structure ExecutionEstimate where
  side : Side
  orderType : String
  status : String
  reason : String
  requestedShares : ℚ
  filledShares : ℚ
  remainingShares : ℚ
  requestedNotionalUsd : ℚ
  filledNotionalUsd : ℚ
  averagePrice : Option ℚ
  economicPrice : Option ℚ
  limitPrice : Option ℚ
  feesUsd : ℚ
  slippageBps : ℚ
  priceImpactBps : ℚ
  adverseSelectionBps : ℚ
  adverseSelectionCostUsd : ℚ
  latencyMs : ℚ
  fillProbability : ℚ
  queueAheadShares : ℚ
  levelsConsumed : ℕ
  bookDepthFactor : ℚ

/-- `_normalize_side`, under the `str.upper` given -/
def normalizeSide (upper : String → String) (side : String) : Side := if upper (strip side) = "SELL" then .sell else .buy

/-- `_normalize_price` -/
def normalizePrice : Option ℚ → Option ℚ
  | none => none
  | some parsed => if parsed ≤ 0 ∨ 1 < parsed then none else some (clampPrice parsed)

def levels (raw : List RawLevel) (reverse : Bool) : List (ℚ × ℚ) :=
  (raw.filterMap fun level =>
    let price := level.price.getD 0
    let size := level.size.getD 0
    if 0 < price ∧ 0 < size then some (clampPrice price, size) else none).mergeSort fun first second =>
      if reverse then decide (second.1 ≤ first.1) else decide (first.1 ≤ second.1)

namespace OrderBook

variable (book : OrderBook)

def askLevels : List (ℚ × ℚ) := levels book.asks false

def bidLevels : List (ℚ × ℚ) := levels book.bids true

def bestAsk : ℚ := (book.askLevels.head?.map Prod.fst).getD 0

def bestBid : ℚ := (book.bidLevels.head?.map Prod.fst).getD 0

/-- `_mid_price` -/
def midPrice : ℚ :=
  if 0 < book.bestBid ∧ 0 < book.bestAsk then (book.bestBid + book.bestAsk) / 2
  else if book.bestBid ≠ 0 then book.bestBid
  else book.bestAsk

def opposite : Side → List (ℚ × ℚ)
  | .buy => book.askLevels
  | .sell => book.bidLevels

end OrderBook

/-- `_reference_price` -/
def referencePrice (side : Side) (limitPrice : Option ℚ) (bestBid bestAsk mid : ℚ) : ℚ :=
  match limitPrice.filter fun limit => 0 < limit with
  | some limit => limit
  | none => if side = .buy ∧ 0 < bestAsk then bestAsk else if side = .sell ∧ 0 < bestBid then bestBid else mid

/-- `_requested_shares` -/
def requestedShares (sizeUsd sizeShares : Option ℚ) (reference : ℚ) : ℚ :=
  if 0 < sizeShares.getD 0 then sizeShares.getD 0
  else if sizeUsd.getD 0 ≤ 0 ∨ reference ≤ 0 then 0
  else sizeUsd.getD 0 / reference

/-- `_is_marketable` -/
def isMarketable (side : Side) (limitPrice : Option ℚ) (bestBid bestAsk : ℚ) : Bool :=
  match limitPrice, side with
  | none, _ => true
  | some limit, .buy => decide (0 < bestAsk ∧ bestAsk ≤ limit)
  | some limit, .sell => decide (0 < bestBid ∧ limit ≤ bestBid)

/-- `_book_depth_factor` -/
def bookDepthFactor (bookAgeMs : Option ℚ) (config : ExecutionEstimatorConfig) : ℚ :=
  let base := max 0 (min 1 config.displayedDepthFactor)
  match bookAgeMs with
  | none => max config.minDepthFactor base
  | some age =>
    if config.maxBookAgeMs ≤ 0 ∨ config.staleDepthDecay ≤ 0 then max config.minDepthFactor base
    else
      let ageRatio := max 0 age / config.maxBookAgeMs
      let staleMultiplier := max config.minDepthFactor (1 - min 1 ageRatio * config.staleDepthDecay)
      max config.minDepthFactor (min 1 (base * staleMultiplier))

/-- What `_trade_stats` counts. -/
structure TradeStats where
  buyShares : ℚ := 0
  sellShares : ℚ := 0
  buyNotional : ℚ := 0
  sellNotional : ℚ := 0
  count : ℚ := 0

/-- `_trade_stats`, as far as an estimate of a taker order reads it -/
def tradeStats (upper : String → String) (recentTrades : List RecentTrade) (lookbackSeconds : ℚ) : TradeStats :=
  let latest := (recentTrades.map fun trade => trade.timestamp.getD 0).max?.getD 0
  recentTrades.foldl (fun stats trade =>
    let ts := trade.timestamp.getD 0
    let price := trade.price.getD 0
    let size := trade.size.getD 0
    if 0 < latest ∧ ts ≠ 0 ∧ ts < latest - max 1 lookbackSeconds then stats
    else if price ≤ 0 ∨ size ≤ 0 then stats
    else if upper (strip trade.side) = "SELL" then
      { stats with sellShares := stats.sellShares + size, sellNotional := stats.sellNotional + size * price, count := stats.count + 1 }
    else { stats with buyShares := stats.buyShares + size, buyNotional := stats.buyNotional + size * price, count := stats.count + 1 }) {}

def TradeStats.imbalance (stats : TradeStats) : ℚ :=
  if 0 < stats.buyNotional + stats.sellNotional then (stats.buyNotional - stats.sellNotional) / (stats.buyNotional + stats.sellNotional) else 0

/-- `_spread_bps` -/
def OrderBook.spreadBps (book : OrderBook) : ℚ :=
  if book.bestBid ≤ 0 ∨ book.bestAsk ≤ 0 then 0
  else max 0 ((book.bestAsk - book.bestBid) / ((book.bestBid + book.bestAsk) / 2) * 10000)

/-- `_adverse_selection_bps` of a taker order -/
def adverseSelectionBps (upper : String → String) (side : Side) (book : OrderBook) (recentTrades : List RecentTrade)
    (config : ExecutionEstimatorConfig) : ℚ :=
  let stats := tradeStats upper recentTrades config.recentTradeLookbackSeconds
  let pressure := if side = .buy then stats.imbalance else -stats.imbalance
  let tradeCountComponent := min 1 (stats.count / 20)
  max 0 (max 0 pressure * max 10 book.spreadBps * config.adverseSelectionMultiplier * (65 / 100 + 35 / 100 * tradeCountComponent))

/-- `_slippage_bps` -/
def slippageBps (side : Side) (averagePrice reference : ℚ) : ℚ :=
  if reference ≤ 0 ∨ averagePrice ≤ 0 then 0
  else if side = .buy then (averagePrice - reference) / reference * 10000
  else (reference - averagePrice) / reference * 10000

/-- `_apply_adverse_price` -/
def applyAdversePrice (side : Side) (averagePrice adverseBps : ℚ) : ℚ :=
  let adjustment := averagePrice * max 0 adverseBps / 10000
  if side = .buy then clampPrice (averagePrice + adjustment) else clampPrice (averagePrice - adjustment)

/-- `_empty_estimate` -/
def emptyEstimate (side : Side) (orderType reason : String) (requestedShares requestedNotionalUsd : ℚ) (limitPrice : Option ℚ)
    (latencyMs depthFactor : ℚ) : ExecutionEstimate :=
  { side := side, orderType := orderType, status := "unfilled", reason := reason, requestedShares := requestedShares, filledShares := 0,
    remainingShares := requestedShares, requestedNotionalUsd := requestedNotionalUsd, filledNotionalUsd := 0, averagePrice := none,
    economicPrice := none, limitPrice := limitPrice, feesUsd := 0, slippageBps := 0, priceImpactBps := 0, adverseSelectionBps := 0,
    adverseSelectionCostUsd := 0, latencyMs := latencyMs, fillProbability := 0, queueAheadShares := 0, levelsConsumed := 0,
    bookDepthFactor := depthFactor }

structure Walk where
  remaining : ℚ
  remainingBudget : Option ℚ
  filled : ℚ := 0
  notional : ℚ := 0
  levelsConsumed : ℕ := 0

def Beyond (side : Side) (worstPrice : Option ℚ) (price : ℚ) : Prop :=
  ∃ worst ∈ worstPrice, match side with
    | .buy => worst < price
    | .sell => price < worst

instance (side : Side) (worstPrice : Option ℚ) (price : ℚ) : Decidable (Beyond side worstPrice price) :=
  match worstPrice, side with
  | none, _ => isFalse nofun
  | some worst, .buy => decidable_of_iff (worst < price) ⟨fun beyond => ⟨worst, rfl, beyond⟩, fun ⟨_, same, beyond⟩ => Option.some.inj same ▸ beyond⟩
  | some worst, .sell => decidable_of_iff (price < worst) ⟨fun beyond => ⟨worst, rfl, beyond⟩, fun ⟨_, same, beyond⟩ => Option.some.inj same ▸ beyond⟩

namespace Walk

def Spent (walk : Walk) : Prop := ∃ budget ∈ walk.remainingBudget, budget ≤ 0

instance (walk : Walk) : Decidable walk.Spent := inferInstanceAs (Decidable (∃ budget ∈ walk.remainingBudget, budget ≤ 0))

def takes (walk : Walk) (price executable : ℚ) : ℚ :=
  match walk.remainingBudget with
  | some budget => min (min walk.remaining executable) (budget / price)
  | none => min walk.remaining executable

def advance (walk : Walk) (price take : ℚ) : Walk where
  remaining := walk.remaining - take
  remainingBudget := walk.remainingBudget.map fun budget => budget - take * price
  filled := walk.filled + take
  notional := walk.notional + take * price
  levelsConsumed := walk.levelsConsumed + 1

def along (side : Side) (worstPrice : Option ℚ) (depthFactor : ℚ) (walk : Walk) : List (ℚ × ℚ) → Walk
  | [] => walk
  | (price, displayedSize) :: rest =>
    let executable := max 0 (displayedSize * depthFactor)
    if Beyond side worstPrice price then walk
    else if executable ≤ 0 then walk.along side worstPrice depthFactor rest
    else if walk.Spent then walk
    else
      let take := walk.takes price executable
      if take ≤ 0 then walk
      else
        let next := walk.advance price take
        if next.remaining ≤ 0 ∨ next.Spent then next else next.along side worstPrice depthFactor rest

end Walk

/-- `_estimate_taker` -/
def estimateTaker (upper : String → String) (book : OrderBook) (side : Side) (requested requestedNotional : ℚ) (spendBudgetUsd : Option ℚ)
    (limitPrice : Option ℚ) (recentTrades : List RecentTrade) (bookAgeMs : Option ℚ) (config : ExecutionEstimatorConfig) : ExecutionEstimate :=
  match book.opposite side with
  | [] => emptyEstimate side "taker" "empty_opposite_book" requested requestedNotional limitPrice config.latencyMs 0
  | best :: others =>
    let depthFactor := bookDepthFactor bookAgeMs config
    let start : Walk := { remaining := requested, remainingBudget := if side = .buy then spendBudgetUsd else none }
    let walked := start.along side limitPrice depthFactor (best :: others)
    if walked.filled ≤ 0 then
      emptyEstimate side "taker" "limit_price_not_executable" requested requestedNotional limitPrice config.latencyMs depthFactor
    else
      let averagePrice := walked.notional / walked.filled
      let mid := if book.midPrice ≠ 0 then book.midPrice else averagePrice
      let adverseBps := adverseSelectionBps upper side book recentTrades config
      let fillRatio := match spendBudgetUsd.filter fun budget => 0 < budget with
        | some budget => walked.notional / budget
        | none => if 0 < requested then walked.filled / requested else 0
      let status := if 999999 / 1000000 ≤ fillRatio then "filled" else "partial"
      { side := side
        orderType := "taker"
        status := status
        reason := if status = "filled" then "opposite_book_consumed" else "insufficient_executable_depth"
        requestedShares := requested
        filledShares := walked.filled
        remainingShares := max 0 (requested - walked.filled)
        requestedNotionalUsd := requestedNotional
        filledNotionalUsd := walked.notional
        averagePrice := some averagePrice
        economicPrice := some (applyAdversePrice side averagePrice adverseBps)
        limitPrice := limitPrice
        feesUsd := walked.notional * max 0 config.feeBps / 10000
        slippageBps := slippageBps side averagePrice mid
        priceImpactBps := slippageBps side averagePrice best.1
        adverseSelectionBps := adverseBps
        adverseSelectionCostUsd := walked.filled * averagePrice * adverseBps / 10000
        latencyMs := config.latencyMs
        fillProbability := min 1 (max 0 fillRatio)
        queueAheadShares := 0
        levelsConsumed := walked.levelsConsumed
        bookDepthFactor := depthFactor }

/-- The arguments of `estimate_order`. -/
structure OrderRequest where
  book : OrderBook
  side : String
  sizeUsd : Option ℚ := none
  sizeShares : Option ℚ := none
  limitPrice : Option ℚ := none
  orderType : String := "limit"
  recentTrades : List RecentTrade := []
  bookAgeMs : Option ℚ := none
  config : ExecutionEstimatorConfig := {}

inductive Route where
  | invalid (estimate : ExecutionEstimate)
  | taker (estimate : ExecutionEstimate)
  | maker

namespace OrderRequest

variable (upper lower : String → String) (request : OrderRequest)

def sideKey : Side := normalizeSide upper request.side

def limit : Option ℚ := normalizePrice request.limitPrice

def reference : ℚ :=
  referencePrice (request.sideKey upper) request.limit request.book.bestBid request.book.bestAsk request.book.midPrice

def shares : ℚ := requestedShares request.sizeUsd request.sizeShares (request.reference upper)

def notional : ℚ :=
  if 0 < request.sizeUsd.getD 0 then request.sizeUsd.getD 0
  else if 0 < request.reference upper then request.shares upper * request.reference upper
  else 0

def takerEstimate : ExecutionEstimate :=
  estimateTaker upper request.book (request.sideKey upper) (request.shares upper) (request.notional upper)
    (if 0 < request.sizeUsd.getD 0 then some (request.sizeUsd.getD 0) else none) request.limit request.recentTrades request.bookAgeMs
    request.config

/-- `estimate_order` -/
def estimateOrder : Route :=
  let orderType := lower (strip (if request.orderType = "" then "limit" else request.orderType))
  if request.shares upper ≤ 0 ∨ request.reference upper ≤ 0 then
    .invalid (emptyEstimate (request.sideKey upper) orderType "invalid_size_or_price" (max 0 (request.shares upper))
      (max 0 (request.notional upper)) request.limit request.config.latencyMs 0)
  else if isMarketable (request.sideKey upper) request.limit request.book.bestBid request.book.bestAsk = true ∨
      orderType ∈ ["market", "taker", "taker_limit"] then .taker (request.takerEstimate upper)
  else .maker

end OrderRequest

end Callisto.Optimization.Estimator
