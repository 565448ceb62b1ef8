import Callisto.Library.Decimals
import Callisto.Library.Dict
import Callisto.Library.Runs

/-! The capture of book deltas: trade prints are noted per token, and the levels that shrink from one accepted book to the next are put
down to prints and to cancels. Capture is on and the queues have room. -/

namespace Callisto.MarketData.Capture

open Callisto.Library
open Callisto.Library.Decimals (roundTo)

inductive TradeSide where
  | buy
  | sell
  deriving DecidableEq

/-- A print with what is left of it; `print` is its number in the tape of the token, which the code does not keep. -/
structure RecentTrade where
  print : ℕ
  price : ℚ
  size : ℚ
  side : TradeSide
  timestamp : ℚ
  deriving DecidableEq

inductive DeltaType where
  | trade
  | cancel
  deriving DecidableEq

inductive BookSide where
  | bid
  | ask
  deriving DecidableEq

/-- A delta row; `takings` are the prints that it was taken from, with the size from each. -/
structure BookDeltaRow where
  observedAt : ℚ
  eventType : DeltaType
  side : BookSide
  price : ℚ
  tradeSize : Option ℚ
  cancelSize : Option ℚ
  queueDepthBefore : ℚ
  queueDepthAfter : ℚ
  spreadBpsAtEvent : Option ℚ
  delta : ℚ
  takings : List (ℕ × ℚ)
  deriving DecidableEq

inductive SnapshotRow where
  | trade (observedAt price size : ℚ) (side : TradeSide)
  | book (observedAt : ℚ) (exchangeTsMs : ℤ) (sequence : Option ℤ) (bestBid bestAsk spreadBps : Option ℚ) (bids asks : List (ℚ × ℚ))
  deriving DecidableEq

structure TokenState where
  bids : Dict ℚ ℚ := Dict.empty
  asks : Dict ℚ ℚ := Dict.empty
  lastObservedAt : ℚ := 0
  spreadBps : Option ℚ := none
  lastSequence : Option ℤ := none
  lastSnapshotWrite : ℚ := 0
  recentTrades : List RecentTrade := []
  /-- All prints that were noted, as they came. -/
  tape : List RecentTrade := []
  deltas : List BookDeltaRow := []
  snapshots : List SnapshotRow := []

/-- A call of `record_trade` with its numbers coerced, and the clock. -/
structure TradeCall where
  price : ℚ
  size : ℚ
  side : String
  venueTs : ℚ
  now : ℚ

/-- A call of `record_book` with its numbers coerced, the depth that is kept of the sides, and the clock at its first and second reading. -/
structure BookCall where
  rawBids : List (ℚ × ℚ)
  rawAsks : List (ℚ × ℚ)
  depthLevels : ℕ
  bestBid : ℚ
  bestAsk : ℚ
  exchangeTs : Option ℚ
  ingestTs : ℚ
  sequence : Option ℤ
  snapshotThrottleSeconds : ℚ
  now : ℚ
  wall : ℚ

inductive Call where
  | trade (call : TradeCall)
  | book (call : BookCall)

def tradeBufferPerToken : ℕ := 64

def tradeMatchWindowSeconds : ℚ := 6 / 10

def minDeltaSize : ℚ := 1 / 2

def staleSecondsThreshold : ℚ := 30

def clockSkewToleranceSeconds : ℚ := 5

def capped (trades : List RecentTrade) : List RecentTrade := trades.drop (trades.length - tradeBufferPerToken)

def sideOf (upper : String → String) (text : String) : TradeSide := if upper text = "SELL" then .sell else .buy

/-- `record_trade`; `upper` is strip and upper. -/
def recordTrade (upper : String → String) (state : TokenState) (call : TradeCall) : TokenState :=
  if call.price ≤ 0 ∨ call.size ≤ 0 then state
  else
    let trade : RecentTrade := ⟨state.tape.length, call.price, call.size, sideOf upper call.side, call.now⟩
    { state with
      recentTrades := capped (state.recentTrades ++ [trade])
      tape := state.tape ++ [trade]
      snapshots := state.snapshots ++ [.trade (if 0 < call.venueTs then call.venueTs else call.now) call.price call.size trade.side] }

/-- `_levels_to_map` -/
def levelsToMap (depthLevels : ℕ) (raw : List (ℚ × ℚ)) : Dict ℚ ℚ :=
  (raw.take depthLevels).foldl (fun result level => if 0 < level.1 ∧ 0 < level.2 then result.set (roundTo 4 level.1) level.2 else result) Dict.empty

structure Consumption where
  consumed : ℚ
  takings : List (ℕ × ℚ)
  trades : List RecentTrade

/-- The loop of `_consume_trades_at`, with what is consumed so far: a print that is used up is dropped. -/
def consumeFrom (price maxSize : ℚ) : List RecentTrade → ℚ → Consumption
  | [], consumed => ⟨consumed, [], []⟩
  | trade :: trades, consumed =>
    if consumed < maxSize then
      if |trade.price - price| < 1 / 10000 then
        let take := min trade.size (maxSize - consumed)
        let rest := consumeFrom price maxSize trades (consumed + take)
        { rest with
          takings := (trade.print, take) :: rest.takings
          trades := if trade.size ≤ take then rest.trades else { trade with size := trade.size - take } :: rest.trades }
      else
        let rest := consumeFrom price maxSize trades consumed
        { rest with trades := trade :: rest.trades }
    else ⟨consumed, [], trade :: trades⟩

def consumeTradesAt (trades : List RecentTrade) (price maxSize : ℚ) : Consumption := consumeFrom price maxSize trades 0

/-- The rows of one level: the part that prints account for, and the rest. -/
def levelRows (observedTs : ℚ) (spreadBps : Option ℚ) (side : BookSide) (price prevSize newSize : ℚ)
    (consumption : Consumption) : List BookDeltaRow :=
  let delta := prevSize - newSize
  let cancelPart := max 0 (delta - consumption.consumed)
  (if 0 < consumption.consumed then
    [{ observedAt := observedTs, eventType := .trade, side := side, price := price, tradeSize := some consumption.consumed, cancelSize := none,
       queueDepthBefore := prevSize, queueDepthAfter := newSize, spreadBpsAtEvent := spreadBps,
         delta := delta, takings := consumption.takings }] else []) ++
  (if 0 < cancelPart then
    [{ observedAt := observedTs, eventType := .cancel, side := side, price := price, tradeSize := none, cancelSize := some cancelPart,
       queueDepthBefore := prevSize, queueDepthAfter := newSize, spreadBpsAtEvent := spreadBps, delta := delta, takings := [] }] else [])

/-- `_diff_and_emit`, with the buffer that it leaves. -/
def diffAndEmit (observedTs : ℚ) (spreadBps : Option ℚ) (side : BookSide) (newLevels : Dict ℚ ℚ) :
    List (ℚ × ℚ) → List RecentTrade → List BookDeltaRow × List RecentTrade
  | [], trades => ([], trades)
  | (price, prevSize) :: levels, trades =>
    let newSize := (newLevels.get? price).getD 0
    if prevSize - newSize < minDeltaSize then diffAndEmit observedTs spreadBps side newLevels levels trades
    else
      let consumption := consumeTradesAt trades price (prevSize - newSize)
      let rest := diffAndEmit observedTs spreadBps side newLevels levels consumption.trades
      (levelRows observedTs spreadBps side price prevSize newSize consumption ++ rest.1, rest.2)

namespace BookCall
variable (call : BookCall)

def ingest : ℚ := if call.ingestTs ≤ 0 then call.now else call.ingestTs

def newBids : Dict ℚ ℚ := levelsToMap call.depthLevels call.rawBids

def newAsks : Dict ℚ ℚ := levelsToMap call.depthLevels call.rawAsks

def newLevels (side : BookSide) : Dict ℚ ℚ :=
  match side with
  | .bid => call.newBids
  | .ask => call.newAsks

def mid : ℚ :=
  if 0 < call.bestBid ∧ 0 < call.bestAsk then (call.bestBid + call.bestAsk) / 2
  else if call.bestBid ≠ 0 then call.bestBid else call.bestAsk

def spreadBps : Option ℚ :=
  if 0 < call.bestBid ∧ 0 < call.bestAsk ∧ 0 < call.mid then some ((call.bestAsk - call.bestBid) / call.mid * 10000) else none

def outOfBounds (levels : Dict ℚ ℚ) : Bool := levels.entries.any fun level => decide (level.1 < 0 ∨ 1 < level.1)

/-- `_validate_book`: the reason to reject, or the sequence to go on with. -/
def validate (lastSequence : Option ℤ) : Except String (Option ℤ) :=
  if outOfBounds call.newBids = true ∨ outOfBounds call.newAsks = true ∨ 1 < call.bestBid ∨ 1 < call.bestAsk ∨
      call.bestBid < 0 ∨ call.bestAsk < 0 then
    .error "price_out_of_bounds"
  else if 0 < call.bestBid ∧ 0 < call.bestAsk ∧ call.bestAsk ≤ call.bestBid then .error "crossed_book"
  else if staleSecondsThreshold < call.wall - call.ingest then .error "stale_snapshot"
  else if call.wall - call.ingest < -clockSkewToleranceSeconds then .error "clock_skew"
  else match call.sequence.filter fun sequence => 0 < sequence with
  | none => .ok lastSequence
  | some sequence => if ∃ last ∈ lastSequence, sequence < last then .error "sequence_regression" else .ok (some sequence)

def nonzero (value : ℚ) : Option ℚ := if value = 0 then none else some value

def snapshot : SnapshotRow :=
  .book call.ingest (⌊((call.exchangeTs.bind nonzero).getD call.ingest) * 1000⌋)
    (call.sequence.filter fun sequence => sequence ≠ 0) (nonzero call.bestBid) (nonzero call.bestAsk)
    call.spreadBps (call.newBids.entries.mergeSort fun first second => decide (second.1 ≤ first.1))
    (call.newAsks.entries.mergeSort fun first second => decide (first.1 ≤ second.1))

/-- The rows and the buffer after both sides; nothing is compared with a book that was not there. -/
def deltas (state : TokenState) : List BookDeltaRow × List RecentTrade :=
  let recent := state.recentTrades.filter fun trade => call.ingest - tradeMatchWindowSeconds ≤ trade.timestamp
  if state.bids.entries = [] ∧ state.asks.entries = [] then ([], recent)
  else
    let bids := diffAndEmit call.ingest call.spreadBps .bid call.newBids state.bids.entries recent
    let asks := diffAndEmit call.ingest call.spreadBps .ask call.newAsks state.asks.entries bids.2
    (bids.1 ++ asks.1, asks.2)

end BookCall

/-- `record_book` -/
def recordBook (state : TokenState) (call : BookCall) : TokenState :=
  match call.validate state.lastSequence with
  | .error _ => state
  | .ok lastSequence =>
    let deltas := call.deltas state
    let writes := call.snapshotThrottleSeconds ≤ call.ingest - state.lastSnapshotWrite
    { state with
      bids := call.newBids
      asks := call.newAsks
      lastObservedAt := call.ingest
      spreadBps := call.spreadBps
      lastSequence := lastSequence
      lastSnapshotWrite := if writes then call.ingest else state.lastSnapshotWrite
      recentTrades := deltas.2
      deltas := state.deltas ++ deltas.1
      snapshots := if writes then state.snapshots ++ [call.snapshot] else state.snapshots }

def TokenState.step (upper : String → String) (state : TokenState) (call : Call) : TokenState :=
  match call with
  | .trade call => recordTrade upper state call
  | .book call => recordBook state call

/-- A call for a token; `clean` is strip and lower, and an empty token is passed by. -/
structure TokenCall where
  tokenId : String
  call : Call

def step (clean upper : String → String) (states : String → TokenState) (given : TokenCall) : String → TokenState :=
  if clean given.tokenId = "" then states
  else Function.update states (clean given.tokenId) ((states (clean given.tokenId)).step upper given.call)

end Callisto.MarketData.Capture
