import Callisto.Backtest.Matching
import Callisto.Backtest.Portfolio
import Mathlib.Data.List.Sort

/-! The backtest engine: a run over snapshots, with entries from intents, exits from a strategy, settlements
at resolution and a final mark to market. Strategy, exit planner, latency model and order ids are parameters. -/

namespace Callisto.Backtest

open Callisto.Library

structure TradeIntent where
  intentId : String
  emittedAt : Instant
  tokenId : String
  side : Side
  size : ℚ
  limitPrice : ℚ
  tif : Tif := .gtc
  postOnly : Bool := false
  strategySlug : Option String := none
  deriving DecidableEq

/-- The resolution of a token; without a settle price the winner is not known. -/
structure TokenSettlement where
  settlePrice : Option ℚ := none
  resolutionTime : Option Instant := none
  winningOutcome : Option String := none
  deriving DecidableEq

structure PositionView where
  entryPrice : ℚ
  currentPrice : ℚ
  highestPrice : ℚ
  lowestPrice : ℚ
  ageMinutes : ℚ
  pnlPercent : ℚ
  filledSize : ℚ
  notionalUsd : ℚ
  deriving DecidableEq

structure MarketState where
  currentPrice : ℚ
  marketTradable : Bool
  isResolved : Bool
  winningOutcome : Option String
  tokenId : String
  deriving DecidableEq

inductive ExitAction where
  | hold
  | reduce
  | close
  deriving DecidableEq

structure ExitDecision where
  action : ExitAction
  reduceFraction : ℚ := 0
  closePrice : Option ℚ := none
  reason : String := ""
  deriving DecidableEq

structure ChildPlan where
  price : ℚ
  size : ℚ
  tif : Tif
  postOnly : Bool
  deriving DecidableEq

inductive CancelReason where
  | expired
  | userCancel
  deriving DecidableEq

/-- The hooks of a strategy with a state and with exit policies of some kinds. A hook that a strategy lacks
leaves the state, and an exit hook that raises decides nothing. -/
structure Strategy (σ π : Type) where
  shouldExit : σ → PositionView → MarketState → σ × Option ExitDecision := fun state _ _ => (state, none)
  resolveExitPolicy : σ → ExitDecision → String → σ × Option π := fun state _ _ => (state, none)
  onFill : σ → BacktestOrder → ℚ → ℚ → ℚ → σ := fun state _ _ _ _ => state
  onPartialFill : σ → BacktestOrder → ℚ → ℚ → ℚ → σ := fun state _ _ _ _ => state
  onCancel : σ → BacktestOrder → CancelReason → ℚ → σ := fun state _ _ _ => state

/-- What a run is given, besides its intents and snapshots. `sampleSubmit` draws the latency of an order at
the time of its submission, and `makeOrderId` names the orders that bring no id. -/
structure BacktestConfig (σ π ρ : Type) where
  portfolio : PortfolioConfig := {}
  matching : MatchingConfig := {}
  strategy : Strategy σ π := {}
  planChildren : ℚ → ℚ → Side → π → Tif → List ChildPlan
  sampleSubmit : ρ → Instant → ρ × Instant
  makeOrderId : ℕ → String
  settlements : Dict String TokenSettlement := Dict.empty
  finalCloseAtLastMid : Bool := true
  wallClock : Instant := 0

/-- The state of a run. `pendingIntents` and `resolutionSchedule` are what is left of them, and `idsMade` counts
the order ids that were made. -/
structure BacktestEngine (σ ρ : Type) where
  portfolio : Portfolio
  matching : MatchingEngine
  strategy : σ
  latency : ρ
  idsMade : ℕ
  cancelledNotified : List String
  pendingIntents : List TradeIntent
  resolutionSchedule : List (Instant × String)
  settledPositionCount : ℕ
  markedToMidCount : ℕ

namespace Portfolio

/-- Closes a position with a synthetic fill, and charges the resolution fee on its gain. -/
def closePositionAt (book : Portfolio) (key : PositionKey) (pos : Position) (price : ℚ) (moment : Instant)
    (isSettlement : Bool) : Portfolio :=
  let syntheticFill : Fill :=
    { orderId := (if isSettlement then "settle_" else "final_mtm_") ++ key.1
      tokenId := pos.tokenId
      side := pos.side.opposing
      price := price
      size := pos.size
      feeUsd := 0
      occurredAt := moment
      fillIndex := 0 }
  let closed := pos.applyCloseFill syntheticFill
  let resFee := closeResolutionFee book.config (closed.realizedPnlUsd - pos.realizedPnlUsd)
  { book with
    cashUsd := cashAfterClose book.cashUsd pos syntheticFill - resFee
    resolutionFeesPaidUsd := book.resolutionFeesPaidUsd + resFee
    closedPositions := book.closedPositions ++ [{ closed with
      feesPaidUsd := closed.feesPaidUsd + resFee
      realizedPnlUsd := closed.realizedPnlUsd - resFee }]
    positions := book.positions.erase key }

end Portfolio

namespace BacktestConfig

variable {σ π ρ : Type} (config : BacktestConfig σ π ρ)

/-- The portfolio shares the fee model of the matching engine unless it has its own. -/
def portfolioConfig : PortfolioConfig :=
  { config.portfolio with feeModel := config.portfolio.feeModel.or (some config.matching.fees) }

def resolutionSchedule : List (Instant × String) :=
  (config.settlements.entries.filterMap fun entry =>
    match entry.2.resolutionTime, entry.2.settlePrice with
    | some due, some _ => some (due, entry.1)
    | _, _ => none).insertionSort fun first second => first.1 ≤ second.1

end BacktestConfig

namespace BacktestEngine

variable {σ π ρ : Type}

def new (config : BacktestConfig σ π ρ) (strategy : σ) (latency : ρ) (intents : List TradeIntent) : BacktestEngine σ ρ where
  portfolio := .new config.portfolioConfig
  matching := {}
  strategy := strategy
  latency := latency
  idsMade := 0
  cancelledNotified := []
  pendingIntents := intents.insertionSort fun first second => first.emittedAt ≤ second.emittedAt
  resolutionSchedule := config.resolutionSchedule
  settledPositionCount := 0
  markedToMidCount := 0

def settlePosition (tokenId : String) (price : ℚ) (moment : Instant) (engine : BacktestEngine σ ρ)
    (entry : PositionKey × Position) : BacktestEngine σ ρ :=
  if entry.1.1 ≠ tokenId ∨ entry.2.size ≤ dust then engine
  else { engine with
    portfolio := engine.portfolio.closePositionAt entry.1 entry.2 price moment true
    settledPositionCount := engine.settledPositionCount + 1 }

variable (config : BacktestConfig σ π ρ)

def settleToken (now : Instant) (engine : BacktestEngine σ ρ) (tokenId : String) : BacktestEngine σ ρ :=
  match config.settlements.get? tokenId with
  | none => engine
  | some settlement =>
    match settlement.settlePrice with
    | none => engine
    | some price =>
      engine.portfolio.positions.entries.foldl (settlePosition tokenId price (settlement.resolutionTime.getD now)) engine

def settleSchedule (now : Instant) : List (Instant × String) → BacktestEngine σ ρ → BacktestEngine σ ρ
  | [], engine => { engine with resolutionSchedule := [] }
  | (due, tokenId) :: rest, engine =>
    if due ≤ now then settleSchedule now rest (settleToken config now engine tokenId)
    else { engine with resolutionSchedule := (due, tokenId) :: rest }

def settleDue (now : Instant) (engine : BacktestEngine σ ρ) : BacktestEngine σ ρ :=
  settleSchedule config now engine.resolutionSchedule engine

/-- An order goes to the matching engine. A latency is drawn only for an order that the venue takes. -/
def submit (engine : BacktestEngine σ ρ) (order : NewOrder) : Except MatchingError (BacktestEngine σ ρ) :=
  let drawn := config.sampleSubmit engine.latency order.submittedAt
  match engine.matching.submit config.matching order drawn.2 with
  | .error raised => .error raised
  | .ok matching =>
    let taken := (config.matching.rules.validateSubmit order.side order.price order.size order.tif order.postOnly).isOk
    .ok { engine with matching := matching, latency := if taken then drawn.1 else engine.latency }

def submitEntry (engine : BacktestEngine σ ρ) (intent : TradeIntent) : Except MatchingError (BacktestEngine σ ρ) :=
  match engine.portfolio.canSubmit intent.tokenId intent.side intent.limitPrice intent.size intent.strategySlug with
  | some _ => .ok engine
  | none =>
    let order (orderId : String) : NewOrder :=
      { orderId := orderId
        tokenId := intent.tokenId
        side := intent.side
        price := intent.limitPrice
        size := intent.size
        tif := intent.tif
        postOnly := intent.postOnly
        submittedAt := intent.emittedAt
        strategySlug := intent.strategySlug }
    if intent.intentId = "" then
      submit config { engine with idsMade := engine.idsMade + 1 } (order (config.makeOrderId engine.idsMade))
    else submit config engine (order intent.intentId)

def drainIntents (now : Instant) : List TradeIntent → BacktestEngine σ ρ → Except MatchingError (BacktestEngine σ ρ)
  | [], engine => .ok { engine with pendingIntents := [] }
  | intent :: rest, engine =>
    if intent.emittedAt ≤ now then
      match submitEntry config engine intent with
      | .error raised => .error raised
      | .ok next => drainIntents now rest next
    else .ok { engine with pendingIntents := intent :: rest }

def applyFill (engine : BacktestEngine σ ρ) (fill : Fill) : BacktestEngine σ ρ :=
  match engine.matching.orders.get? fill.orderId with
  | none => engine
  | some order =>
    { engine with
      portfolio := engine.portfolio.applyFill fill order.strategySlug
      strategy :=
        if slack < order.remainingSize then
          config.strategy.onPartialFill engine.strategy order fill.size order.remainingSize fill.price
        else config.strategy.onFill engine.strategy order fill.size fill.price (fill.size * fill.price) }

def markAt (engine : BacktestEngine σ ρ) (snapshot : BookSnapshot) : BacktestEngine σ ρ :=
  match snapshot.mid with
  | none => engine
  | some mid => { engine with portfolio := engine.portfolio.mark snapshot.tokenId mid snapshot.observedAt }

def orZero (value : Option ℚ) (other : ℚ) : ℚ :=
  match value with
  | none => other
  | some value => if value = 0 then other else value

def positionView (pos : Position) (snapshot : BookSnapshot) : PositionView :=
  let current := snapshot.mid.getD pos.entryPrice
  { entryPrice := pos.entryPrice
    currentPrice := current
    highestPrice := max pos.entryPrice (orZero snapshot.mid pos.entryPrice)
    lowestPrice := min pos.entryPrice (orZero snapshot.mid pos.entryPrice)
    ageMinutes := match pos.openedAt with
      | none => 0
      | some opened => max 0 ((snapshot.observedAt - opened : ℚ) / (60 * 10 ^ 6))
    pnlPercent := if 0 < pos.entryPrice then (current - pos.entryPrice) / pos.entryPrice * 100 else 0
    filledSize := pos.size
    notionalUsd := pos.size * pos.entryPrice }

def marketState (pos : Position) (snapshot : BookSnapshot) : MarketState :=
  let settlement := config.settlements.get? pos.tokenId
  let resolved := settlement.any fun settlement => settlement.resolutionTime.any fun due => due ≤ snapshot.observedAt
  { currentPrice := snapshot.mid.getD pos.entryPrice
    marketTradable := !resolved
    isResolved := resolved
    winningOutcome := if resolved then settlement.bind TokenSettlement.winningOutcome else none
    tokenId := pos.tokenId }

def submitSingleExit (engine : BacktestEngine σ ρ) (position : Position) (side : Side) (size price : ℚ) (tif : Tif)
    (postOnly : Bool) (snapshot : BookSnapshot) : Except MatchingError (BacktestEngine σ ρ) :=
  submit config { engine with idsMade := engine.idsMade + 1 }
    { orderId := config.makeOrderId engine.idsMade
      tokenId := position.tokenId
      side := side
      price := price
      size := size
      tif := tif
      postOnly := postOnly
      submittedAt := snapshot.observedAt
      strategySlug := position.strategySlug }

def submitChildren (position : Position) (side : Side) (snapshot : BookSnapshot) :
    List ChildPlan → BacktestEngine σ ρ → Except MatchingError (BacktestEngine σ ρ)
  | [], engine => .ok engine
  | plan :: rest, engine =>
    match submitSingleExit config engine position side plan.size plan.price plan.tif plan.postOnly snapshot with
    | .error raised => .error raised
    | .ok next => submitChildren position side snapshot rest next

/-- The orders of an exit: one order without a policy or a plan, else the ladder of the plan. -/
def submitPlanned (engine : BacktestEngine σ ρ) (position : Position) (targetSize closePrice : ℚ) (closeTrigger : String)
    (policy : Option π) (snapshot : BookSnapshot) : Except MatchingError (BacktestEngine σ ρ) :=
  let closeSide := position.side.opposing
  match policy with
  | none => submitSingleExit config engine position closeSide targetSize closePrice .ioc false snapshot
  | some policy =>
    match config.planChildren targetSize closePrice closeSide policy (if closeTrigger = "stop_loss" then .ioc else .gtc) with
    | [] => submitSingleExit config engine position closeSide targetSize closePrice .ioc false snapshot
    | plans => submitChildren config position closeSide snapshot plans engine

def submitExitFor (engine : BacktestEngine σ ρ) (position : Position) (decision : ExitDecision) (fraction : ℚ)
    (snapshot : BookSnapshot) : Except MatchingError (BacktestEngine σ ρ) :=
  if position.size * fraction ≤ 0 then .ok engine
  else
    let closeTrigger := if decision.reason = "" then "exit" else decision.reason
    let resolved := config.strategy.resolveExitPolicy engine.strategy decision closeTrigger
    submitPlanned config { engine with strategy := resolved.1 } position (position.size * fraction)
      (orZero decision.closePrice (orZero snapshot.mid position.entryPrice)) closeTrigger resolved.2 snapshot

def act (engine : BacktestEngine σ ρ) (pos : Position) (snapshot : BookSnapshot) (decision : Option ExitDecision) :
    Except MatchingError (BacktestEngine σ ρ) :=
  match decision with
  | none => .ok engine
  | some decision =>
    match decision.action with
    | .hold => .ok engine
    | .reduce =>
      if decision.reduceFraction ≤ 0 then .ok engine
      else submitExitFor config engine pos decision (min 1 decision.reduceFraction) snapshot
    | .close => submitExitFor config engine pos decision 1 snapshot

def evaluateExit (snapshot : BookSnapshot) (engine : BacktestEngine σ ρ) (pos : Position) :
    Except MatchingError (BacktestEngine σ ρ) :=
  let decided := config.strategy.shouldExit engine.strategy (positionView pos snapshot) (marketState config pos snapshot)
  act config { engine with strategy := decided.1 } pos snapshot decided.2

def evaluateExits (snapshot : BookSnapshot) : List Position → BacktestEngine σ ρ → Except MatchingError (BacktestEngine σ ρ)
  | [], engine => .ok engine
  | pos :: rest, engine =>
    match evaluateExit config snapshot engine pos with
    | .error raised => .error raised
    | .ok next => evaluateExits snapshot rest next

def exitTargets (engine : BacktestEngine σ ρ) (snapshot : BookSnapshot) : List Position :=
  (engine.portfolio.positions.entries.filter fun entry => entry.1.1 = snapshot.tokenId ∧ dust < entry.2.size).map Prod.snd

/-- Tells the strategy about a cancelled order that it has not heard of. -/
def notifyCancel (engine : BacktestEngine σ ρ) (order : BacktestOrder) : BacktestEngine σ ρ :=
  if order.state ≠ .cancelled ∨ order.orderId ∈ engine.cancelledNotified then engine
  else { engine with
    cancelledNotified := engine.cancelledNotified ++ [order.orderId]
    strategy := config.strategy.onCancel engine.strategy order
      (if order.tif = .ioc ∨ order.tif = .fak then .expired else .userCancel) order.remainingSize }

def notifyCancels (engine : BacktestEngine σ ρ) : BacktestEngine σ ρ :=
  engine.matching.orders.values.foldl (notifyCancel config) engine

/-- The work on a snapshot that is not passed over: entries, matching, fills, mark, exits, cancels. -/
def processSnapshot (engine : BacktestEngine σ ρ) (snapshot : BookSnapshot) : Except MatchingError (BacktestEngine σ ρ) :=
  match drainIntents config snapshot.observedAt engine.pendingIntents engine with
  | .error raised => .error raised
  | .ok drained =>
    match drained.matching.advanceTo config.matching snapshot with
    | .error raised => .error raised
    | .ok (matching, fills) =>
      let filled := fills.foldl (applyFill config) { drained with matching := matching }
      let marked := filled.markAt snapshot
      match evaluateExits config snapshot (marked.exitTargets snapshot) marked with
      | .error raised => .error raised
      | .ok exited => .ok (notifyCancels config exited)

/-- Something waits for the snapshot: a due intent, an active order of its token, or a position in it. -/
def involved (engine : BacktestEngine σ ρ) (snapshot : BookSnapshot) : Bool :=
  (engine.pendingIntents.head?.any fun intent => intent.emittedAt ≤ snapshot.observedAt) ||
    engine.matching.hasActiveOrdersForToken snapshot.tokenId ||
      engine.portfolio.positions.entries.any fun entry => entry.1.1 = snapshot.tokenId

/-- One snapshot. With the fast path, a snapshot of a token that nothing waits for is passed over. -/
def onSnapshot (fastPath : Bool) (engine : BacktestEngine σ ρ) (snapshot : BookSnapshot) :
    Except MatchingError (BacktestEngine σ ρ) :=
  let settled := engine.settleDue config snapshot.observedAt
  if fastPath && !settled.involved snapshot then .ok settled else processSnapshot config settled snapshot

/-- Closes one position at the end of a run: at its settlement if it has resolved, else at its last mark. -/
def closeAtEnd (runEnd : Option Instant) (engine : BacktestEngine σ ρ) (entry : PositionKey × Position) : BacktestEngine σ ρ :=
  let (key, pos) := entry
  if pos.size ≤ dust then engine
  else
    let resolved := (config.settlements.get? pos.tokenId).bind fun settlement =>
      settlement.settlePrice.bind fun price =>
        (settlement.resolutionTime.filter fun due => runEnd.any fun ended => due ≤ ended).map fun due => (price, due)
    match resolved with
    | some (price, due) => { engine with
        portfolio := engine.portfolio.closePositionAt key pos price due true
        settledPositionCount := engine.settledPositionCount + 1 }
    | none =>
      let closeAt := ((pos.lastMarkAt.or pos.openedAt).or runEnd).getD config.wallClock
      { engine with
        portfolio := engine.portfolio.closePositionAt key pos pos.exposurePrice closeAt false
        markedToMidCount := engine.markedToMidCount + 1 }

def anchorAt (book : Portfolio) : Instant :=
  let last := book.equityHistory.getLast?.map Prod.fst
  let closed := book.closedPositions.reverse.findSome? Position.closedAt
  match last, closed with
  | none, none => config.wallClock
  | none, some closed => closed
  | some last, none => last
  | some last, some closed => if last ≤ closed then closed else last

def finalMarkToMarket (engine : BacktestEngine σ ρ) : BacktestEngine σ ρ :=
  let closed := engine.portfolio.positions.entries.foldl (closeAtEnd config engine.matching.now) engine
  let moment := anchorAt config closed.portfolio
  { closed with
    portfolio := { closed.portfolio with
      equityHistory := closed.portfolio.equityHistory ++ [(moment, closed.portfolio.equityUsd)]
      cashHistory := closed.portfolio.cashHistory ++ [(moment, closed.portfolio.cashUsd)] } }

def step (fastPath : Bool) (run : Except MatchingError (BacktestEngine σ ρ)) (snapshot : BookSnapshot) :
    Except MatchingError (BacktestEngine σ ρ) :=
  run.bind fun engine => onSnapshot config fastPath engine snapshot

def finish (engine : BacktestEngine σ ρ) : BacktestEngine σ ρ :=
  if config.finalCloseAtLastMid then finalMarkToMarket config engine else engine

end BacktestEngine

/-- The peak of an equity curve, and the deepest fall below a peak: in dollars, as a part of that peak, and the
longest time below one. -/
structure Drawdown where
  peak : Option (ℚ × Instant) := none
  usd : ℚ := 0
  part : ℚ := 0
  duration : ℚ := 0
  deriving DecidableEq

namespace Drawdown

def observe (drawdown : Drawdown) (point : Instant × ℚ) : Drawdown :=
  match drawdown.peak with
  | none => { drawdown with peak := some (point.2, point.1) }
  | some (peak, peakAt) =>
    if peak < point.2 then { drawdown with peak := some (point.2, point.1) }
    else
      let fall := peak - point.2
      let deeper := drawdown.usd < fall
      { drawdown with
        usd := if deeper then fall else drawdown.usd
        part := if deeper then (if 0 < peak then fall / peak else 0) else drawdown.part
        duration := max drawdown.duration ((point.1 - peakAt : ℚ) / 10 ^ 6) }

def ofHistory (history : List (Instant × ℚ)) : Drawdown := history.foldl observe {}

end Drawdown

end Callisto.Backtest
