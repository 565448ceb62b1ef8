import Callisto.Backtest.Fees
import Callisto.Backtest.Venue

/-! The matching engine of the backtest: submission with latency, cancels, admission by time in force,
and the matching of takers and of resting orders against the book of a snapshot. -/

namespace Callisto.Backtest

open Callisto.Library

/-- What the fill model is given about an order that goes to rest, besides the order itself. -/
structure Covariates where
  book : BookSnapshot
  queueAheadShares : ℚ
  deriving DecidableEq

structure NewOrder where
  orderId : String
  tokenId : String
  side : Side
  price : ℚ
  size : ℚ
  tif : Tif
  postOnly : Bool
  submittedAt : Instant
  strategySlug : Option String := none
  deriving DecidableEq

structure BacktestOrder extends NewOrder where
  state : OrderState := .pending
  venueReceivedAt : Option Instant := none
  filledSize : ℚ := 0
  avgFillPrice : ℚ := 0
  cancelPendingAt : Option Instant := none
  cancelledAt : Option Instant := none
  rejectReason : Option RejectReason := none
  fills : List Fill := []
  queueAheadShares : Option ℚ := none
  survivalCovariates : Option Covariates := none
  fillProbabilityCumulative : ℚ := 0
  deriving DecidableEq

namespace BacktestOrder

def remainingSize (order : BacktestOrder) : ℚ := max 0 (order.size - order.filledSize)

def IsTerminal (order : BacktestOrder) : Prop :=
  order.state = .filled ∨ order.state = .cancelled ∨ order.state = .rejected

instance (order : BacktestOrder) : Decidable order.IsTerminal := by
  unfold IsTerminal
  infer_instance

def record (order : BacktestOrder) (fill : Fill) : BacktestOrder :=
  let newFilled := order.filledSize + fill.size
  { order with
    fills := order.fills ++ [fill]
    avgFillPrice :=
      if 0 < newFilled then (order.avgFillPrice * order.filledSize + fill.price * fill.size) / newFilled
      else fill.price
    filledSize := newFilled }

end BacktestOrder

/-- What an engine is built with. `adverseBps` is the impact of a size on a visible depth, and the fill
model gives the probability that a resting order is filled within some seconds. -/
structure MatchingConfig where
  rules : OrderRule := {}
  fees : FeeModel := {}
  adverseBps : ℚ → ℚ → ℚ := fun _ _ => 0
  fillModel : Option (BacktestOrder → Covariates → ℚ → ℚ) := none
  queueProgressTradeFraction : ℚ := 1

/-- An order at the levels of a book, with the fills so far and the size left to fill. -/
structure Walk where
  order : BacktestOrder
  book : ResidualBook
  produced : List Fill
  remaining : ℚ

namespace Walk

def fillFrom (walk : Walk) (level : ℕ) (fill : Fill) (consumedAt : ℚ) : Walk where
  order := walk.order.record fill
  book := walk.book.take ⟨walk.order.side, level, walk.order.price, fill.size⟩ consumedAt
  produced := walk.produced ++ [fill]
  remaining := walk.remaining - fill.size

end Walk

namespace MatchingConfig

variable (config : MatchingConfig)

def adjustedPrice (side : Side) (price impactBps : ℚ) : ℚ :=
  let impactFactor := impactBps / 10000
  if 0 < impactFactor then
    match side with
    | .buy => min (9999 / 10000) (price * (1 + impactFactor))
    | .sell => max (1 / 10000) (price * (1 - impactFactor))
  else price

def takerFill (now : Instant) (walk : Walk) (price take impactBps : ℚ) : Fill :=
  let adjusted := adjustedPrice walk.order.side price impactBps
  { orderId := walk.order.orderId
    tokenId := walk.order.tokenId
    side := walk.order.side
    price := adjusted
    size := take
    feeUsd := config.fees.fillFee adjusted take false false walk.book.snapshot.mid
    occurredAt := walk.order.venueReceivedAt.getD now
    fillIndex := walk.order.fills.length
    venueSequence := walk.book.snapshot.sequence
    notes := { impactBps := if 0 < impactBps then some impactBps else none } }

/-- The levels from an index on, one after the other, for an order that takes. -/
def takerWalk (now : Instant) (impactBps : ℚ) : ℕ → List (ℚ × ℚ) → Walk → Walk
  | _, [], walk => walk
  | index, (price, qty) :: rest, walk =>
    if walk.remaining ≤ 0 then walk
    else if qty ≤ 0 then takerWalk now impactBps (index + 1) rest walk
    else if walk.order.side.Beyond walk.order.price price then walk
    else
      let fill := config.takerFill now walk price (min qty walk.remaining) impactBps
      takerWalk now impactBps (index + 1) rest (walk.fillFrom index fill price)

/-- Matches an order against what is left of the book, up to its limit. -/
def consumeLevels (now : Instant) (order : BacktestOrder) (book : ResidualBook) (produced : List Fill) : Walk :=
  let levels := book.remaining order.side
  let walk : Walk := ⟨order, book, produced, order.remainingSize⟩
  if order.remainingSize ≤ 0 then walk
  else
    let visible := (levels.filter fun level =>
      ¬ level.2 ≤ 0 ∧ ¬ order.side.Beyond order.price level.1).map Prod.snd
    config.takerWalk now (config.adverseBps order.remainingSize visible.sum) 0 levels walk

def availableForTaker (book : ResidualBook) (side : Side) (price : ℚ) : ℚ :=
  match side with
  | .sell => ((book.remainingBids.filter fun level => price - slack ≤ level.1).map Prod.snd).sum
  | .buy => ((book.remainingAsks.filter fun level => level.1 ≤ price + slack).map Prod.snd).sum

/-- The probability of the fill model, which never falls and stays in the unit interval. -/
def fillProbability (order : BacktestOrder) (observedAt : Instant) : Option ℚ :=
  match config.fillModel, order.survivalCovariates with
  | some model, some covariates =>
    let horizonSeconds : ℚ := max 0 (observedAt - order.venueReceivedAt.getD order.submittedAt) / 10 ^ 6
    some (max 0 (min 1 (max order.fillProbabilityCumulative (model order covariates horizonSeconds))))
  | _, _ => none

/-- The size a resting order may take, and the order with the probability noted. -/
def cappedTake (order : BacktestOrder) (observedAt : Instant) (candidate : ℚ) : ℚ × BacktestOrder × Option ℚ :=
  if candidate ≤ 0 then (candidate, order, none)
  else
    match config.fillProbability order observedAt with
    | none => (candidate, order, none)
    | some probability =>
      let fillableByModel := max 0 (order.size * probability - order.filledSize)
      (min candidate fillableByModel, { order with fillProbabilityCumulative := probability }, some probability)

def restingFill (snapshot : BookSnapshot) (order : BacktestOrder) (size : ℚ) (probability : Option ℚ) : Fill where
  orderId := order.orderId
  tokenId := order.tokenId
  side := order.side
  price := order.price
  size := size
  feeUsd := config.fees.fillFee order.price size true false snapshot.mid
  occurredAt := snapshot.observedAt
  fillIndex := order.fills.length
  venueSequence := snapshot.sequence
  notes := { maker := true, fillProbability := probability }

/-- The levels from an index on for an order at rest. It fills at its own price, and what it takes is
consumed at its own price too. -/
def restingWalk : ℕ → List (ℚ × ℚ) → Walk → Walk
  | _, [], walk => walk
  | index, (price, qty) :: rest, walk =>
    if walk.remaining ≤ 0 then walk
    else if walk.order.side.Beyond walk.order.price price then walk
    else
      let (take, order, probability) :=
        config.cappedTake walk.order walk.book.snapshot.observedAt (min qty walk.remaining)
      let noted := { walk with order := order }
      if take ≤ 0 then restingWalk (index + 1) rest noted
      else
        restingWalk (index + 1) rest
          (noted.fillFrom index (config.restingFill walk.book.snapshot order take probability) order.price)

end MatchingConfig

structure MatchingEngine where
  orders : Dict String BacktestOrder := Dict.empty
  workingByToken : Dict String (List String) := Dict.empty
  activeCountByToken : Dict String ℤ := Dict.empty
  pendingCancels : Dict String Instant := Dict.empty
  books : Dict String ResidualBook := Dict.empty
  now : Option Instant := none
  allFills : List Fill := []

inductive MatchingError where
  | duplicateOrderId (orderId : String)
  | nonMonotonicAdvance (time earlier : Instant)
  deriving DecidableEq

namespace MatchingEngine

def put (engine : MatchingEngine) (order : BacktestOrder) : MatchingEngine :=
  { engine with orders := engine.orders.set order.orderId order }

def putBook (engine : MatchingEngine) (book : ResidualBook) : MatchingEngine :=
  { engine with books := engine.books.set book.snapshot.tokenId book }

def working (engine : MatchingEngine) (tokenId : String) : List String :=
  (engine.workingByToken.get? tokenId).getD []

/-- Registers an order. It stays pending until an advance crosses its latency. -/
def submit (config : MatchingConfig) (engine : MatchingEngine) (order : NewOrder) (latency : Instant) :
    Except MatchingError MatchingEngine :=
  if (engine.orders.get? order.orderId).isSome then .error (.duplicateOrderId order.orderId)
  else
    match config.rules.validateSubmit order.side order.price order.size order.tif order.postOnly with
    | .error reason =>
      .ok (engine.put { toNewOrder := order, state := .rejected, rejectReason := some reason })
    | .ok adjustedPrice =>
      .ok { engine.put
          { toNewOrder := { order with price := adjustedPrice.getD order.price }
            venueReceivedAt := some (order.submittedAt + latency) } with
        activeCountByToken := engine.activeCountByToken.set order.tokenId
          ((engine.activeCountByToken.get? order.tokenId).getD 0 + 1) }

def decrementActive (engine : MatchingEngine) (tokenId : String) : MatchingEngine :=
  let n := (engine.activeCountByToken.get? tokenId).getD 0 - 1
  { engine with
    activeCountByToken :=
      if n ≤ 0 then engine.activeCountByToken.erase tokenId else engine.activeCountByToken.set tokenId n }

def terminate (engine : MatchingEngine) (order : BacktestOrder) (state : OrderState) : MatchingEngine :=
  if order.IsTerminal then engine.put order
  else (engine.put { order with state := state }).decrementActive order.tokenId

def hasActiveOrdersForToken (engine : MatchingEngine) (tokenId : String) : Bool :=
  0 < (engine.activeCountByToken.get? tokenId).getD 0

def cancel (engine : MatchingEngine) (orderId : String) (requestedAt latency : Instant) : MatchingEngine × Bool :=
  match engine.orders.get? orderId with
  | none => (engine, false)
  | some order =>
    if order.IsTerminal then (engine, false)
    else if (engine.pendingCancels.get? orderId).isSome then (engine, true)
    else
      let effective := requestedAt + latency
      ({ engine.put { order with cancelPendingAt := some effective } with
        pendingCancels := engine.pendingCancels.set orderId effective }, true)

def removeFromWorking (engine : MatchingEngine) (order : BacktestOrder) : MatchingEngine :=
  if order.orderId ∈ engine.working order.tokenId then
    { engine with
      workingByToken :=
        engine.workingByToken.set order.tokenId ((engine.working order.tokenId).erase order.orderId) }
  else engine

def addToWorking (engine : MatchingEngine) (order : BacktestOrder) : MatchingEngine :=
  if order.orderId ∈ engine.working order.tokenId then engine
  else
    { engine with
      workingByToken :=
        engine.workingByToken.set order.tokenId (engine.working order.tokenId ++ [order.orderId]) }

def applyCancel (engine : MatchingEngine) (orderId : String) (effectiveAt : Instant) : MatchingEngine :=
  match engine.orders.get? orderId with
  | none => engine
  | some order =>
    if order.IsTerminal then engine
    else
      let ended := engine.terminate { order with cancelledAt := some effectiveAt } .cancelled
      if order.state = .pending then ended else ended.removeFromWorking order

def applyDueCancels (engine : MatchingEngine) (now : Instant) : MatchingEngine :=
  engine.pendingCancels.entries.foldl (fun engine (entry : String × Instant) =>
    if entry.2 ≤ now then
      let cancelled := engine.applyCancel entry.1 entry.2
      { cancelled with pendingCancels := cancelled.pendingCancels.erase entry.1 }
    else engine) engine

def decayQueue (config : MatchingConfig) (old new : ResidualBook) (engine : MatchingEngine) (orderId : String) :
    MatchingEngine :=
  match engine.orders.get? orderId with
  | none => engine
  | some order =>
    match order.queueAheadShares with
    | none => engine
    | some ahead =>
      if order.IsTerminal ∨ ahead ≤ 0 then engine
      else engine.put { order with
        queueAheadShares :=
          some (decayedQueue config.queueProgressTradeFraction old new order.side order.price ahead) }

def refreshBook (config : MatchingConfig) (engine : MatchingEngine) (snapshot : BookSnapshot) : MatchingEngine :=
  let new : ResidualBook := { snapshot := snapshot }
  let refreshed := { engine with books := engine.books.set snapshot.tokenId new }
  match engine.books.get? snapshot.tokenId with
  | none => refreshed
  | some old => (engine.working snapshot.tokenId).foldl (decayQueue config old new) refreshed

def rested (config : MatchingConfig) (order : BacktestOrder) (state : OrderState) (snapshot : BookSnapshot) :
    BacktestOrder :=
  let ahead := computeQueueAheadShares snapshot order.side order.price
  { order with
    state := state
    queueAheadShares := some ahead
    fillProbabilityCumulative := 0
    survivalCovariates := config.fillModel.map fun _ => ⟨snapshot, ahead⟩ }

def restAs (config : MatchingConfig) (engine : MatchingEngine) (order : BacktestOrder) (state : OrderState)
    (snapshot : BookSnapshot) : MatchingEngine :=
  (engine.put (rested config order state snapshot)).addToWorking (rested config order state snapshot)

def handleAdmit (config : MatchingConfig) (now : Instant) (engine : MatchingEngine) (produced : List Fill)
    (order : BacktestOrder) : MatchingEngine × List Fill :=
  match engine.books.get? order.tokenId with
  | none => (engine, produced)
  | some book =>
    if order.postOnly ∧ book.snapshot.crossesBook order.side order.price then
      (engine.terminate { order with rejectReason := some .postOnlyCrossesBook } .rejected, produced)
    else if order.tif = .fok then
      if MatchingConfig.availableForTaker book order.side order.price + slack < order.size then
        (engine.terminate { order with rejectReason := some .fokInsufficientLiquidity } .rejected, produced)
      else
        let walk := config.consumeLevels now order book produced
        ((engine.putBook walk.book).terminate walk.order .filled, walk.produced)
    else if book.snapshot.isMarketable order.side order.price then
      let walk := config.consumeLevels now order book produced
      let matched := engine.putBook walk.book
      if 0 < walk.order.remainingSize then
        if order.tif = .ioc ∨ order.tif = .fak then
          (matched.terminate { walk.order with cancelledAt := order.venueReceivedAt } .cancelled, walk.produced)
        else (matched.restAs config walk.order .partially walk.book.snapshot, walk.produced)
      else (matched.terminate walk.order .filled, walk.produced)
    else if order.tif = .ioc ∨ order.tif = .fak then
      (engine.terminate { order with cancelledAt := order.venueReceivedAt } .cancelled, produced)
    else (engine.restAs config order .working book.snapshot, produced)

def admitDue (config : MatchingConfig) (snapshot : BookSnapshot) (state : MatchingEngine × List Fill)
    (orderId : String) : MatchingEngine × List Fill :=
  match state.1.orders.get? orderId with
  | none => state
  | some order =>
    if order.tokenId = snapshot.tokenId ∧ order.state = .pending ∧
        order.venueReceivedAt.any fun received => received ≤ snapshot.observedAt then
      handleAdmit config snapshot.observedAt state.1 state.2 order
    else state

def tryMatchResting (config : MatchingConfig) (engine : MatchingEngine) (produced : List Fill)
    (order : BacktestOrder) : MatchingEngine × List Fill :=
  match engine.books.get? order.tokenId with
  | none => (engine, produced)
  | some book =>
    if order.queueAheadShares.any fun ahead => 1 / 10 ^ 9 < ahead then (engine, produced)
    else if order.remainingSize ≤ 0 then (engine, produced)
    else
      let walk := config.restingWalk 0 (book.remaining order.side) ⟨order, book, produced, order.remainingSize⟩
      let matched := (engine.putBook walk.book).put walk.order
      if walk.order.remainingSize ≤ slack ∧ walk.order.state ≠ .filled then
        ((matched.terminate walk.order .filled).removeFromWorking walk.order, walk.produced)
      else (matched, walk.produced)

def matchWorking (config : MatchingConfig) (state : MatchingEngine × List Fill) (orderId : String) :
    MatchingEngine × List Fill :=
  match state.1.orders.get? orderId with
  | none => state
  | some order => if order.IsTerminal then state else tryMatchResting config state.1 state.2 order

/-- Advances to a snapshot: due cancels, the new book, due admissions, and the working orders. -/
def advanceTo (config : MatchingConfig) (engine : MatchingEngine) (snapshot : BookSnapshot) :
    Except MatchingError (MatchingEngine × List Fill) :=
  match engine.now.filter fun now => snapshot.observedAt < now with
  | some now => .error (.nonMonotonicAdvance snapshot.observedAt now)
  | none =>
    let timed := { engine with now := some snapshot.observedAt }
    let cancelled := timed.applyDueCancels snapshot.observedAt
    let refreshed := cancelled.refreshBook config snapshot
    let admitted := (refreshed.orders.entries.map Prod.fst).foldl (admitDue config snapshot) (refreshed, [])
    let matched := (admitted.1.working snapshot.tokenId).foldl (matchWorking config) admitted
    .ok ({ matched.1 with allFills := matched.1.allFills ++ matched.2 }, matched.2)

end MatchingEngine

/-- A call of the engine, with the latency that was drawn for it. -/
inductive MatchingCall where
  | submit (order : NewOrder) (latency : Instant)
  | cancel (orderId : String) (requestedAt latency : Instant)
  | advanceTo (snapshot : BookSnapshot)

namespace MatchingEngine

def step (config : MatchingConfig) (engine : MatchingEngine) : MatchingCall → MatchingEngine
  | .submit order latency =>
    match engine.submit config order latency with
    | .ok next => next
    | .error _ => engine
  | .cancel orderId requestedAt latency => (engine.cancel orderId requestedAt latency).1
  | .advanceTo snapshot =>
    match engine.advanceTo config snapshot with
    | .ok result => result.1
    | .error _ => engine

end MatchingEngine

end Callisto.Backtest
