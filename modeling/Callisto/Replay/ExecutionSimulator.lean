import Callisto.Replay.PointReplay
import Mathlib.Data.List.Infix
import Mathlib.Algebra.BigOperators.Group.List.Basic

/-! A run of the execution simulator: the emissions in time order, then the closing of what they opened. -/

namespace Callisto.Replay

inductive Direction where
  | buyYes
  | buyNo
  | sellYes
  | sellNo
  deriving DecidableEq

def Direction.text : Direction → String
  | .buyYes => "buy_yes"
  | .buyNo => "buy_no"
  | .sellYes => "sell_yes"
  | .sellNo => "sell_no"

inductive Outcome where
  | yes
  | no
  deriving DecidableEq

/-- `clean` is strip and lower; the value is the emission's direction, that of its payload, or nothing. -/
def normalizeDirection (clean : String → String) (value : String) : Direction :=
  if clean value = "buy_no" ∨ clean value = "no" then .buyNo
  else if clean value = "sell_yes" ∨ clean value = "short_yes" then .sellYes
  else if clean value = "sell_no" ∨ clean value = "short_no" then .sellNo
  else .buyYes

def directionToOutcome (direction : Direction) : Outcome := if "no".toList <:+: direction.text.toList then .no else .yes

/-- What a signal's payload is read for; the rest of it goes to the strategy and the leg as it is. -/
structure SignalPayload (δ : Type) where
  direction : String
  marketQuestion : String
  question : String
  liquidity : Option ℚ
  yesTokenIds : List String
  noTokenIds : List String
  selectedTokenIds : List String
  tokenIds : List String
  other : δ

/-- A row of the emission log; empty texts are missing ones, and a missing number is one that is not a number. -/
structure Emission (δ : Type) where
  id : String
  signalId : String
  source : String
  signalType : String
  marketId : String
  status : String
  direction : String
  entryPrice : Option ℚ
  edgePercent : Option ℚ
  confidence : Option ℚ
  liquidity : Option ℚ
  createdAtMs : Option ℤ
  payload : SignalPayload δ

/-- The candidates in the order of the source, the first that looks like a token id. -/
def resolveTokenIdForOutcome {δ : Type} (clean : String → String) (payload : SignalPayload δ) (outcome : Outcome)
    (fallback : String) : Option String :=
  let own := match outcome with
    | .yes => payload.yesTokenIds
    | .no => payload.noTokenIds
  let listed := match outcome with
    | .yes => payload.tokenIds.take 1
    | .no => (payload.tokenIds.drop 1).take 1
  ((own ++ payload.selectedTokenIds ++ [fallback] ++ listed ++ payload.tokenIds).map clean).find? fun token =>
    decide (18 ≤ token.length ∧ token ≠ "none")

structure SignalObject (δ : Type) where
  emission : Emission δ
  marketQuestion : String
  direction : Direction

structure Decision where
  decision : String
  reason : String
  score : Option ℚ
  sizeUsd : Option ℚ

structure LiveContext (μ : Type) where
  liveSelectedPrice : ℚ
  entryPriceDeltaPct : ℚ
  historySummary : Option HistorySummary
  liquidity : ℚ
  selectedTokenId : Option String
  microstructure : Option μ

/-- A call of `submit_execution_leg`: a buy of the outcome, whatever the direction. -/
structure LegCall (δ μ : Type) where
  signal : SignalObject δ
  liveContext : LiveContext μ
  marketRef : String
  outcome : Outcome
  limitPrice : ℚ
  tokenId : Option String
  notionalUsd : ℚ
  replayPoint : Point

structure Submission where
  status : String
  errorMessage : String
  effectivePrice : Option ℚ
  notionalUsd : Option ℚ
  shares : Option ℚ
  slippageBps : Option ℚ

inductive EventType where
  | signalEvaluated
  | orderUnfilled
  | orderFilled
  | positionMtmClose
  deriving DecidableEq

structure SimEvent where
  sequence : ℕ
  eventType : EventType
  eventAtMs : Option ℤ
  signalId : String
  marketId : String
  direction : Direction
  price : Option ℚ
  quantity : Option ℚ
  notionalUsd : Option ℚ
  feesUsd : Option ℚ
  slippageBps : Option ℚ
  realizedPnlUsd : Option ℚ
  deriving DecidableEq

structure OpenPosition where
  signalId : String
  marketId : String
  marketRef : String
  direction : Direction
  outcome : Outcome
  entryPrice : ℚ
  quantity : ℚ
  entryNotionalUsd : ℚ
  openedAtMs : ℤ
  deriving DecidableEq

/-- The request, and what answers it: the strategy, the price provider and the shadow execution, each as at the emission. -/
structure Simulation (δ μ : Type) where
  clean : String → String
  polymarket : Bool
  marketRefOverride : String
  feeBpsPayload : Option ℚ
  defaultNotionalPayload : Option ℚ
  evaluate : Emission δ → SignalObject δ → Decision
  fetchPoints : String → Outcome → PriceSeries
  microstructure : String → Option ℤ → Option μ
  submit : Emission δ → LegCall δ μ → Submission

structure RunState (δ μ : Type) where
  sequence : ℕ := 1
  evaluated : ℕ := 0
  selected : ℕ := 0
  filled : ℕ := 0
  skipped : ℕ := 0
  totalFees : ℚ := 0
  totalRealized : ℚ := 0
  openPositions : List OpenPosition := []
  pointCache : String × Outcome → Option PriceSeries := fun _ => none
  events : List SimEvent := []
  /-- The calls of `submit_execution_leg`, which the run itself does not keep. -/
  calls : List (LegCall δ μ) := []

namespace Simulation
variable {δ μ : Type} (simulation : Simulation δ μ)

def feeBps : ℚ := max 0 (simulation.feeBpsPayload.getD 200)

def feeRate : ℚ := simulation.feeBps / 10000

def defaultNotional : ℚ := max 1 (simulation.defaultNotionalPayload.getD 50)

def replayable (emission : Emission δ) : Bool :=
  decide (simulation.clean emission.status ∈ ["pending", "selected", "submitted", "executed"])

def direction (emission : Emission δ) : Direction :=
  normalizeDirection simulation.clean (if emission.direction ≠ "" then emission.direction
    else if emission.payload.direction ≠ "" then emission.payload.direction else "buy_yes")

def signalObject (emission : Emission δ) : SignalObject δ where
  emission := emission
  marketQuestion := if emission.payload.marketQuestion ≠ "" then emission.payload.marketQuestion
    else if emission.payload.question ≠ "" then emission.payload.question else emission.marketId
  direction := simulation.direction emission

def decision (emission : Emission δ) : Decision := simulation.evaluate emission (simulation.signalObject emission)

def marketRef (emission : Emission δ) : String :=
  if simulation.marketRefOverride ≠ "" then simulation.marketRefOverride else emission.marketId

def outcome (emission : Emission δ) : Outcome := directionToOutcome (simulation.direction emission)

def legCall (emission : Emission δ) (points : List Point) (pointIdx : ℕ) (replayPoint : Point) : LegCall δ μ :=
  let marketRef := simulation.marketRef emission
  let outcome := simulation.outcome emission
  let tokenId := resolveTokenIdForOutcome simulation.clean emission.payload outcome marketRef
  let replayPrice := clampPrice (replayPoint.p.getD (1 / 2))
  let targetPrice := clampPrice (emission.entryPrice.getD replayPrice)
  { signal := simulation.signalObject emission
    liveContext := {
      liveSelectedPrice := replayPrice
      entryPriceDeltaPct := if 0 < targetPrice then (replayPrice - targetPrice) / targetPrice * 100 else 0
      historySummary := historySummaryForPoint points pointIdx
      liquidity := emission.payload.liquidity.getD (emission.liquidity.getD 0)
      selectedTokenId := tokenId
      microstructure := if simulation.polymarket then tokenId.bind fun token => simulation.microstructure token emission.createdAtMs else none }
    marketRef := marketRef
    outcome := outcome
    limitPrice := targetPrice
    tokenId := tokenId
    notionalUsd := max 1 ((simulation.decision emission).sizeUsd.getD simulation.defaultNotional)
    replayPoint := replayPoint }

def fillPrice (emission : Emission δ) (call : LegCall δ μ) : ℚ :=
  clampPrice ((simulation.submit emission call).effectivePrice.getD call.limitPrice)

def filledNotional (emission : Emission δ) (call : LegCall δ μ) : ℚ :=
  max 0 ((simulation.submit emission call).notionalUsd.getD call.notionalUsd)

def submittedShares (emission : Emission δ) (call : LegCall δ μ) : ℚ :=
  (simulation.submit emission call).shares.getD
    (if 0 < simulation.fillPrice emission call then simulation.filledNotional emission call / simulation.fillPrice emission call else 0)

def openPosition (emission : Emission δ) (call : LegCall δ μ) : OpenPosition where
  signalId := emission.signalId
  marketId := emission.marketId
  marketRef := call.marketRef
  direction := simulation.direction emission
  outcome := call.outcome
  entryPrice := simulation.fillPrice emission call
  quantity := max 0 (simulation.submittedShares emission call)
  entryNotionalUsd := simulation.filledNotional emission call
  openedAtMs := call.replayPoint.t

def isFilled (emission : Emission δ) (call : LegCall δ μ) : Bool :=
  decide (simulation.clean (simulation.submit emission call).status ∈ ["executed", "open", "submitted"])

def evaluatedEvent (sequence : ℕ) (emission : Emission δ) : SimEvent where
  sequence := sequence
  eventType := .signalEvaluated
  eventAtMs := emission.createdAtMs
  signalId := emission.signalId
  marketId := emission.marketId
  direction := simulation.direction emission
  price := emission.entryPrice
  quantity := none
  notionalUsd := none
  feesUsd := none
  slippageBps := none
  realizedPnlUsd := none

def unfilledEvent (sequence : ℕ) (emission : Emission δ) (call : LegCall δ μ) : SimEvent where
  sequence := sequence
  eventType := .orderUnfilled
  eventAtMs := some call.replayPoint.t
  signalId := emission.signalId
  marketId := emission.marketId
  direction := simulation.direction emission
  price := some call.limitPrice
  quantity := some 0
  notionalUsd := some call.notionalUsd
  feesUsd := some 0
  slippageBps := some ((simulation.submit emission call).slippageBps.getD 0)
  realizedPnlUsd := some 0

def filledEvent (sequence : ℕ) (emission : Emission δ) (call : LegCall δ μ) : SimEvent :=
  let position := simulation.openPosition emission call
  { sequence := sequence
    eventType := .orderFilled
    eventAtMs := some position.openedAtMs
    signalId := position.signalId
    marketId := position.marketId
    direction := position.direction
    price := some position.entryPrice
    quantity := some position.quantity
    notionalUsd := some position.entryNotionalUsd
    feesUsd := some (position.entryNotionalUsd * simulation.feeRate)
    slippageBps := some ((simulation.submit emission call).slippageBps.getD 0)
    realizedPnlUsd := none }

def submitLeg (state : RunState δ μ) (emission : Emission δ) (call : LegCall δ μ) : RunState δ μ :=
  let state := { state with calls := state.calls ++ [call] }
  if simulation.isFilled emission call then
    let position := simulation.openPosition emission call
    { state with
      filled := state.filled + 1
      totalFees := state.totalFees + position.entryNotionalUsd * simulation.feeRate
      openPositions := state.openPositions ++ [position]
      sequence := state.sequence + 1
      events := state.events ++ [simulation.filledEvent state.sequence emission call] }
  else
    { state with
      skipped := state.skipped + 1
      sequence := state.sequence + 1
      events := state.events ++ [simulation.unfilledEvent state.sequence emission call] }

/-- The replay of a selected emission: its series from the cache or the provider, its point, its leg. -/
def replayEmission (state : RunState δ μ) (emission : Emission δ) : RunState δ μ :=
  let key := (simulation.marketRef emission, simulation.outcome emission)
  let series := (state.pointCache key).getD (simulation.fetchPoints key.1 key.2)
  let state := { state with pointCache := Function.update state.pointCache key (some series) }
  match findPointForTs series.points emission.createdAtMs with
  | none => { state with skipped := state.skipped + 1 }
  | some (pointIdx, replayPoint) => simulation.submitLeg state emission (simulation.legCall emission series.points pointIdx replayPoint)

def processEmission (state : RunState δ μ) (emission : Emission δ) : RunState δ μ :=
  if simulation.replayable emission then
    let state := { state with
      evaluated := state.evaluated + 1
      sequence := state.sequence + 1
      events := state.events ++ [simulation.evaluatedEvent state.sequence emission] }
    if (simulation.decision emission).decision ≠ "selected" then { state with skipped := state.skipped + 1 }
    else
      let state := { state with selected := state.selected + 1 }
      if simulation.marketRef emission = "" then { state with skipped := state.skipped + 1 }
      else simulation.replayEmission state emission
  else state

def closeEvent (sequence : ℕ) (position : OpenPosition) (finalPoint : Point) : SimEvent :=
  let close := markToMarketClose position.entryPrice position.quantity (finalPoint.p.getD position.entryPrice) simulation.feeBps
  { sequence := sequence
    eventType := .positionMtmClose
    eventAtMs := some finalPoint.t
    signalId := position.signalId
    marketId := position.marketId
    direction := position.direction
    price := some close.exitPrice
    quantity := some close.quantity
    notionalUsd := some close.notionalUsd
    feesUsd := some close.feesUsd
    slippageBps := some 0
    realizedPnlUsd := some close.realizedPnlUsd }

def bookClose (state : RunState δ μ) (position : OpenPosition) (finalPoint : Point) : RunState δ μ :=
  let close := markToMarketClose position.entryPrice position.quantity (finalPoint.p.getD position.entryPrice) simulation.feeBps
  { state with
    totalFees := state.totalFees + close.feesUsd
    totalRealized := state.totalRealized + close.realizedPnlUsd
    sequence := state.sequence + 1
    events := state.events ++ [simulation.closeEvent state.sequence position finalPoint] }

def closePosition (state : RunState δ μ) (position : OpenPosition) : RunState δ μ :=
  match (state.pointCache (position.marketRef, position.outcome)).bind fun series => series.points.getLast? with
  | none => state
  | some finalPoint => simulation.bookClose state position finalPoint

def run (emissions : List (Emission δ)) : RunState δ μ :=
  let replayed := emissions.foldl simulation.processEmission {}
  replayed.openPositions.foldl simulation.closePosition replayed

end Simulation

end Callisto.Replay
