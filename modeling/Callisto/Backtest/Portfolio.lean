import Callisto.Backtest.Fees
import Callisto.Library.Dict

/-! The multi-position portfolio: cash, open and closed positions, marks and the pre-trade gate. -/

namespace Callisto.Backtest

open Callisto.Library

def dust : ℚ := 1 / 10 ^ 12

structure PortfolioConfig where
  initialCapitalUsd : ℚ := 10000
  maxGrossExposureUsd : Option ℚ := none
  maxPerMarketNotionalUsd : Option ℚ := none
  maxPerStrategyNotionalUsd : Option ℚ := none
  maxOpenPositions : Option ℕ := none
  feeModel : Option FeeModel := none
  deriving DecidableEq

/-- Opens on one token and side are averaged into one position; `side` is that of the opening fill. -/
structure Position where
  tokenId : String
  side : Side
  strategySlug : Option String := none
  entryPrice : ℚ := 0
  size : ℚ := 0
  costBasisUsd : ℚ := 0
  realizedPnlUsd : ℚ := 0
  feesPaidUsd : ℚ := 0
  lastMarkPrice : Option ℚ := none
  lastMarkAt : Option Instant := none
  openedAt : Option Instant := none
  closedAt : Option Instant := none
  fillCount : ℕ := 0
  deriving DecidableEq

namespace Position

def applyOpenFill (pos : Position) (fill : Fill) : Position :=
  let newSize := pos.size + fill.size
  { pos with
    entryPrice := if 0 < newSize then (pos.entryPrice * pos.size + fill.price * fill.size) / newSize else fill.price
    size := newSize
    costBasisUsd := pos.costBasisUsd + fill.notionalUsd
    feesPaidUsd := pos.feesPaidUsd + fill.feeUsd
    fillCount := pos.fillCount + 1
    openedAt := pos.openedAt.or (some fill.occurredAt) }

/-- A fill that reduces the position, by no more than the position holds. -/
def applyCloseFill (pos : Position) (fill : Fill) : Position :=
  if pos.size ≤ 0 then pos
  else
    let take := min fill.size pos.size
    let proportion := take / pos.size
    let costChunk := pos.costBasisUsd * proportion
    let proceeds := fill.price * take
    let pnl := match pos.side with
      | .buy => proceeds - costChunk
      | .sell => costChunk - proceeds
    let size := pos.size - take
    { pos with
      realizedPnlUsd := pos.realizedPnlUsd + (pnl - fill.feeUsd)
      feesPaidUsd := pos.feesPaidUsd + fill.feeUsd
      size := size
      costBasisUsd := pos.costBasisUsd - costChunk
      fillCount := pos.fillCount + 1
      closedAt := if size ≤ dust then some fill.occurredAt else pos.closedAt }

def mark (pos : Position) (price : ℚ) (moment : Instant) : Position :=
  { pos with lastMarkPrice := some price, lastMarkAt := some moment }

def unrealizedPnlUsd (pos : Position) : ℚ :=
  match pos.lastMarkPrice with
  | none => 0
  | some price =>
    if pos.size ≤ 0 then 0
    else match pos.side with
      | .buy => pos.size * (price - pos.entryPrice)
      | .sell => pos.size * (pos.entryPrice - price)

/-- What an open position adds to wealth: its marked value when long, minus that when short. -/
def marketValue (pos : Position) : ℚ :=
  if pos.size ≤ 0 then 0
  else
    let positionValue := pos.size * pos.lastMarkPrice.getD pos.entryPrice
    match pos.side with
    | .buy => positionValue
    | .sell => -positionValue

/-- The price exposure is measured at: a mark of zero counts as no mark. -/
def exposurePrice (pos : Position) : ℚ :=
  match pos.lastMarkPrice with
  | some price => if price = 0 then pos.entryPrice else price
  | none => pos.entryPrice

def exposureUsd (pos : Position) : ℚ := pos.size * pos.exposurePrice

end Position

abbrev PositionKey := String × Side × Option String

structure Portfolio where
  config : PortfolioConfig
  cashUsd : ℚ
  peakEquityUsd : ℚ
  positions : Dict PositionKey Position
  closedPositions : List Position
  equityHistory : List (Instant × ℚ)
  cashHistory : List (Instant × ℚ)
  resolutionFeesPaidUsd : ℚ

namespace Portfolio

def new (config : PortfolioConfig) : Portfolio where
  config := config
  cashUsd := config.initialCapitalUsd
  peakEquityUsd := config.initialCapitalUsd
  positions := Dict.empty
  closedPositions := []
  equityHistory := []
  cashHistory := []
  resolutionFeesPaidUsd := 0

def equityUsd (book : Portfolio) : ℚ := book.cashUsd + book.positions.sumBy Position.marketValue

def grossExposureUsd (book : Portfolio) : ℚ := book.positions.sumBy Position.exposureUsd

def realizedPnlUsd (book : Portfolio) : ℚ :=
  (book.closedPositions.map Position.realizedPnlUsd).sum + book.positions.sumBy Position.realizedPnlUsd

def unrealizedPnlUsd (book : Portfolio) : ℚ := book.positions.sumBy Position.unrealizedPnlUsd

def totalPnlUsd (book : Portfolio) : ℚ := book.realizedPnlUsd + book.unrealizedPnlUsd

/-- Why the pre-trade gate refuses an order, with the amounts its message prints. -/
inductive SubmitRefusal where
  | insufficientCash (cash notional : ℚ)
  | grossExposureCap (exposure cap : ℚ)
  | perMarketCap (exposure cap : ℚ)
  | perStrategyCap (exposure cap : ℚ)
  | maxOpenPositions
  deriving DecidableEq

def gateSlack : ℚ := 1 / 10 ^ 9

/-- A cap on an exposure; `none` is unlimited. -/
def capRefusal (cap : Option ℚ) (exposure : ℚ) (refusal : ℚ → ℚ → SubmitRefusal) : Option SubmitRefusal :=
  cap.bind fun limit => if limit + gateSlack < exposure then some (refusal exposure limit) else none

/-- The pre-trade gate; `none` admits the order. -/
def canSubmit (book : Portfolio) (tokenId : String) (side : Side) (price size : ℚ)
    (strategySlug : Option String) : Option SubmitRefusal :=
  let notional := max 0 (price * size)
  let exposureOn (chosen : PositionKey × Position → Bool) : ℚ :=
    ((book.positions.entries.filter chosen).map fun entry => entry.2.exposureUsd).sum
  let cash :=
    if side = .buy ∧ book.cashUsd + gateSlack < notional then
      some (SubmitRefusal.insufficientCash book.cashUsd notional)
    else none
  let gross := capRefusal book.config.maxGrossExposureUsd (book.grossExposureUsd + notional) .grossExposureCap
  let perMarket := capRefusal book.config.maxPerMarketNotionalUsd
    (exposureOn (fun entry => entry.1.1 = tokenId) + notional) .perMarketCap
  let perStrategy := match strategySlug with
    | none => none
    | some slug =>
      if slug = "" then none
      else capRefusal book.config.maxPerStrategyNotionalUsd
        (exposureOn (fun entry => entry.2.strategySlug = some slug) + notional) .perStrategyCap
  let openPositions := book.config.maxOpenPositions.bind fun limit =>
    if limit ≤ book.positions.entries.length ∧ book.positions.get? (tokenId, side, strategySlug) = none then
      some SubmitRefusal.maxOpenPositions
    else none
  cash.or (gross.or (perMarket.or (perStrategy.or openPositions)))

/-- Cash after a closing fill: a long that sells receives the proceeds, a short that covers pays the cost. -/
def cashAfterClose (cash : ℚ) (pos : Position) (fill : Fill) : ℚ :=
  match pos.side with
  | .buy => cash + (fill.notionalUsd - fill.feeUsd)
  | .sell => cash - (fill.notionalUsd + fill.feeUsd)

def closeResolutionFee (config : PortfolioConfig) (gained : ℚ) : ℚ :=
  match config.feeModel with
  | none => 0
  | some fees => if 0 < gained then fees.resolutionFee gained else 0

def applyClosing (book : Portfolio) (key : PositionKey) (pos : Position) (fill : Fill) : Portfolio :=
  let reduced := pos.applyCloseFill fill
  let resFee := closeResolutionFee book.config (reduced.realizedPnlUsd - pos.realizedPnlUsd)
  let charged := { reduced with
    feesPaidUsd := reduced.feesPaidUsd + resFee
    realizedPnlUsd := reduced.realizedPnlUsd - resFee }
  let settled := { book with
    cashUsd := cashAfterClose book.cashUsd reduced fill - resFee
    resolutionFeesPaidUsd := book.resolutionFeesPaidUsd + resFee }
  if charged.size ≤ dust then
    { settled with
      closedPositions := book.closedPositions ++ [charged]
      positions := book.positions.erase key }
  else
    { settled with positions := book.positions.set key charged }

def applyOpening (book : Portfolio) (fill : Fill) (strategySlug : Option String) : Portfolio :=
  let key := (fill.tokenId, fill.side, strategySlug)
  let pos := (book.positions.get? key).getD
    { tokenId := fill.tokenId, side := fill.side, strategySlug := strategySlug }
  { book with
    positions := book.positions.set key (pos.applyOpenFill fill)
    cashUsd := match fill.side with
      | .buy => book.cashUsd - (fill.notionalUsd + fill.feeUsd)
      | .sell => book.cashUsd + (fill.notionalUsd - fill.feeUsd) }

/-- A fill closes the opposing position when there is one, and opens or scales its own side otherwise. -/
def applyFill (book : Portfolio) (fill : Fill) (strategySlug : Option String) : Portfolio :=
  let oppKey := (fill.tokenId, fill.side.opposing, strategySlug)
  match book.positions.get? oppKey with
  | some pos => book.applyClosing oppKey pos fill
  | none => book.applyOpening fill strategySlug

def mark (book : Portfolio) (tokenId : String) (price : ℚ) (moment : Instant) : Portfolio :=
  let marked := { book with
    positions := book.positions.mapValues fun key pos => if key.1 = tokenId then pos.mark price moment else pos }
  let equity := marked.equityUsd
  { marked with
    peakEquityUsd := max book.peakEquityUsd equity
    equityHistory := book.equityHistory ++ [(moment, equity)]
    cashHistory := book.cashHistory ++ [(moment, book.cashUsd)] }

end Portfolio

end Callisto.Backtest
