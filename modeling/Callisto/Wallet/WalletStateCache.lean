import Mathlib.Algebra.Order.Field.Rat
import Mathlib.Data.Finset.Card
import Mathlib.Tactic.Linarith
import Callisto.Library.Dict

/-! The wallet cache that the trade events of the user channel feed. -/

namespace Callisto.Wallet

open Callisto.Library

inductive Side where
  | buy
  | sell
  deriving DecidableEq

inductive TradeStatus where
  | matched
  | mined
  | confirmed
  | failed
  | other
  deriving DecidableEq

structure WalletPosition where
  tokenId : String
  conditionId : String
  size : ℚ := 0
  costBasisUsd : ℚ := 0
  isResolved : Bool := false

structure WalletFill where
  tradeId : String
  orderId : String
  tokenId : String
  conditionId : String
  side : Side
  price : ℚ
  size : ℚ
  status : TradeStatus
  confirmed : Bool := false

/-- A `trade` event as it is parsed; a side that is neither is none. -/
structure TradeEvent where
  id : String
  owner : String := ""
  assetId : String
  market : String := ""
  takerOrderId : String := ""
  side : Option Side
  price : ℚ
  size : ℚ
  status : TradeStatus

def maxRecentFills : ℕ := 1000

structure WalletStateCache where
  walletAddress : String
  positions : Dict String WalletPosition := Dict.empty
  conditionToTokenIds : Dict String (Finset String) := Dict.empty
  recentFills : List WalletFill := []
  appliedTradeIds : List String := []
  appliedTradeIdSet : Finset String := ∅
  tradesApplied : ℕ := 0

def pushBounded {α : Type} (limit : ℕ) (items : List α) (item : α) : List α := (items ++ [item]).drop (items.length + 1 - limit)

def evict (limit : ℕ) : List String → Finset String → List String × Finset String
  | [], known => ([], known)
  | old :: rest, known => if limit < known.card then evict limit rest (known.erase old) else (old :: rest, known)

/-- A buy adds its notional; a sale takes cost off at the average, and no more than there is. -/
def WalletPosition.fill (position : WalletPosition) (side : Side) (price size : ℚ) : WalletPosition :=
  match side with
  | .buy => { position with size := position.size + size, costBasisUsd := position.costBasisUsd + price * size }
  | .sell =>
    if 0 < position.size then
      let average := position.costBasisUsd / position.size
      let reduction := min size position.size
      if position.size - reduction ≤ 0 then { position with size := 0, costBasisUsd := 0 }
      else { position with size := position.size - reduction, costBasisUsd := position.costBasisUsd - average * reduction }
    else position

def WalletPosition.reverse (position : WalletPosition) (side : Side) (price size : ℚ) : WalletPosition :=
  let changed : WalletPosition := match side with
    | .buy =>
      let reduction := min size position.size
      let average := if 0 < position.size then position.costBasisUsd / position.size else price
      { position with size := position.size - reduction, costBasisUsd := position.costBasisUsd - average * reduction }
    | .sell => { position with size := position.size + size, costBasisUsd := position.costBasisUsd + price * size }
  if changed.size ≤ 0 then { changed with size := 0, costBasisUsd := 0 } else changed

namespace WalletStateCache

def findRecentFillByTradeId (cache : WalletStateCache) (tradeId : String) : Option WalletFill :=
  cache.recentFills.find? fun fill => fill.tradeId = tradeId

def restatus (tradeId : String) (status : TradeStatus) : List WalletFill → List WalletFill
  | [] => []
  | fill :: rest =>
    if fill.tradeId = tradeId then { fill with status, confirmed := fill.confirmed || decide (status = .confirmed) } :: rest
    else fill :: restatus tradeId status rest

def indexCondition (index : Dict String (Finset String)) (conditionId tokenId : String) : Dict String (Finset String) :=
  index.set conditionId (insert tokenId ((index.get? conditionId).getD ∅))

def removePosition (cache : WalletStateCache) (tokenId : String) : WalletStateCache :=
  match cache.positions.get? tokenId with
  | none => cache
  | some position =>
    let tokens := ((cache.conditionToTokenIds.get? position.conditionId).getD ∅).erase tokenId
    { cache with
      positions := cache.positions.erase tokenId
      conditionToTokenIds :=
        if position.conditionId = "" then cache.conditionToTokenIds
        else if tokens = ∅ then cache.conditionToTokenIds.erase position.conditionId
        else cache.conditionToTokenIds.set position.conditionId tokens }

/-- The position of a token that is changed, and removed where nothing is left of it. -/
def putPosition (cache : WalletStateCache) (tokenId : String) (position : WalletPosition) : WalletStateCache :=
  let cache := { cache with positions := cache.positions.set tokenId position }
  if position.size ≤ 0 ∧ position.isResolved = false then cache.removePosition tokenId else cache

def applyFill (cache : WalletStateCache) (tradeId orderId tokenId conditionId : String) (side : Side) (price size : ℚ)
    (status : TradeStatus) : WalletStateCache :=
  let known := (cache.positions.get? tokenId).getD { tokenId, conditionId }
  let position := { known with conditionId := if conditionId = "" then known.conditionId else conditionId }
  let evicted := evict (maxRecentFills * 2) (pushBounded (maxRecentFills * 2) cache.appliedTradeIds tradeId)
    (insert tradeId cache.appliedTradeIdSet)
  putPosition
    { cache with
      conditionToTokenIds :=
        if conditionId = "" ∨ (cache.positions.get? tokenId).isSome ∧ known.conditionId = conditionId then cache.conditionToTokenIds
        else indexCondition cache.conditionToTokenIds conditionId tokenId
      recentFills := pushBounded maxRecentFills cache.recentFills ⟨tradeId, orderId, tokenId, conditionId, side, price, size, status, false⟩
      appliedTradeIds := evicted.1
      appliedTradeIdSet := evicted.2 }
    tokenId (WalletPosition.fill position side price size)

/-- A trade that was not applied, has no record any more or whose position is gone is left alone. -/
def reverseFill (cache : WalletStateCache) (tradeId : String) : WalletStateCache :=
  if tradeId ∉ cache.appliedTradeIdSet then cache
  else
    match cache.findRecentFillByTradeId tradeId with
    | none => cache
    | some fill =>
      match cache.positions.get? fill.tokenId with
      | none => cache
      | some position =>
        putPosition
          { cache with
            appliedTradeIdSet := cache.appliedTradeIdSet.erase tradeId
            recentFills := restatus tradeId .failed cache.recentFills }
          fill.tokenId (WalletPosition.reverse position fill.side fill.price fill.size)

def book (cache : WalletStateCache) (event : TradeEvent) (side : Side) : WalletStateCache :=
  if event.status = .failed then cache.reverseFill event.id
  else if event.id ∉ cache.appliedTradeIdSet ∧ event.status ∈ [.matched, .mined, .confirmed] then
    cache.applyFill event.id event.takerOrderId event.assetId event.market side event.price event.size event.status
  else cache

def applyTrade (cache : WalletStateCache) (event : TradeEvent) : WalletStateCache :=
  match event.side with
  | none => cache
  | some side =>
    if event.id = "" then cache
    else if cache.walletAddress ≠ "" ∧ event.owner ≠ "" ∧ event.owner ≠ cache.walletAddress then cache
    else if event.assetId = "" ∨ event.price ≤ 0 ∨ event.size ≤ 0 then cache
    else
      let cache := cache.book event side
      { cache with recentFills := restatus event.id event.status cache.recentFills, tradesApplied := cache.tradesApplied + 1 }

end WalletStateCache

end Callisto.Wallet
