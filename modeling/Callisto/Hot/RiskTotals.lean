import Mathlib.Data.Finset.Card
import Mathlib.Data.Finset.Image
import Mathlib.Tactic.Linarith
import Callisto.Hot.TraderHotState

/-! The totals that the risk gate reads: views over the active orders, daily profit and loss, and the streak of losses. The float
totals are exact rationals here, so nothing is said about rounding. -/

namespace Callisto.Hot

open Callisto.Library
open Callisto.Ws (strip)

structure ActiveLeg where
  tokenId : String
  entryPrice : ℚ
  quantity : ℚ
  direction : String
  notional : ℚ

structure TrackedOrder where
  marketId : String
  sourceKey : String
  copyWallet : String
  notional : ℚ
  positionKey : Option (String × String × String)
  isUnfilled : Bool
  leg : Option ActiveLeg
  notional_nonneg : 0 ≤ notional

structure OrderViews where
  openOrderKeys : Finset (String × String × String) := ∅
  openOrderIds : Finset String := ∅
  openOrderCount : ℕ := 0
  occupiedMarketIds : Finset String := ∅
  grossNotional : ℚ := 0
  marketNotional : Dict String ℚ := Dict.empty
  sourceNotional : Dict String ℚ := Dict.empty
  copyLeaderNotional : Dict String ℚ := Dict.empty
  activeOrderLegs : Dict String ActiveLeg := Dict.empty

structure RiskSnapshot where
  openPositionMarketIds : Finset String := ∅
  activeOrders : Dict String TrackedOrder := Dict.empty
  views : OrderViews := {}
  dailyRealizedPnl : ℚ := 0
  dailyPnlDate : Option ℕ := none
  dailyRealizedOrderPnl : Dict String ℚ := Dict.empty
  resolvedOrderStatuses : Dict String String := Dict.empty
  resolvedOrderThesisLosses : Dict String Bool := Dict.empty
  consecutiveLosses : ℕ := 0

def addNotional (label : TrackedOrder → String) (totals : Dict String ℚ) (tracked : TrackedOrder) : Dict String ℚ :=
  if 0 < tracked.notional ∧ label tracked ≠ "" then
    totals.set (label tracked) ((totals.get? (label tracked)).getD 0 + tracked.notional)
  else totals

def notionalBy (label : TrackedOrder → String) (orders : List TrackedOrder) : Dict String ℚ :=
  orders.foldl (addNotional label) Dict.empty

/-- `_rebuild_snapshot_order_views` -/
def RiskSnapshot.rebuildOrderViews (snap : RiskSnapshot) : RiskSnapshot :=
  let orders := snap.activeOrders.values
  let unfilled := ((snap.activeOrders.entries.filter fun entry => entry.2.isUnfilled).map Prod.fst).toFinset
  { snap with views :=
    { openOrderKeys := (orders.filterMap TrackedOrder.positionKey).toFinset
      openOrderIds := unfilled
      openOrderCount := unfilled.card
      occupiedMarketIds := snap.openPositionMarketIds ∪ ((orders.map TrackedOrder.marketId).filter fun market => market ≠ "").toFinset
      grossNotional := orders.foldl (fun total tracked => if 0 < tracked.notional then total + tracked.notional else total) 0
      marketNotional := notionalBy TrackedOrder.marketId orders
      sourceNotional := notionalBy TrackedOrder.sourceKey orders
      copyLeaderNotional := notionalBy TrackedOrder.copyWallet orders
      activeOrderLegs := snap.activeOrders.entries.foldl
        (fun legs entry => match entry.2.leg with
          | some leg => legs.set entry.1 leg
          | none => legs) Dict.empty } }

def hotUnfilledOrderStatuses : List String :=
  ["pending", "placing", "submitted", "open", "working", "partial", "hedging", "partially_filled"]

def realizedWinOrderStatuses : List String := ["resolved_win", "closed_win", "win"]

/-- What the payload of a closed order says of its close, each in its first non-empty place. -/
structure ClosePayload where
  closeTrigger : String := ""
  priceSource : String := ""
  walletActivityType : String := ""

section
variable (lower : String → String)

/-- `order_loss_counts_for_consecutive_halt`, for a status key -/
def orderLossCountsForConsecutiveHalt (status : String) (payload : ClosePayload) : Bool :=
  if status ∈ ["resolved_loss", "loss"] then true
  else if status ≠ "closed_loss" then false
  else if statusKey lower payload.closeTrigger ∈ ["resolution", "resolution_extreme_mark", "resolution_inferred", "wallet_absent_resolution"] ∨
      "resolution".toList.isPrefixOf (statusKey lower payload.closeTrigger).toList then true
  else if "resolution".toList <:+: (statusKey lower payload.priceSource).toList ∨
      "redeem".toList <:+: (statusKey lower payload.priceSource).toList then true
  else decide (statusKey lower payload.walletActivityType ∈ ["redeem", "redemption", "redeemed"])

/-- The arguments of `upsert_active_order`, with the active notional, the scope key and the wallet that are read from
the payload. -/
structure UpsertArgs where
  status : String
  marketId : String
  direction : String
  source : String
  notionalUsd : ℚ
  entryPrice : ℚ
  tokenId : String
  filledShares : ℚ
  copySourceWallet : String
  liveActiveNotional : ℚ
  positionKey : Option (String × String × String)
  payloadWallet : String

def UpsertArgs.tracked (args : UpsertArgs) : TrackedOrder :=
  let activeNotional := if args.liveActiveNotional ≤ 0 then |args.notionalUsd| else args.liveActiveNotional
  let quantity := if 0 < args.filledShares then args.filledShares
    else if 0 < args.entryPrice then args.notionalUsd / args.entryPrice else 0
  let tokenId := strip args.tokenId
  { marketId := strip args.marketId
    sourceKey := lower (strip args.source)
    copyWallet := if args.copySourceWallet ≠ "" then lower (strip args.copySourceWallet) else args.payloadWallet
    notional := max 0 activeNotional
    positionKey := args.positionKey
    isUnfilled := decide (statusKey lower args.status ∈ hotUnfilledOrderStatuses)
    leg :=
      if tokenId ≠ "" ∧ 0 < args.entryPrice ∧ 0 < quantity then
        some ⟨tokenId, args.entryPrice, quantity, lower (strip args.direction), activeNotional⟩
      else none
    notional_nonneg := le_max_left _ _ }

inductive RiskCall where
  | upsertActiveOrder (traderId mode orderId : String) (args : UpsertArgs)
  | recordOrderResolved (traderId mode orderId status : String) (actualProfit : ℚ) (payload : ClosePayload) (resolvedOn : ℕ)
  | recordOrderCancelled (traderId mode orderId : String)

def RiskSnapshot.rollDay (snap : RiskSnapshot) (today : ℕ) : RiskSnapshot :=
  if snap.dailyPnlDate = some today then snap
  else { snap with
    dailyRealizedPnl := 0
    dailyPnlDate := some today
    dailyRealizedOrderPnl := Dict.empty
    resolvedOrderStatuses := Dict.empty
    resolvedOrderThesisLosses := Dict.empty }

def RiskSnapshot.pnlDelta (snap : RiskSnapshot) (orderId : String) (profit : ℚ) : ℚ :=
  match snap.dailyRealizedOrderPnl.get? orderId with
  | some previousProfit => profit - previousProfit
  | none => profit

def RiskSnapshot.recordPnl (snap : RiskSnapshot) (orderId : String) (profit : ℚ) : RiskSnapshot :=
  { snap with
    dailyRealizedOrderPnl := if orderId = "" then snap.dailyRealizedOrderPnl else snap.dailyRealizedOrderPnl.set orderId profit
    dailyRealizedPnl := snap.dailyRealizedPnl + snap.pnlDelta orderId profit }

/-- The status and the thesis loss of an order as they were last recorded on this day. -/
def RiskSnapshot.previous (snap : RiskSnapshot) (orderId : String) : Option String × Bool :=
  (snap.resolvedOrderStatuses.get? orderId, (snap.resolvedOrderThesisLosses.get? orderId).getD false)

def isWin (status : Option String) : Bool := decide (∃ key ∈ status, key ∈ realizedWinOrderStatuses)

def RiskSnapshot.recordStreak (snap : RiskSnapshot) (orderId status : String) (countsAsThesisLoss : Bool) : RiskSnapshot :=
  let previous := snap.previous orderId
  let recorded := { snap with
    resolvedOrderStatuses := if orderId = "" then snap.resolvedOrderStatuses else snap.resolvedOrderStatuses.set orderId status
    resolvedOrderThesisLosses :=
      if orderId = "" then snap.resolvedOrderThesisLosses else snap.resolvedOrderThesisLosses.set orderId countsAsThesisLoss }
  if previous.1 = some status ∧ previous.2 = countsAsThesisLoss then recorded
  else if countsAsThesisLoss = true ∧ previous.2 = false then { recorded with consecutiveLosses := recorded.consecutiveLosses + 1 }
  else if isWin (some status) = true ∧ isWin previous.1 = false then { recorded with consecutiveLosses := 0 }
  else recorded

structure RiskState where
  snapshots : Dict SnapshotKey RiskSnapshot := Dict.empty
  globalGross : Dict String ℚ := Dict.empty
  globalDailyPnl : Dict String ℚ := Dict.empty
  globalDailyPnlDate : Dict String ℕ := Dict.empty

namespace RiskState

/-- `_ensure_snapshot` -/
def snapshotOf (state : RiskState) (key : SnapshotKey) : RiskSnapshot := (state.snapshots.get? key).getD {}

def grossOf (snapshots : Dict SnapshotKey RiskSnapshot) (mode : String) : ℚ :=
  snapshots.sumEntries fun key snap => if key.2 = mode then snap.views.grossNotional else 0

/-- The orders of a snapshot are changed, its views rebuilt, and the exposure of its mode summed again. -/
def setOrders (state : RiskState) (key : SnapshotKey) (orders : Dict String TrackedOrder) : RiskState :=
  let snapshots := state.snapshots.set key { state.snapshotOf key with activeOrders := orders }.rebuildOrderViews
  { state with snapshots, globalGross := state.globalGross.set key.2 (grossOf snapshots key.2) }

/-- The part of `record_order_resolved` after the orders. -/
def realize (state : RiskState) (key : SnapshotKey) (today : ℕ) (orderId status : String) (profit : ℚ) (countsAsThesisLoss : Bool) : RiskState :=
  let day := (state.snapshotOf key).rollDay today
  let before := if state.globalDailyPnlDate.get? key.2 = some today then (state.globalDailyPnl.get? key.2).getD 0 else 0
  { state with
    snapshots := state.snapshots.set key ((day.recordPnl orderId profit).recordStreak orderId status countsAsThesisLoss)
    globalDailyPnl := state.globalDailyPnl.set key.2 (before + day.pnlDelta orderId profit)
    globalDailyPnlDate := state.globalDailyPnlDate.set key.2 today }

def call (state : RiskState) (today : ℕ) : RiskCall → RiskState
  | .upsertActiveOrder traderId mode orderId args =>
    let key : SnapshotKey := (traderId, modeKey lower mode)
    if strip orderId = "" then { state with snapshots := state.snapshots.set key (state.snapshotOf key) }
    else state.setOrders key ((state.snapshotOf key).activeOrders.set (strip orderId) (args.tracked lower))
  | .recordOrderResolved traderId mode orderId status actualProfit payload resolvedOn =>
    let key : SnapshotKey := (traderId, modeKey lower mode)
    let popped := state.setOrders key ((state.snapshotOf key).activeOrders.erase (strip orderId))
    if isRealizedStatus lower status ∧ resolvedOn = today then
      popped.realize key today (strip orderId) (statusKey lower status) actualProfit
        (orderLossCountsForConsecutiveHalt lower (statusKey lower status) payload)
    else popped
  | .recordOrderCancelled traderId mode orderId =>
    let key : SnapshotKey := (traderId, modeKey lower mode)
    match state.snapshots.get? key with
    | none => state
    | some snap => state.setOrders key (snap.activeOrders.erase (strip orderId))

def getGrossExposure (state : RiskState) (mode : String) : ℚ := (state.globalGross.get? (modeKey lower mode)).getD 0

def pnlOn (snap : RiskSnapshot) (today : ℕ) : ℚ := if snap.dailyPnlDate = some today then snap.dailyRealizedPnl else 0

def getDailyRealizedPnl (state : RiskState) (traderId : Option String) (mode : String) (today : ℕ) : ℚ :=
  match traderId with
  | none =>
    if state.globalDailyPnlDate.get? (modeKey lower mode) = some today then (state.globalDailyPnl.get? (modeKey lower mode)).getD 0 else 0
  | some traderId =>
    match state.snapshots.get? (traderId, modeKey lower mode) with
    | none => 0
    | some snap => pnlOn snap today

def getConsecutiveLossCount (state : RiskState) (traderId mode : String) : ℕ :=
  match state.snapshots.get? (traderId, modeKey lower mode) with
  | none => 0
  | some snap => snap.consecutiveLosses

end RiskState

end

structure Shows (views : OrderViews) (orders : Dict String TrackedOrder) : Prop where
  gross : views.grossNotional = orders.sumBy TrackedOrder.notional
  market : ∀ label, label ≠ "" →
    (views.marketNotional.get? label).getD 0 = orders.sumBy fun tracked => if tracked.marketId = label then tracked.notional else 0
  source : ∀ label, label ≠ "" →
    (views.sourceNotional.get? label).getD 0 = orders.sumBy fun tracked => if tracked.sourceKey = label then tracked.notional else 0
  leader : ∀ label, label ≠ "" →
    (views.copyLeaderNotional.get? label).getD 0 = orders.sumBy fun tracked => if tracked.copyWallet = label then tracked.notional else 0
  ids : ∀ orderId, orderId ∈ views.openOrderIds ↔ ∃ tracked, orders.get? orderId = some tracked ∧ tracked.isUnfilled = true
  count : views.openOrderCount = views.openOrderIds.card

theorem notionalBy_getD (label : TrackedOrder → String) (orders : List TrackedOrder) {name : String} (named : name ≠ "")
    (totals : Dict String ℚ) : ((orders.foldl (addNotional label) totals).get? name).getD 0 =
      (totals.get? name).getD 0 + (orders.map fun tracked => if label tracked = name then tracked.notional else 0).sum := by
  induction orders generalizing totals with
  | nil => simp
  | cons tracked rest ih =>
    rw [List.foldl_cons, ih, List.map_cons, List.sum_cons]
    have nonneg := tracked.notional_nonneg
    by_cases counts : 0 < tracked.notional ∧ label tracked ≠ ""
    · rw [addNotional, if_pos counts, Dict.get?_set]
      by_cases same : label tracked = name
      · rw [if_pos same, if_pos same, Option.getD_some, same, add_assoc]
      · rw [if_neg same, if_neg same, zero_add]
    · rw [addNotional, if_neg counts]
      by_cases same : label tracked = name
      · have free : tracked.notional = 0 := by
          by_contra some_notional
          exact counts ⟨lt_of_le_of_ne nonneg (Ne.symm some_notional), by rwa [same]⟩
        rw [if_pos same, free, zero_add]
      · rw [if_neg same, zero_add]

theorem foldl_notional (orders : List TrackedOrder) (total : ℚ) :
    orders.foldl (fun total tracked => if 0 < tracked.notional then total + tracked.notional else total) total =
      total + (orders.map TrackedOrder.notional).sum := by
  induction orders generalizing total with
  | nil => simp
  | cons tracked rest ih =>
    rw [List.foldl_cons, ih, List.map_cons, List.sum_cons]
    by_cases positive : 0 < tracked.notional
    · rw [if_pos positive, add_assoc]
    · have free : tracked.notional = 0 := le_antisymm (not_lt.1 positive) tracked.notional_nonneg
      rw [if_neg positive, free, zero_add]

theorem shows_rebuild (snap : RiskSnapshot) : Shows snap.rebuildOrderViews.views snap.activeOrders := by
  have labelled : ∀ (label : TrackedOrder → String) (name : String), name ≠ "" →
      ((notionalBy label snap.activeOrders.values).get? name).getD 0 =
        snap.activeOrders.sumBy fun tracked => if label tracked = name then tracked.notional else 0 := by
    intro label name named
    have total := notionalBy_getD label snap.activeOrders.values named Dict.empty
    rw [Dict.get?_empty, Option.getD_none, zero_add] at total
    exact total
  constructor
  · have total := foldl_notional snap.activeOrders.values 0
    rw [zero_add] at total
    exact total
  · exact labelled TrackedOrder.marketId
  · exact labelled TrackedOrder.sourceKey
  · exact labelled TrackedOrder.copyWallet
  · intro orderId
    simp only [RiskSnapshot.rebuildOrderViews, List.mem_toFinset, List.mem_map, List.mem_filter]
    constructor
    · rintro ⟨entry, ⟨member, unfilled⟩, rfl⟩
      exact ⟨entry.2, Dict.get?_of_mem member, unfilled⟩
    · rintro ⟨tracked, found, unfilled⟩
      exact ⟨(orderId, tracked), ⟨Dict.mem_of_find found, unfilled⟩, rfl⟩
  · rfl

end Callisto.Hot
