import Mathlib.Data.Rat.Cast.Order
import Callisto.Library.Lots
import Callisto.Library.Traversals
import Callisto.Wallet.WalletStateCache
import Callisto.Ws.Payload

/-! The realized gains of a market's trades, matched first in, first out. -/

namespace Callisto.Wallet

open Callisto.Library
open Callisto.Ws (strip)

section Definitions

variable {τ : Type}

inductive RawTimestamp (τ : Type) where
  | moment (value : τ)
  | number (value : ℚ)
  | text (value : String)

/-- `datetime.fromtimestamp`, `float`, `datetime.strptime`, `str.upper` and `timedelta.total_seconds`. -/
structure TimestampRules (τ : Type) where
  fromEpoch : ℚ → τ
  parseFloat : String → Option ℚ
  strptime : String → String → Option τ
  upper : String → String
  secondsBetween : τ → τ → ℚ

def RawTimestamp.isTruthy : RawTimestamp τ → Bool
  | .moment _ => true
  | .number value => decide (value ≠ 0)
  | .text value => decide (value ≠ "")

def isoFormats : List String :=
  ["%Y-%m-%dT%H:%M:%S.%fZ", "%Y-%m-%dT%H:%M:%SZ", "%Y-%m-%dT%H:%M:%S.%f", "%Y-%m-%dT%H:%M:%S", "%Y-%m-%d %H:%M:%S.%f", "%Y-%m-%d %H:%M:%S"]

namespace TimestampRules

variable (rules : TimestampRules τ)

def fromNumber (value : ℚ) : τ := rules.fromEpoch (if 10 ^ 12 < value then value / 1000 else value)

/-- `_parse_ts` -/
def parseTs : Option (RawTimestamp τ) → Option τ
  | none => none
  | some (.moment value) => some value
  | some (.number value) => some (rules.fromNumber value)
  | some (.text value) =>
    if strip value = "" then none
    else match rules.parseFloat (strip value) with
      | some number => some (rules.fromNumber number)
      | none => isoFormats.findSome? fun format => rules.strptime (strip value) format

end TimestampRules

structure RawTrade (τ : Type) where
  timestamp : Option (RawTimestamp τ)
  createdAt : Option (RawTimestamp τ)
  price : Option ℚ
  size : Option ℚ
  amount : Option ℚ
  side : Option String

structure Trade (τ : Type) where
  ts : τ
  price : ℚ
  size : ℚ
  side : Side

def TimestampRules.parseTrade (rules : TimestampRules τ) (trade : RawTrade τ) : Option (Trade τ) :=
  match rules.parseTs ((trade.timestamp.filter RawTimestamp.isTruthy).or trade.createdAt) with
  | none => none
  | some ts =>
    let price := trade.price.getD 0
    let size := if trade.size.getD 0 ≠ 0 then trade.size.getD 0 else trade.amount.getD 0
    let side := rules.upper (trade.side.getD "")
    if size ≤ 0 then none
    else if side = "BUY" then some ⟨ts, price, size, .buy⟩
    else if side = "SELL" then some ⟨ts, price, size, .sell⟩
    else none

structure TradeLot (τ : Type) where
  openTs : τ
  closeTs : Option τ
  entryPrice : ℚ
  exitPrice : Option ℚ
  size : ℚ
  side : String
  marketId : String
  realizedPnl : Option ℚ

structure FIFOResult (τ : Type) where
  closedLots : List (TradeLot τ)
  openLots : List (TradeLot τ)
  totalRealizedPnl : ℚ
  totalTrades : ℕ
  winningLots : ℕ
  losingLots : ℕ
  avgHoldSeconds : ℚ
  accuracy : ℚ

/-- `_empty_result` -/
def emptyResult : FIFOResult τ := ⟨[], [], 0, 0, 0, 0, 0, 0⟩

/-- `_OpenLot` -/
structure OpenLot (τ : Type) where
  ts : τ
  price : ℚ
  remaining : ℚ

structure FifoState (τ : Type) where
  buyQueue : List (OpenLot τ) := []
  closedLots : List (TradeLot τ) := []
  totalRealized : ℚ := 0

variable (dust : ℚ) (marketId : String)

def closedLot (openTs : τ) (entryPrice : ℚ) (sell : Trade τ) (matched : ℚ) : TradeLot τ :=
  { openTs := openTs, closeTs := some sell.ts, entryPrice := entryPrice, exitPrice := some sell.price, size := matched, side := "buy",
    marketId := marketId, realizedPnl := some ((sell.price - entryPrice) * matched) }

def openLot (lot : OpenLot τ) : TradeLot τ :=
  { openTs := lot.ts, closeTs := none, entryPrice := lot.price, exitPrice := none, size := lot.remaining, side := "buy",
    marketId := marketId, realizedPnl := none }

/-- Nothing but dust is left of a lot. The cut-off of the code is positive, and then this is `remaining < dust`. -/
def IsDust (remaining : ℚ) : Prop := remaining < dust ∨ remaining ≤ 0

instance : DecidablePred (IsDust dust) := fun _ => inferInstanceAs (Decidable (_ ∨ _))

/-- The oldest buys that a sell is matched against, and the queue that stays. -/
def matchSell (sell : Trade τ) : ℚ → List (OpenLot τ) → List (TradeLot τ) × List (OpenLot τ)
  | _, [] => ([], [])
  | sellRemaining, oldest :: rest =>
    if dust < sellRemaining then
      let matched := min sellRemaining oldest.remaining
      let lot := closedLot marketId oldest.ts oldest.price sell matched
      if IsDust dust (oldest.remaining - matched) then
        let later := matchSell sell (sellRemaining - matched) rest
        (lot :: later.1, later.2)
      -- the lot is larger than what remains of the sell, of which nothing remains then
      else ([lot], { oldest with remaining := oldest.remaining - matched } :: rest)
    else ([], oldest :: rest)

def FifoState.step (state : FifoState τ) (trade : Trade τ) : FifoState τ :=
  match trade.side with
  | .buy => { state with buyQueue := state.buyQueue ++ [⟨trade.ts, trade.price, trade.size⟩] }
  | .sell =>
    let matching := matchSell dust marketId trade trade.size state.buyQueue
    { buyQueue := matching.2
      closedLots := state.closedLots ++ matching.1
      totalRealized := state.totalRealized + (matching.1.map fun lot => lot.realizedPnl.getD 0).sum }

end Definitions

def Trade.event {τ : Type} (trade : Trade τ) : Lots.Event ℚ :=
  match trade.side with
  | .buy => .put trade.size
  | .sell => .draw trade.size

section Matching

variable {τ : Type} {marketId : String} {trades : List (Trade τ)}

def Shows (trades : List (Trade τ)) (lot : OpenLot τ) (entry : ℕ × ℚ) : Prop :=
  ∃ buy, trades[entry.1]? = some buy ∧ lot = ⟨buy.ts, buy.price, entry.2⟩

theorem Shows.concat {lot : OpenLot τ} {entry : ℕ × ℚ} (shows_ : Shows trades lot entry) (trade : Trade τ) : Shows (trades ++ [trade]) lot entry := by
  have ⟨buy, found, same⟩ := shows_
  exact ⟨buy, Lots.getElem?_concat found, same⟩

theorem matchSell_matches (marketId : String) (sell : Trade τ) (wanted : ℚ) {queue : List (OpenLot τ)} {lots : List (ℕ × ℚ)}
    (related : List.Forall₂ (Shows trades) queue lots) :
    List.Forall₂ (fun lot (entry : ℕ × ℚ) => ∃ buy, trades[entry.1]? = some buy ∧ lot = closedLot marketId buy.ts buy.price sell entry.2)
        (matchSell 0 marketId sell wanted queue).1 (Lots.take wanted lots).1 ∧
      List.Forall₂ (Shows trades) (matchSell 0 marketId sell wanted queue).2 (Lots.take wanted lots).2 := by
  induction related generalizing wanted with
  | nil => exact ⟨List.Forall₂.nil, List.Forall₂.nil⟩
  | @cons oldest entry queue lots head rest ih =>
    obtain ⟨buy, found, same⟩ := head
    subst same
    unfold matchSell Lots.take
    by_cases wants : 0 < wanted
    · rw [if_pos wants, if_pos wants]
      dsimp only
      by_cases spent : entry.2 ≤ wanted
      · have gone : IsDust 0 (entry.2 - min wanted entry.2) := Or.inr (by rw [min_eq_right spent, sub_self])
        rw [if_pos gone, if_pos spent, min_eq_right spent]
        obtain ⟨closed, left⟩ := ih (wanted - entry.2)
        exact ⟨List.Forall₂.cons ⟨buy, found, rfl⟩ closed, left⟩
      · have stays : ¬ IsDust 0 (entry.2 - min wanted entry.2) := by
          rw [min_eq_left (not_le.1 spent).le]
          exact not_or.2 ⟨not_lt.2 (sub_nonneg.2 (not_le.1 spent).le), not_le.2 (sub_pos.2 (not_le.1 spent))⟩
        rw [if_neg stays, if_neg spent, min_eq_left (not_le.1 spent).le]
        exact ⟨List.Forall₂.cons ⟨buy, found, rfl⟩ List.Forall₂.nil, List.Forall₂.cons ⟨buy, found, rfl⟩ rest⟩
    · rw [if_neg wants, if_neg wants]
      exact ⟨List.Forall₂.nil, List.Forall₂.cons ⟨buy, found, rfl⟩ rest⟩

/-- The lots of the state are the matches and the queue, by position. -/
structure Follows (trades : List (Trade τ)) (marketId : String) (state : FifoState τ) (matching : Lots.Matching ℚ) : Prop where
  closed : List.Forall₂ (fun lot (pair : Lots.Match ℚ) => ∃ buy sell, trades[pair.source]? = some buy ∧ trades[pair.drain]? = some sell ∧
    lot = closedLot marketId buy.ts buy.price sell pair.size) state.closedLots matching.made
  queued : List.Forall₂ (Shows trades) state.buyQueue matching.queue
  total : state.totalRealized = (state.closedLots.map fun lot => lot.realizedPnl.getD 0).sum

theorem Follows.step {state : FifoState τ} {matching : Lots.Matching ℚ} (follows : Follows trades marketId state matching) (trade : Trade τ) :
    Follows (trades ++ [trade]) marketId (state.step 0 marketId trade) (matching.step (trade.event, trades.length)) := by
  have closed : List.Forall₂ (fun lot (pair : Lots.Match ℚ) => ∃ buy sell, (trades ++ [trade])[pair.source]? = some buy ∧
      (trades ++ [trade])[pair.drain]? = some sell ∧ lot = closedLot marketId buy.ts buy.price sell pair.size)
      state.closedLots matching.made := by
    apply follows.closed.imp
    intro lot pair known
    have ⟨buy, sell, source, drain, same⟩ := known
    exact ⟨buy, sell, Lots.getElem?_concat source, Lots.getElem?_concat drain, same⟩
  have queued := follows.queued.imp fun _ _ known => Shows.concat known trade
  unfold FifoState.step Trade.event
  cases side : trade.side with
  | buy =>
    refine ⟨closed, ?_, follows.total⟩
    apply List.rel_append queued
    exact List.Forall₂.cons ⟨trade, List.getElem?_concat_length, rfl⟩ List.Forall₂.nil
  | sell =>
    have ⟨taken, left⟩ := matchSell_matches marketId trade trade.size queued
    refine ⟨?_, left, ?_⟩
    · apply List.rel_append closed
      rw [List.forall₂_map_right_iff]
      apply taken.imp
      intro lot entry known
      have ⟨buy, source, same⟩ := known
      exact ⟨buy, trade, source, List.getElem?_concat_length, same⟩
    · dsimp only
      rw [List.map_append, List.sum_append, follows.total]

theorem follows_run (marketId : String) (trades : List (Trade τ)) : Follows trades marketId (trades.foldl (FifoState.step 0 marketId) {})
    (Lots.Matching.of (trades.map Trade.event)) := by
  induction trades using List.reverseRecOn with
  | nil => exact ⟨List.Forall₂.nil, List.Forall₂.nil, rfl⟩
  | append_singleton trades trade ih =>
    have later := ih.step trade
    rw [List.foldl_append, List.map_append]
    unfold Lots.Matching.of at later ⊢
    rw [List.zipIdx_append, List.foldl_append, List.length_map, Nat.zero_add]
    exact later

theorem size_pos_of_parseTrade {rules : TimestampRules τ} {raw : RawTrade τ} {trade : Trade τ} (parsed : rules.parseTrade raw = some trade) :
    0 < trade.size := by
  unfold TimestampRules.parseTrade at parsed
  split at parsed
  · cases parsed
  · dsimp only at parsed
    split_ifs at parsed <;> cases parsed <;> exact not_le.1 ‹¬ _ ≤ (0 : ℚ)›

end Matching

variable {τ : Type} [LinearOrder τ]

def sortedTrades (rules : TimestampRules τ) (trades : List (RawTrade τ)) : List (Trade τ) :=
  (trades.filterMap rules.parseTrade).mergeSort fun first second => decide (first.ts ≤ second.ts)

/-- `compute_fifo_pnl`, with the cut-off for dust as a parameter: 1e-12 in the code -/
def computeFifoPnl (rules : TimestampRules τ) (dust : ℚ) (trades : List (RawTrade τ)) (marketId : String) : FIFOResult τ :=
  if trades.isEmpty then emptyResult
  else
    let parsed := sortedTrades rules trades
    let final := parsed.foldl (FifoState.step dust marketId) {}
    let winning := final.closedLots.countP fun lot => lot.realizedPnl.any fun pnl => 0 < pnl
    let losing := final.closedLots.countP fun lot => lot.realizedPnl.any fun pnl => pnl < 0
    let holdSeconds := final.closedLots.filterMap fun lot => lot.closeTs.map fun closeTs => rules.secondsBetween lot.openTs closeTs
    { closedLots := final.closedLots
      openLots := (final.buyQueue.filter fun lot => dust < lot.remaining).map (openLot marketId)
      totalRealizedPnl := final.totalRealized
      totalTrades := parsed.length
      winningLots := winning
      losingLots := losing
      avgHoldSeconds := if holdSeconds = [] then 0 else holdSeconds.sum / holdSeconds.length
      accuracy := if final.closedLots = [] then 0 else winning / final.closedLots.length }

/-- The lots of the result are the matches of the trades, by their positions in the order of time. -/
structure MatchesTrades (trades : List (Trade τ)) (marketId : String) (result : FIFOResult τ) (matching : Lots.Matching ℚ) : Prop where
  fifo : Lots.Fifo (trades.map Trade.event) matching
  closed : List.Forall₂ (fun lot (pair : Lots.Match ℚ) => ∃ buy sell, trades[pair.source]? = some buy ∧ trades[pair.drain]? = some sell ∧
    lot = closedLot marketId buy.ts buy.price sell pair.size) result.closedLots matching.made
  opened : List.Forall₂ (fun lot entry => ∃ buy, trades[entry.1]? = some buy ∧ lot = openLot marketId ⟨buy.ts, buy.price, entry.2⟩)
    result.openLots matching.queue

structure FirstInFirstOut (rules : TimestampRules τ) (trades : List (RawTrade τ)) (marketId : String) (result : FIFOResult τ) : Prop where
  matched : ∃ matching, MatchesTrades (sortedTrades rules trades) marketId result matching ∧
    ∀ pair ∈ matching.made, ∀ (source : ℕ) (size : ℚ), source < pair.source →
      ((sortedTrades rules trades).map Trade.event)[source]? = some (.put size) → matching.matchedFrom source = size
  total : result.totalRealizedPnl = (result.closedLots.map fun lot => lot.exitPrice.getD 0 * lot.size).sum -
    (result.closedLots.map fun lot => lot.entryPrice * lot.size).sum
  chronological : ∀ lot ∈ result.closedLots, ∃ closeTs ∈ lot.closeTs, lot.openTs ≤ closeTs
  permuted : ((trades.filterMap rules.parseTrade).map Trade.ts).Nodup →
    ∀ others, trades.Perm others → computeFifoPnl rules 0 others marketId = result

section Result

theorem exists_related {α β : Type*} {related : α → β → Prop} {first : List α} {second : List β} (all : List.Forall₂ related first second)
    {item : α} (member : item ∈ first) : ∃ other ∈ second, related item other := by
  induction all with
  | nil => cases member
  | cons head rest ih =>
    cases List.mem_cons.1 member with
    | inl same => exact ⟨_, List.mem_cons_self, same ▸ head⟩
    | inr inside =>
      have ⟨other, known, holds⟩ := ih inside
      exact ⟨other, List.mem_cons_of_mem _ known, holds⟩

variable (rules : TimestampRules τ) (trades : List (RawTrade τ)) (marketId : String)

theorem mem_sortedTrades {trade : Trade τ} (member : trade ∈ sortedTrades rules trades) : 0 < trade.size := by
  have ⟨raw, _, parsed⟩ := List.mem_filterMap.1 ((List.mergeSort_perm _ _).subset member)
  exact size_pos_of_parseTrade parsed

theorem sortedTrades_pairwise : (sortedTrades rules trades).Pairwise fun first second => first.ts ≤ second.ts :=
  Library.pairwise_sortedBy Trade.ts _

theorem sortedTrades_perm {others : List (RawTrade τ)} (same : trades.Perm others)
    (distinct : ((trades.filterMap rules.parseTrade).map Trade.ts).Nodup) : sortedTrades rules others = sortedTrades rules trades := by
  have parsed := same.filterMap rules.parseTrade
  have perm : (sortedTrades rules others).Perm (sortedTrades rules trades) :=
    (List.mergeSort_perm _ _).trans (parsed.symm.trans (List.mergeSort_perm _ _).symm)
  have apart : ((sortedTrades rules trades).map Trade.ts).Nodup := ((List.mergeSort_perm _ _).map _).nodup_iff.2 distinct
  apply perm.eq_of_pairwise _ (sortedTrades_pairwise rules others) (sortedTrades_pairwise rules trades)
  intro first second inside member before after
  exact List.inj_on_of_nodup_map apart (perm.subset inside) member (le_antisymm before after)

/-- The lots and the gains of the result are those of the run over the trades by time. -/
theorem computeFifoPnl_run (dust : ℚ) : (computeFifoPnl rules dust trades marketId).closedLots =
      ((sortedTrades rules trades).foldl (FifoState.step dust marketId) {}).closedLots ∧
    (computeFifoPnl rules dust trades marketId).openLots = ((((sortedTrades rules trades).foldl (FifoState.step dust marketId) {}).buyQueue.filter
      fun lot => dust < lot.remaining).map (openLot marketId)) ∧
    (computeFifoPnl rules dust trades marketId).totalRealizedPnl =
      ((sortedTrades rules trades).foldl (FifoState.step dust marketId) {}).totalRealized := by
  unfold computeFifoPnl
  split_ifs with none
  · rw [List.isEmpty_iff.1 none]
    unfold sortedTrades
    rw [List.filterMap_nil, List.mergeSort_nil]
    exact ⟨rfl, rfl, rfl⟩
  · exact ⟨rfl, rfl, rfl⟩

theorem computeFifoPnl_matches : MatchesTrades (sortedTrades rules trades) marketId (computeFifoPnl rules 0 trades marketId)
    (Lots.Matching.of ((sortedTrades rules trades).map Trade.event)) := by
  have follows := follows_run marketId (sortedTrades rules trades)
  have ⟨closed, opened, _⟩ := computeFifoPnl_run rules trades marketId 0
  have positive : ∀ event ∈ (sortedTrades rules trades).map Trade.event, 0 < event.size := by
    intro event member
    have ⟨trade, known, same⟩ := List.mem_map.1 member
    have size : trade.event.size = trade.size := by
      unfold Trade.event
      cases trade.side <;> rfl
    rw [← same, size]
    exact mem_sortedTrades rules trades known
  have fifo := Lots.fifo_run positive
  refine ⟨fifo, closed ▸ follows.closed, ?_⟩
  have held : ∀ lot ∈ ((sortedTrades rules trades).foldl (FifoState.step 0 marketId) {}).buyQueue, decide (0 < lot.remaining) = true := by
    intro lot member
    have ⟨entry, inside, buy, _, same⟩ := exists_related follows.queued member
    rw [same]
    exact decide_eq_true (fifo.queued entry inside).1
  rw [opened, List.filter_eq_self.2 held, List.forall₂_map_left_iff]
  apply follows.queued.imp
  intro lot entry shows_
  have ⟨buy, found, same⟩ := shows_
  exact ⟨buy, found, congrArg _ same⟩

/-- The gains of any trades are matched first in, first out. -/
theorem fifoPnl_firstInFirstOut : FirstInFirstOut rules trades marketId (computeFifoPnl rules 0 trades marketId) := by
  have matched := computeFifoPnl_matches rules trades marketId
  have closing : ∀ lot ∈ (computeFifoPnl rules 0 trades marketId).closedLots, ∃ pair ∈ (Lots.Matching.of
      ((sortedTrades rules trades).map Trade.event)).made, ∃ buy sell, (sortedTrades rules trades)[pair.source]? = some buy ∧
      (sortedTrades rules trades)[pair.drain]? = some sell ∧ lot = closedLot marketId buy.ts buy.price sell pair.size :=
    fun lot member => exists_related matched.closed member
  constructor
  case matched =>
    exact ⟨_, matched, fun pair made source size older found => matched.fifo.exhausted made older found⟩
  case total =>
    have ⟨closed, _, total⟩ := computeFifoPnl_run rules trades marketId 0
    rw [total, (follows_run marketId (sortedTrades rules trades)).total, ← closed]
    apply eq_sub_of_add_eq
    rw [← List.sum_map_add]
    congr 1
    apply List.map_congr_left
    intro lot member
    have ⟨pair, _, buy, sell, _, _, same⟩ := closing lot member
    rw [same]
    show (sell.price - buy.price) * pair.size + buy.price * pair.size = sell.price * pair.size
    ring
  case chronological =>
    intro lot member
    have ⟨pair, made, buy, sell, source, drain, same⟩ := closing lot member
    have ⟨_, earlier, _⟩ := matched.fifo.matched pair made
    have ⟨inside, buy_eq⟩ := List.getElem?_eq_some_iff.1 source
    have ⟨within, sell_eq⟩ := List.getElem?_eq_some_iff.1 drain
    refine ⟨sell.ts, same ▸ rfl, ?_⟩
    rw [same, ← buy_eq, ← sell_eq]
    exact List.pairwise_iff_getElem.1 (sortedTrades_pairwise rules trades) _ _ inside within earlier
  case permuted =>
    intro distinct others perm
    unfold computeFifoPnl
    rw [sortedTrades_perm rules trades perm distinct]
    have empty : others.isEmpty = trades.isEmpty := by
      rw [Bool.eq_iff_iff, List.isEmpty_iff, List.isEmpty_iff, ← List.length_eq_zero_iff, ← List.length_eq_zero_iff, perm.length_eq]
    rw [empty]

end Result

end Callisto.Wallet
