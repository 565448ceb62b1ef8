import Mathlib.Tactic.FieldSimp
import Mathlib.Tactic.NormNum
import Mathlib.Tactic.Ring
import Callisto.Library.Runs
import Callisto.Wallet.WalletStateCache

/-! The positions of the wallet cache against the trades that were delivered. -/

namespace Callisto.Wallet

open Callisto.Library Callisto.Library.Runs

/-- The facts of a trade, and whether it was failed when it was last delivered. -/
structure Delivered where
  assetId : String
  side : Side
  price : ℚ
  size : ℚ
  failed : Bool

def Delivered.signed (tokenId : String) (trade : Delivered) : ℚ :=
  if trade.failed ∨ trade.assetId ≠ tokenId then 0
  else match trade.side with
    | .buy => trade.size
    | .sell => -trade.size

def net (delivered : Dict String Delivered) (tokenId : String) : ℚ := delivered.sumBy (Delivered.signed tokenId)

/-- The cache, the trades as they were last delivered, and the last event. -/
structure Feed where
  cache : WalletStateCache
  delivered : Dict String Delivered := Dict.empty
  last : Option TradeEvent := none

def deliver (delivered : Dict String Delivered) (event : TradeEvent) (side : Side) : Dict String Delivered :=
  delivered.set event.id ⟨event.assetId, side, event.price, event.size, decide (event.status = .failed)⟩

def Feed.step (feed : Feed) (event : TradeEvent) : Feed :=
  match event.side with
  | none => { feed with cache := feed.cache.applyTrade event }
  | some side => ⟨feed.cache.applyTrade event, deliver feed.delivered event side, some event⟩

/-- An event of this wallet with the facts that its trade always has, after which no token is oversold and at most a
thousand trades are known. -/
structure Admissible (feed : Feed) (event : TradeEvent) : Prop where
  named : event.id ≠ "" ∧ event.assetId ≠ ""
  owned : event.owner = "" ∨ event.owner = feed.cache.walletAddress
  positive : 0 < event.price ∧ 0 < event.size
  lifecycle : event.status ≠ .other
  sided : ∃ side, event.side = some side ∧
    (∀ trade, feed.delivered.get? event.id = some trade →
      trade.assetId = event.assetId ∧ trade.side = side ∧ trade.price = event.price ∧ trade.size = event.size) ∧
    (∀ tokenId, 0 ≤ net (deliver feed.delivered event side) tokenId) ∧
    (deliver feed.delivered event side).entries.length ≤ maxRecentFills

/-- The positions are those of the trades that are not failed, and the last event again changes nothing. -/
structure Correct (feed : Feed) : Prop where
  size : ∀ tokenId, (feed.cache.positions.get? tokenId).elim 0 WalletPosition.size = net feed.delivered tokenId
  held : ∀ tokenId, (feed.cache.positions.get? tokenId).isSome ↔ 0 < net feed.delivered tokenId
  nonneg : ∀ tokenId position, feed.cache.positions.get? tokenId = some position → 0 ≤ position.size ∧ 0 ≤ position.costBasisUsd
  again : ∀ event, feed.last = some event → (feed.cache.applyTrade event).positions = feed.cache.positions

/-- A trade that is applied fails only while its fill is on record and its token has a position. -/
def Reversible (feed : Feed) (event : TradeEvent) : Prop :=
  event.status = .failed → event.id ∈ feed.cache.appliedTradeIdSet →
    (feed.cache.findRecentFillByTradeId event.id).isSome ∧ (feed.cache.positions.get? event.assetId).isSome

/-- The set of applied trades and the records of their fills are those of the delivered trades. -/
structure Tracked (feed : Feed) : Prop where
  applied : ∀ id, id ∈ feed.cache.appliedTradeIdSet ↔ ∃ trade, feed.delivered.get? id = some trade ∧ trade.failed = false
  fills : ∀ fill ∈ feed.cache.recentFills, ∃ trade, feed.delivered.get? fill.tradeId = some trade ∧
    trade.assetId = fill.tokenId ∧ trade.side = fill.side ∧ trade.price = fill.price ∧ trade.size = fill.size
  unresolved : ∀ tokenId position, feed.cache.positions.get? tokenId = some position → position.isResolved = false
  few : feed.delivered.entries.length ≤ maxRecentFills

theorem evict_of_le {limit : ℕ} (ids : List String) {known : Finset String} (few : known.card ≤ limit) : evict limit ids known = (ids, known) := by
  cases ids with
  | nil => rfl
  | cons old rest => rw [evict, if_neg (not_lt.2 few)]

theorem mem_pushBounded {α : Type} {limit : ℕ} {items : List α} {item other : α} (member : other ∈ pushBounded limit items item) :
    other = item ∨ other ∈ items := by
  have among : other ∈ items ++ [item] := List.mem_of_mem_drop member
  simp only [List.mem_append, List.mem_singleton] at among
  exact among.symm

theorem mem_restatus {tradeId : String} {status : TradeStatus} {fills : List WalletFill} {fill : WalletFill}
    (member : fill ∈ WalletStateCache.restatus tradeId status fills) :
    ∃ old ∈ fills, old.tradeId = fill.tradeId ∧ old.tokenId = fill.tokenId ∧ old.side = fill.side ∧ old.price = fill.price ∧
      old.size = fill.size := by
  induction fills with
  | nil => exact absurd member List.not_mem_nil
  | cons first rest ih =>
    rw [WalletStateCache.restatus] at member
    by_cases same : first.tradeId = tradeId
    · rw [if_pos same] at member
      obtain rfl | later := List.mem_cons.1 member
      · exact ⟨first, List.mem_cons_self, rfl, rfl, rfl, rfl, rfl⟩
      · exact ⟨fill, List.mem_cons_of_mem _ later, rfl, rfl, rfl, rfl, rfl⟩
    · rw [if_neg same] at member
      obtain rfl | later := List.mem_cons.1 member
      · exact ⟨fill, List.mem_cons_self, rfl, rfl, rfl, rfl, rfl⟩
      · obtain ⟨old, among, facts⟩ := ih later
        exact ⟨old, List.mem_cons_of_mem _ among, facts⟩

section
variable {delivered : Dict String Delivered} {event : TradeEvent} {side : Side}

theorem net_deliver (tokenId : String) : net (deliver delivered event side) tokenId =
    net delivered tokenId - (delivered.get? event.id).elim 0 (Delivered.signed tokenId) +
      Delivered.signed tokenId ⟨event.assetId, side, event.price, event.size, decide (event.status = .failed)⟩ := Dict.sumBy_set _ _ _ _

theorem signed_other {tokenId : String} {trade : Delivered} (other : trade.assetId ≠ tokenId) : trade.signed tokenId = 0 := by
  simp [Delivered.signed, other]

theorem net_deliver_other (facts : ∀ trade, delivered.get? event.id = some trade → trade.assetId = event.assetId) {tokenId : String}
    (other : event.assetId ≠ tokenId) : net (deliver delivered event side) tokenId = net delivered tokenId := by
  have before : (delivered.get? event.id).elim 0 (Delivered.signed tokenId) = 0 := by
    cases found : delivered.get? event.id with
    | none => rfl
    | some trade =>
      have elsewhere : trade.assetId ≠ tokenId := by rwa [facts trade found]
      exact signed_other elsewhere
  rw [net_deliver, before, signed_other other, sub_zero, add_zero]

end

namespace WalletStateCache

variable {cache : WalletStateCache}

theorem removePosition_positions (tokenId other : String) :
    (cache.removePosition tokenId).positions.get? other = if tokenId = other then none else cache.positions.get? other := by
  unfold removePosition
  cases found : cache.positions.get? tokenId with
  | none =>
    by_cases same : tokenId = other
    · rw [if_pos same, ← same, found]
    · rw [if_neg same]
  | some position => exact Dict.get?_erase _ _ _

theorem putPosition_positions (tokenId other : String) (position : WalletPosition) :
    (cache.putPosition tokenId position).positions.get? other =
      if tokenId = other then (if position.size ≤ 0 ∧ position.isResolved = false then none else some position)
      else cache.positions.get? other := by
  unfold putPosition
  by_cases gone : position.size ≤ 0 ∧ position.isResolved = false
  · simp only [if_pos gone, removePosition_positions, Dict.get?_set]
    by_cases same : tokenId = other
    · simp only [if_pos same]
    · simp only [if_neg same]
  · simp only [if_neg gone, Dict.get?_set]

theorem removePosition_rest (tokenId : String) : (cache.removePosition tokenId).recentFills = cache.recentFills ∧
    (cache.removePosition tokenId).appliedTradeIdSet = cache.appliedTradeIdSet ∧
    (cache.removePosition tokenId).walletAddress = cache.walletAddress := by
  unfold removePosition
  cases cache.positions.get? tokenId with
  | none => exact ⟨rfl, rfl, rfl⟩
  | some position => exact ⟨rfl, rfl, rfl⟩

theorem putPosition_rest (tokenId : String) (position : WalletPosition) :
    (cache.putPosition tokenId position).recentFills = cache.recentFills ∧
      (cache.putPosition tokenId position).appliedTradeIdSet = cache.appliedTradeIdSet ∧
      (cache.putPosition tokenId position).walletAddress = cache.walletAddress := by
  unfold putPosition
  by_cases gone : position.size ≤ 0 ∧ position.isResolved = false
  · simp only [if_pos gone]
    exact removePosition_rest tokenId
  · simp only [if_neg gone, and_self]

theorem reverseFill_of_not_mem {tradeId : String} (absent : tradeId ∉ cache.appliedTradeIdSet) : cache.reverseFill tradeId = cache := by
  rw [reverseFill, if_pos absent]

theorem book_walletAddress (event : TradeEvent) (side : Side) : (cache.book event side).walletAddress = cache.walletAddress := by
  unfold book
  by_cases failed : event.status = .failed
  · rw [if_pos failed, reverseFill]
    by_cases absent : event.id ∉ cache.appliedTradeIdSet
    · rw [if_pos absent]
    · rw [if_neg absent]
      cases cache.findRecentFillByTradeId event.id with
      | none => rfl
      | some fill =>
        cases found : cache.positions.get? fill.tokenId with
        | none => simp only [found]
        | some position =>
          simp only [found]
          exact (putPosition_rest _ _).2.2
  · rw [if_neg failed]
    split_ifs
    · exact (putPosition_rest _ _).2.2
    · rfl

theorem applyTrade_eq {event : TradeEvent} {side : Side} (named : event.id ≠ "" ∧ event.assetId ≠ "")
    (owned : event.owner = "" ∨ event.owner = cache.walletAddress) (positive : 0 < event.price ∧ 0 < event.size)
    (sided : event.side = some side) :
    cache.applyTrade event = { cache.book event side with
      recentFills := restatus event.id event.status (cache.book event side).recentFills
      tradesApplied := (cache.book event side).tradesApplied + 1 } := by
  have foreign : ¬ (cache.walletAddress ≠ "" ∧ event.owner ≠ "" ∧ event.owner ≠ cache.walletAddress) := by
    rintro ⟨-, some_owner, other⟩
    exact owned.elim some_owner other
  have malformed : ¬ (event.assetId = "" ∨ event.price ≤ 0 ∨ event.size ≤ 0) := by
    rintro (empty | free | nothing)
    · exact named.2 empty
    · exact absurd positive.1 (not_lt.2 free)
    · exact absurd positive.2 (not_lt.2 nothing)
  unfold applyTrade
  rw [sided]
  simp only [if_neg named.1, if_neg foreign, if_neg malformed]

end WalletStateCache

namespace WalletPosition

variable {position : WalletPosition} {price size : ℚ}

theorem fill_buy (price size : ℚ) : (fill position .buy price size).size = position.size + size ∧
    (fill position .buy price size).costBasisUsd = position.costBasisUsd + price * size := ⟨rfl, rfl⟩

theorem fill_isResolved (side : Side) (price size : ℚ) : (fill position side price size).isResolved = position.isResolved := by
  unfold fill
  cases side with
  | buy => rfl
  | sell =>
    simp only
    split_ifs <;> rfl

theorem cost_left_nonneg (cost : 0 ≤ position.costBasisUsd) (positive : 0 < position.size) (covered : size ≤ position.size) :
    0 ≤ position.costBasisUsd - position.costBasisUsd / position.size * size := by
  have left : position.costBasisUsd - position.costBasisUsd / position.size * size =
      position.costBasisUsd / position.size * (position.size - size) := by
    field_simp
  rw [left]
  exact mul_nonneg (div_nonneg cost positive.le) (sub_nonneg.2 covered)

theorem fill_sell (cost : 0 ≤ position.costBasisUsd) (some_size : 0 < size) (covered : size ≤ position.size) :
    (fill position .sell price size).size = position.size - size ∧ 0 ≤ (fill position .sell price size).costBasisUsd := by
  have positive : 0 < position.size := some_size.trans_le covered
  unfold fill
  simp only [if_pos positive, min_eq_left covered]
  by_cases all : position.size - size ≤ 0
  · have exactly : position.size - size = 0 := le_antisymm all (sub_nonneg.2 covered)
    simp only [if_pos all]
    exact ⟨exactly.symm, le_refl _⟩
  · simp only [if_neg all, true_and]
    exact cost_left_nonneg cost positive covered

theorem reverse_isResolved (side : Side) (price size : ℚ) : (reverse position side price size).isResolved = position.isResolved := by
  unfold reverse
  cases side <;> simp only <;> split_ifs <;> rfl

theorem reverse_sell (nonneg : 0 ≤ position.size) (cost : 0 ≤ position.costBasisUsd) (some_price : 0 < price) (some_size : 0 < size) :
    (reverse position .sell price size).size = position.size + size ∧ 0 ≤ (reverse position .sell price size).costBasisUsd := by
  have more : ¬ position.size + size ≤ 0 := not_le.2 (by linarith)
  have notional := mul_pos some_price some_size
  unfold reverse
  simp only [if_neg more, true_and]
  linarith

theorem reverse_buy (cost : 0 ≤ position.costBasisUsd) (some_size : 0 < size) (covered : size ≤ position.size) :
    (reverse position .buy price size).size = position.size - size ∧ 0 ≤ (reverse position .buy price size).costBasisUsd := by
  have positive : 0 < position.size := some_size.trans_le covered
  unfold reverse
  simp only [min_eq_left covered, if_pos positive]
  by_cases all : position.size - size ≤ 0
  · have exactly : position.size - size = 0 := le_antisymm all (sub_nonneg.2 covered)
    simp only [if_pos all]
    exact ⟨exactly.symm, le_refl _⟩
  · simp only [if_neg all, true_and]
    exact cost_left_nonneg cost positive covered

end WalletPosition

section
variable {feed : Feed} {event : TradeEvent} {side : Side}

def Balanced (positions : Dict String WalletPosition) (delivered : Dict String Delivered) : Prop :=
  ∀ tokenId, (positions.get? tokenId).elim 0 WalletPosition.size = net delivered tokenId ∧
    ((positions.get? tokenId).isSome ↔ 0 < net delivered tokenId) ∧
    ∀ position, positions.get? tokenId = some position → 0 ≤ position.size ∧ 0 ≤ position.costBasisUsd

theorem Correct.balanced (correct : Correct feed) : Balanced feed.cache.positions feed.delivered :=
  fun tokenId => ⟨correct.size tokenId, correct.held tokenId, correct.nonneg tokenId⟩

theorem Balanced.put {positions next : Dict String WalletPosition} {delivered : Dict String Delivered} (balanced : Balanced positions delivered)
    (facts : ∀ trade, delivered.get? event.id = some trade → trade.assetId = event.assetId) {position : WalletPosition}
    (after : ∀ other, next.get? other =
      if event.assetId = other then (if position.size ≤ 0 ∧ position.isResolved = false then none else some position) else positions.get? other)
    (unresolved : position.isResolved = false) (size : position.size = net (deliver delivered event side) event.assetId)
    (covered : 0 ≤ net (deliver delivered event side) event.assetId) (cost : 0 ≤ position.costBasisUsd) :
    Balanced next (deliver delivered event side) := by
  intro tokenId
  rw [after]
  by_cases same : event.assetId = tokenId
  · subst same
    rw [if_pos rfl]
    by_cases gone : position.size ≤ 0
    · have none_left : net (deliver delivered event side) event.assetId = 0 := by linarith
      rw [if_pos ⟨gone, unresolved⟩, none_left]
      simp
    · have some_left : ¬ (position.size ≤ 0 ∧ position.isResolved = false) := fun both => gone both.1
      rw [if_neg some_left, ← size]
      have positive := not_le.1 gone
      constructor
      · rfl
      · constructor
        · simpa using positive
        · intro other found
          obtain rfl := Option.some.inj found
          exact ⟨positive.le, cost⟩
  · rw [if_neg same, net_deliver_other facts same]
    exact balanced tokenId

theorem Balanced.same {positions : Dict String WalletPosition} {delivered : Dict String Delivered} (balanced : Balanced positions delivered)
    (facts : ∀ trade, delivered.get? event.id = some trade → trade.assetId = event.assetId)
    (unchanged : net (deliver delivered event side) event.assetId = net delivered event.assetId) :
    Balanced positions (deliver delivered event side) := by
  intro tokenId
  by_cases same : event.assetId = tokenId
  · subst same
    rw [unchanged]
    exact balanced event.assetId
  · rw [net_deliver_other facts same]
    exact balanced tokenId

def Side.amount (side : Side) (size : ℚ) : ℚ :=
  match side with
  | .buy => size
  | .sell => -size

theorem signed_failed {tokenId : String} {trade : Delivered} (failed : trade.failed = true) : trade.signed tokenId = 0 := by
  simp [Delivered.signed, failed]

theorem signed_own {trade : Delivered} (standing : trade.failed = false) : trade.signed trade.assetId = trade.side.amount trade.size := by
  unfold Delivered.signed Side.amount
  simp [standing]

structure Sided (feed : Feed) (event : TradeEvent) (side : Side) : Prop where
  chosen : event.side = some side
  facts : ∀ trade, feed.delivered.get? event.id = some trade →
    trade.assetId = event.assetId ∧ trade.side = side ∧ trade.price = event.price ∧ trade.size = event.size
  covered : ∀ tokenId, 0 ≤ net (deliver feed.delivered event side) tokenId
  few : (deliver feed.delivered event side).entries.length ≤ maxRecentFills

theorem Admissible.with_side (admissible : Admissible feed event) : ∃ side, Sided feed event side := by
  obtain ⟨side, sided, facts, covered, few⟩ := admissible.sided
  exact ⟨side, sided, facts, covered, few⟩

theorem Sided.assetId (sided : Sided feed event side) : ∀ trade, feed.delivered.get? event.id = some trade → trade.assetId = event.assetId :=
  fun trade found => (sided.facts trade found).1

theorem Tracked.contribution_of_not_applied (tracked : Tracked feed) (absent : event.id ∉ feed.cache.appliedTradeIdSet) (tokenId : String) :
    (feed.delivered.get? event.id).elim 0 (Delivered.signed tokenId) = 0 := by
  cases found : feed.delivered.get? event.id with
  | none => rfl
  | some trade =>
    have failed : trade.failed = true := by
      by_contra standing
      exact absent ((tracked.applied event.id).2 ⟨trade, found, by simpa using standing⟩)
    exact signed_failed failed

theorem Tracked.contribution_of_applied (tracked : Tracked feed) (sided : Sided feed event side)
    (applied : event.id ∈ feed.cache.appliedTradeIdSet) :
    (feed.delivered.get? event.id).elim 0 (Delivered.signed event.assetId) = side.amount event.size := by
  obtain ⟨trade, found, standing⟩ := (tracked.applied event.id).1 applied
  obtain ⟨asset, same_side, -, same_size⟩ := sided.facts trade found
  rw [found, Option.elim_some, ← asset, signed_own standing, same_side, same_size]

theorem Tracked.net_deliver_eq (tracked : Tracked feed) (sided : Sided feed event side) :
    net (deliver feed.delivered event side) event.assetId = net feed.delivered event.assetId -
      (if event.id ∈ feed.cache.appliedTradeIdSet then side.amount event.size else 0) +
      if event.status = .failed then 0 else side.amount event.size := by
  have before : (feed.delivered.get? event.id).elim 0 (Delivered.signed event.assetId) =
      if event.id ∈ feed.cache.appliedTradeIdSet then side.amount event.size else 0 := by
    by_cases applied : event.id ∈ feed.cache.appliedTradeIdSet
    · rw [if_pos applied, tracked.contribution_of_applied sided applied]
    · rw [if_neg applied, tracked.contribution_of_not_applied applied]
  have after : Delivered.signed event.assetId ⟨event.assetId, side, event.price, event.size, decide (event.status = .failed)⟩ =
      if event.status = .failed then 0 else side.amount event.size := by
    by_cases failed : event.status = .failed
    · simp [Delivered.signed, failed]
    · simp only [Delivered.signed, failed, decide_false, Bool.false_eq_true, ne_eq, not_true_eq_false, or_false, if_false, Side.amount]
  rw [net_deliver, before, after]

theorem Tracked.found_facts (tracked : Tracked feed) (sided : Sided feed event side) {fill : WalletFill}
    (found : feed.cache.findRecentFillByTradeId event.id = some fill) :
    fill.tokenId = event.assetId ∧ fill.side = side ∧ fill.price = event.price ∧ fill.size = event.size := by
  have member := List.mem_of_find?_eq_some found
  have named : fill.tradeId = event.id := by simpa using List.find?_some found
  obtain ⟨trade, delivered, asset, same_side, price, size⟩ := tracked.fills fill member
  rw [named] at delivered
  obtain ⟨asset', side', price', size'⟩ := sided.facts trade delivered
  exact ⟨asset.symm.trans asset', same_side.symm.trans side', price.symm.trans price', size.symm.trans size'⟩

theorem Tracked.card_le (tracked : Tracked feed) : feed.cache.appliedTradeIdSet.card ≤ maxRecentFills := by
  have among : feed.cache.appliedTradeIdSet ⊆ (feed.delivered.entries.map Prod.fst).toFinset := by
    intro id applied
    obtain ⟨trade, found, -⟩ := (tracked.applied id).1 applied
    rw [List.mem_toFinset]
    exact List.mem_map.2 ⟨(id, trade), Dict.mem_of_find found, rfl⟩
  calc
    _ ≤ (feed.delivered.entries.map Prod.fst).toFinset.card := Finset.card_le_card among
    _ ≤ (feed.delivered.entries.map Prod.fst).length := List.toFinset_card_le _
    _ ≤ _ := by
      rw [List.length_map]
      exact tracked.few

/-- The position of one token is put, or removed where nothing is left of it. -/
def Put (cache next : WalletStateCache) (tokenId : String) (position : WalletPosition) : Prop :=
  ∀ other, next.positions.get? other =
    if tokenId = other then (if position.size ≤ 0 ∧ position.isResolved = false then none else some position) else cache.positions.get? other

/-- How an event is booked: undone, applied or left, and what it leaves on record. -/
inductive Booking (cache next : WalletStateCache) (event : TradeEvent) (side : Side) : Prop
  | undone (position : WalletPosition) (found : cache.positions.get? event.assetId = some position) (failed : event.status = .failed)
      (applied : event.id ∈ cache.appliedTradeIdSet)
      (positions : Put cache next event.assetId (WalletPosition.reverse position side event.price event.size))
      (known : next.appliedTradeIdSet = cache.appliedTradeIdSet.erase event.id)
      (fills : next.recentFills = WalletStateCache.restatus event.id .failed cache.recentFills)
  | booked (position : WalletPosition) (standing : event.status ≠ .failed) (new : event.id ∉ cache.appliedTradeIdSet)
      (old : (cache.positions.get? event.assetId = none ∧ position.size = 0 ∧ position.costBasisUsd = 0 ∧ position.isResolved = false) ∨
        ∃ known, cache.positions.get? event.assetId = some known ∧ position.size = known.size ∧
          position.costBasisUsd = known.costBasisUsd ∧ position.isResolved = known.isResolved)
      (positions : Put cache next event.assetId (WalletPosition.fill position side event.price event.size))
      (known : next.appliedTradeIdSet = insert event.id cache.appliedTradeIdSet)
      (fills : next.recentFills = pushBounded maxRecentFills cache.recentFills
        ⟨event.id, event.takerOrderId, event.assetId, event.market, side, event.price, event.size, event.status, false⟩)
  | left (same : next = cache) (idle : event.status = .failed ↔ event.id ∉ cache.appliedTradeIdSet)

theorem Booking.of_put {cache base : WalletStateCache} {position : WalletPosition} (standing : event.status ≠ .failed)
    (new : event.id ∉ cache.appliedTradeIdSet)
    (old : (cache.positions.get? event.assetId = none ∧ position.size = 0 ∧ position.costBasisUsd = 0 ∧ position.isResolved = false) ∨
      ∃ known, cache.positions.get? event.assetId = some known ∧ position.size = known.size ∧
        position.costBasisUsd = known.costBasisUsd ∧ position.isResolved = known.isResolved)
    (positions : base.positions = cache.positions) (known : base.appliedTradeIdSet = insert event.id cache.appliedTradeIdSet)
    (fills : base.recentFills = pushBounded maxRecentFills cache.recentFills
      ⟨event.id, event.takerOrderId, event.assetId, event.market, side, event.price, event.size, event.status, false⟩) :
    Booking cache (base.putPosition event.assetId (WalletPosition.fill position side event.price event.size)) event side := by
  have rest := @WalletStateCache.putPosition_rest base event.assetId (WalletPosition.fill position side event.price event.size)
  have put : Put cache (base.putPosition event.assetId (WalletPosition.fill position side event.price event.size)) event.assetId
      (WalletPosition.fill position side event.price event.size) := by
    intro other
    rw [WalletStateCache.putPosition_positions, positions]
  exact .booked position standing new old put (rest.2.1.trans known) (rest.1.trans fills)

theorem Tracked.booking (tracked : Tracked feed) (sided : Sided feed event side) (lifecycle : event.status ≠ .other)
    (reversible : Reversible feed event) : Booking feed.cache (feed.cache.book event side) event side := by
  unfold WalletStateCache.book
  by_cases failed : event.status = .failed
  · rw [if_pos failed]
    by_cases applied : event.id ∈ feed.cache.appliedTradeIdSet
    · obtain ⟨recorded, positioned⟩ := reversible failed applied
      obtain ⟨fill, found⟩ := Option.isSome_iff_exists.1 recorded
      obtain ⟨position, held⟩ := Option.isSome_iff_exists.1 positioned
      obtain ⟨asset, same_side, price, size⟩ := tracked.found_facts sided found
      have reversed : feed.cache.reverseFill event.id = WalletStateCache.putPosition
          { feed.cache with
            appliedTradeIdSet := feed.cache.appliedTradeIdSet.erase event.id
            recentFills := WalletStateCache.restatus event.id .failed feed.cache.recentFills }
          event.assetId (WalletPosition.reverse position side event.price event.size) := by
        unfold WalletStateCache.reverseFill
        rw [if_neg (not_not.2 applied), found]
        simp only [asset, held, same_side, price, size]
      rw [reversed]
      have rest := @WalletStateCache.putPosition_rest { feed.cache with
        appliedTradeIdSet := feed.cache.appliedTradeIdSet.erase event.id
        recentFills := WalletStateCache.restatus event.id .failed feed.cache.recentFills }
        event.assetId (WalletPosition.reverse position side event.price event.size)
      exact .undone position held failed applied (fun other => WalletStateCache.putPosition_positions _ _ _) rest.2.1 rest.1
    · rw [WalletStateCache.reverseFill_of_not_mem applied]
      exact .left rfl ⟨fun _ => applied, fun _ => failed⟩
  · rw [if_neg failed]
    by_cases applied : event.id ∈ feed.cache.appliedTradeIdSet
    · rw [if_neg (fun both => both.1 applied)]
      exact .left rfl ⟨fun impossible => absurd impossible failed, fun absent => absurd applied absent⟩
    · have live : event.status ∈ [TradeStatus.matched, .mined, .confirmed] := by
        cases status : event.status <;> simp_all
      rw [if_pos ⟨applied, live⟩]
      have small : (insert event.id feed.cache.appliedTradeIdSet).card ≤ maxRecentFills * 2 := by
        have card := tracked.card_le
        rw [Finset.card_insert_of_notMem applied]
        unfold maxRecentFills at card ⊢
        omega
      have evicted := evict_of_le (pushBounded (maxRecentFills * 2) feed.cache.appliedTradeIds event.id) small
      unfold WalletStateCache.applyFill
      simp only [evicted]
      apply Booking.of_put failed applied
      · cases found : feed.cache.positions.get? event.assetId with
        | none => exact Or.inl ⟨rfl, rfl, rfl, rfl⟩
        | some known => exact Or.inr ⟨known, rfl, rfl, rfl, rfl⟩
      · rfl
      · rfl
      · simp only

theorem Tracked.step (tracked : Tracked feed) (admissible : Admissible feed event) (reversible : Reversible feed event) :
    Tracked (feed.step event) := by
  obtain ⟨side, sided⟩ := admissible.with_side
  have booking := tracked.booking sided admissible.lifecycle reversible
  have stepped : feed.step event = ⟨feed.cache.applyTrade event, deliver feed.delivered event side, some event⟩ := by
    rw [Feed.step, sided.chosen]
  have traded := WalletStateCache.applyTrade_eq admissible.named admissible.owned admissible.positive sided.chosen
  have delivers : ∀ id, (deliver feed.delivered event side).get? id =
      if event.id = id then some ⟨event.assetId, side, event.price, event.size, decide (event.status = .failed)⟩ else feed.delivered.get? id :=
    fun id => Dict.get?_set _ _ _ _
  have known : ∀ id, id ∈ (feed.cache.book event side).appliedTradeIdSet ↔
      if event.id = id then event.status ≠ .failed else id ∈ feed.cache.appliedTradeIdSet := by
    intro id
    cases booking with
    | undone position found failed applied positions known fills =>
      rw [known, Finset.mem_erase]
      by_cases same : event.id = id
      · simp [same, failed]
      · simp [same, Ne.symm same]
    | booked position standing new old positions known fills =>
      rw [known, Finset.mem_insert]
      by_cases same : event.id = id
      · simp [same, standing]
      · simp [same, Ne.symm same]
    | left same idle =>
      rw [same]
      by_cases here : event.id = id
      · rw [if_pos here, ← here, Ne, idle, not_not]
      · rw [if_neg here]
  have recorded : ∀ fill ∈ (feed.cache.book event side).recentFills,
      (fill.tradeId = event.id ∧ event.assetId = fill.tokenId ∧ side = fill.side ∧ event.price = fill.price ∧ event.size = fill.size) ∨
      ∃ old ∈ feed.cache.recentFills, old.tradeId = fill.tradeId ∧ old.tokenId = fill.tokenId ∧ old.side = fill.side ∧
        old.price = fill.price ∧ old.size = fill.size := by
    intro fill member
    cases booking with
    | undone position found failed applied positions known fills =>
      rw [fills] at member
      exact Or.inr (mem_restatus member)
    | booked position standing new old positions known fills =>
      rw [fills] at member
      obtain rfl | before := mem_pushBounded member
      · exact Or.inl ⟨rfl, rfl, rfl, rfl, rfl⟩
      · exact Or.inr ⟨fill, before, rfl, rfl, rfl, rfl, rfl⟩
    | left same idle =>
      rw [same] at member
      exact Or.inr ⟨fill, member, rfl, rfl, rfl, rfl, rfl⟩
  rw [stepped, traded]
  constructor
  · intro id
    simp only [delivers, known]
    by_cases same : event.id = id
    · simp [same]
    · simp only [if_neg same]
      exact tracked.applied id
  · intro fill member
    obtain ⟨middle, among, tradeId, tokenId, sideSame, price, size⟩ := mem_restatus member
    simp only [delivers]
    have either := recorded middle among
    rw [tradeId, tokenId, sideSame, price, size] at either
    obtain ⟨named, facts⟩ | ⟨old, before, tradeId', tokenId', side', price', size'⟩ := either
    · rw [if_pos named.symm]
      exact ⟨_, rfl, facts⟩
    · obtain ⟨trade, found, asset, tradeSide, tradePrice, tradeSize⟩ := tracked.fills old before
      rw [tradeId'] at found
      by_cases same : event.id = fill.tradeId
      · rw [if_pos same]
        rw [← same] at found
        obtain ⟨asset', sameSide, samePrice, sameSize⟩ := sided.facts trade found
        exact ⟨_, rfl, by simp only [← asset', asset, tokenId'], by simp only [← sameSide, tradeSide, side'],
          by simp only [← samePrice, tradePrice, price'], by simp only [← sameSize, tradeSize, size']⟩
      · rw [if_neg same]
        exact ⟨trade, found, asset.trans tokenId', tradeSide.trans side', tradePrice.trans price', tradeSize.trans size'⟩
  · intro tokenId position found
    simp only at found
    have put : ∀ changed : WalletPosition, changed.isResolved = false → Put feed.cache (feed.cache.book event side) event.assetId changed →
        position.isResolved = false := by
      intro changed unresolved put
      rw [put tokenId] at found
      by_cases same : event.assetId = tokenId
      · rw [if_pos same] at found
        by_cases gone : changed.size ≤ 0 ∧ changed.isResolved = false
        · rw [if_pos gone] at found
          exact absurd found (by simp)
        · rw [if_neg gone, Option.some_inj] at found
          rw [← found]
          exact unresolved
      · rw [if_neg same] at found
        exact tracked.unresolved tokenId position found
    cases booking with
    | undone before held failed applied positions known fills =>
      exact put _ (by rw [WalletPosition.reverse_isResolved]; exact tracked.unresolved _ _ held) positions
    | booked before standing new old positions known fills =>
      have unresolved : before.isResolved = false := by
        obtain ⟨-, -, -, unresolved⟩ | ⟨earlier, held, -, -, same⟩ := old
        · exact unresolved
        · rw [same]
          exact tracked.unresolved _ _ held
      exact put _ (by rw [WalletPosition.fill_isResolved]; exact unresolved) positions
    | left same idle =>
      rw [same] at found
      exact tracked.unresolved tokenId position found
  · exact sided.few

theorem Tracked.again (tracked : Tracked (feed.step event)) (admissible : Admissible feed event) (sided : Sided feed event side) :
    ((feed.step event).cache.applyTrade event).positions = (feed.step event).cache.positions := by
  have stepped : feed.step event = ⟨feed.cache.applyTrade event, deliver feed.delivered event side, some event⟩ := by
    rw [Feed.step, sided.chosen]
  have owned : event.owner = "" ∨ event.owner = (feed.step event).cache.walletAddress := by
    have same : (feed.cache.applyTrade event).walletAddress = feed.cache.walletAddress := by
      rw [WalletStateCache.applyTrade_eq admissible.named admissible.owned admissible.positive sided.chosen]
      exact WalletStateCache.book_walletAddress event side
    rw [stepped]
    simp only [same]
    exact admissible.owned
  have known : event.id ∈ (feed.step event).cache.appliedTradeIdSet ↔ event.status ≠ .failed := by
    rw [tracked.applied, stepped]
    simp [deliver, Dict.get?_set]
  have same : (feed.step event).cache.book event side = (feed.step event).cache := by
    unfold WalletStateCache.book
    by_cases failed : event.status = .failed
    · rw [if_pos failed, WalletStateCache.reverseFill_of_not_mem fun applied => known.1 applied failed]
    · rw [if_neg failed, if_neg fun both => both.1 (known.2 failed)]
  rw [WalletStateCache.applyTrade_eq admissible.named owned admissible.positive sided.chosen, same]

theorem stepped_eq (sided : Sided feed event side) :
    feed.step event = ⟨feed.cache.applyTrade event, deliver feed.delivered event side, some event⟩ := by
  rw [Feed.step, sided.chosen]

theorem stepped_positions (admissible : Admissible feed event) (sided : Sided feed event side) :
    (feed.step event).cache.positions = (feed.cache.book event side).positions := by
  rw [stepped_eq sided, WalletStateCache.applyTrade_eq admissible.named admissible.owned admissible.positive sided.chosen]

theorem Tracked.balanced (tracked : Tracked feed) (admissible : Admissible feed event) (sided : Sided feed event side)
    (correct : Correct feed) (reversible : Reversible feed event) :
    Balanced (feed.cache.book event side).positions (deliver feed.delivered event side) := by
  have due := tracked.net_deliver_eq sided
  have covered := sided.covered event.assetId
  have some_size := admissible.positive.2
  cases tracked.booking sided admissible.lifecycle reversible with
  | undone position found failed applied positions known fills =>
    have size := correct.size event.assetId
    obtain ⟨nonneg, cost⟩ := correct.nonneg event.assetId position found
    have unresolved := tracked.unresolved event.assetId position found
    rw [found, Option.elim_some] at size
    rw [if_pos applied, if_pos failed, add_zero, ← size] at due
    cases side with
    | buy =>
      have taken : net (deliver feed.delivered event .buy) event.assetId = position.size - event.size := due
      have undone := @WalletPosition.reverse_buy position event.price event.size cost some_size (by linarith)
      exact correct.balanced.put sided.assetId positions (by rw [WalletPosition.reverse_isResolved, unresolved])
        (undone.1.trans taken.symm) covered undone.2
    | sell =>
      have given : net (deliver feed.delivered event .sell) event.assetId = position.size + event.size := by
        rw [due, Side.amount]
        ring
      have undone := @WalletPosition.reverse_sell position event.price event.size nonneg cost admissible.positive.1 some_size
      exact correct.balanced.put sided.assetId positions (by rw [WalletPosition.reverse_isResolved, unresolved])
        (undone.1.trans given.symm) covered undone.2
  | booked position standing new old positions known fills =>
    have before : position.size = net feed.delivered event.assetId ∧ 0 ≤ position.costBasisUsd ∧ position.isResolved = false := by
      have size := correct.size event.assetId
      obtain ⟨absent, none_held, free, unresolved⟩ | ⟨known, found, same_size, same_cost, same_resolved⟩ := old
      · rw [absent, Option.elim_none] at size
        exact ⟨none_held.trans size, free.ge, unresolved⟩
      · rw [found, Option.elim_some] at size
        rw [same_size, same_cost, same_resolved]
        exact ⟨size, (correct.nonneg event.assetId known found).2, tracked.unresolved event.assetId known found⟩
    rw [if_neg new, if_neg standing, sub_zero, ← before.1] at due
    cases side with
    | buy =>
      have notional := mul_pos admissible.positive.1 some_size
      have cost : 0 ≤ (WalletPosition.fill position .buy event.price event.size).costBasisUsd := by
        rw [(WalletPosition.fill_buy event.price event.size).2]
        linarith [before.2.1]
      exact correct.balanced.put sided.assetId positions (by rw [WalletPosition.fill_isResolved, before.2.2]) due.symm covered cost
    | sell =>
      have taken : net (deliver feed.delivered event .sell) event.assetId = position.size - event.size := by
        rw [due, Side.amount]
        ring
      have sold := @WalletPosition.fill_sell position event.price event.size before.2.1 some_size (by linarith)
      exact correct.balanced.put sided.assetId positions (by rw [WalletPosition.fill_isResolved, before.2.2])
        (sold.1.trans taken.symm) covered sold.2
  | left same idle =>
    rw [same]
    apply correct.balanced.same sided.assetId
    rw [due]
    by_cases failed : event.status = .failed
    · rw [if_neg (idle.1 failed), if_pos failed]
      ring
    · have applied : event.id ∈ feed.cache.appliedTradeIdSet := by
        by_contra absent
        exact failed (idle.2 absent)
      rw [if_pos applied, if_neg failed]
      ring

theorem Tracked.book_of_not_reversible (tracked : Tracked feed) (sided : Sided feed event side) (lost : ¬ Reversible feed event) :
    event.status = .failed ∧ event.id ∈ feed.cache.appliedTradeIdSet ∧ feed.cache.book event side = feed.cache := by
  unfold Reversible at lost
  simp only [Classical.not_imp] at lost
  obtain ⟨failed, applied, lost⟩ := lost
  have same : feed.cache.book event side = feed.cache := by
    rw [WalletStateCache.book, if_pos failed, WalletStateCache.reverseFill, if_neg (not_not.2 applied)]
    cases found : feed.cache.findRecentFillByTradeId event.id with
    | none => rfl
    | some fill =>
      obtain ⟨asset, -⟩ := tracked.found_facts sided found
      cases held : feed.cache.positions.get? event.assetId with
      | none => simp only [asset, held]
      | some position =>
        rw [found, held] at lost
        exact absurd ⟨rfl, rfl⟩ lost
  exact ⟨failed, applied, same⟩

theorem step_correct_iff (tracked : Tracked feed) (admissible : Admissible feed event) (correct : Correct feed) :
    Correct (feed.step event) ↔ Reversible feed event := by
  obtain ⟨side, sided⟩ := admissible.with_side
  have positions := stepped_positions admissible sided
  constructor
  · intro next
    by_contra lost
    obtain ⟨failed, applied, same⟩ := tracked.book_of_not_reversible sided lost
    have due := tracked.net_deliver_eq sided
    have before := correct.size event.assetId
    have after := next.size event.assetId
    have some_size := admissible.positive.2
    rw [positions, same, before, stepped_eq sided] at after
    rw [if_pos applied, if_pos failed, add_zero] at due
    simp only [due] at after
    cases side with
    | buy =>
      simp only [Side.amount] at after
      linarith
    | sell =>
      simp only [Side.amount] at after
      linarith
  · intro reversible
    have balanced := tracked.balanced admissible sided correct reversible
    have next := tracked.step admissible reversible
    rw [← positions] at balanced
    have delivered : (feed.step event).delivered = deliver feed.delivered event side := by rw [stepped_eq sided]
    rw [← delivered] at balanced
    constructor
    · exact fun tokenId => (balanced tokenId).1
    · exact fun tokenId => (balanced tokenId).2.1
    · exact fun tokenId => (balanced tokenId).2.2
    · intro other last
      rw [stepped_eq sided, Option.some_inj] at last
      rw [← last]
      exact next.again admissible sided

end

theorem tracked_start (walletAddress : String) : Tracked { cache := { walletAddress } } where
  applied id := by simp
  fills fill member := absurd member List.not_mem_nil
  unresolved tokenId position found := absurd found (by simp)
  few := Nat.zero_le _

theorem correct_start (walletAddress : String) : Correct { cache := { walletAddress } } where
  size _ := rfl
  held tokenId := by simp [net]
  nonneg tokenId position found := absurd found (by simp)
  again _ last := absurd last (by simp)

/-- Over admissible events the positions are those of the trades that are not failed exactly when every failure of an
applied trade finds its fill on record and its token with a position. -/
theorem positions_correct_iff (walletAddress : String) {events : List TradeEvent}
    (admissible : Meets Feed.step Admissible { cache := { walletAddress } } events) :
    Always Feed.step Correct { cache := { walletAddress } } events ↔ Meets Feed.step Reversible { cache := { walletAddress } } events :=
  always_iff_meets_within (fun _ _ tracked domain reversible => Tracked.step tracked domain reversible)
    (fun _ _ tracked domain correct => step_correct_iff tracked domain correct)
    (tracked_start walletAddress) (correct_start walletAddress) admissible

theorem admissible_of_single {feed : Feed} {event : TradeEvent} {side : Side} (sided : event.side = some side)
    (named : event.id ≠ "" ∧ event.assetId ≠ "") (anonymous : event.owner = "") (positive : 0 < event.price ∧ 0 < event.size)
    (lifecycle : event.status ≠ .other)
    (facts : ∀ trade ∈ feed.delivered.get? event.id,
      trade.assetId = event.assetId ∧ trade.side = side ∧ trade.price = event.price ∧ trade.size = event.size)
    (single : ∀ entry ∈ (deliver feed.delivered event side).entries, entry.2.assetId = event.assetId)
    (covered : 0 ≤ net (deliver feed.delivered event side) event.assetId)
    (few : (deliver feed.delivered event side).entries.length ≤ maxRecentFills) : Admissible feed event where
  named := named
  owned := Or.inl anonymous
  positive := positive
  lifecycle := lifecycle
  sided := by
    have every : ∀ tokenId, 0 ≤ net (deliver feed.delivered event side) tokenId := by
      intro tokenId
      by_cases same : event.assetId = tokenId
      · rwa [← same]
      · have nothing : net (deliver feed.delivered event side) tokenId = 0 := by
          apply List.sum_eq_zero
          intro amount member
          obtain ⟨trade, among, rfl⟩ := List.mem_map.1 member
          obtain ⟨entry, inside, rfl⟩ := List.mem_map.1 among
          exact signed_other (by rwa [single entry inside])
        rw [nothing]
    exact ⟨side, sided, facts, every, few⟩

def tradeOf (id : String) (side : Side) (size : ℚ) (status : TradeStatus) : TradeEvent :=
  { id, assetId := "yes", side := some side, price := 1 / 2, size, status }

/-- Ten shares are bought and sold, and the sale fails: the shares are not restored. -/
def failedSale : List TradeEvent := [tradeOf "bought" .buy 10 .matched, tradeOf "sold" .sell 10 .matched, tradeOf "sold" .sell 10 .failed]

theorem failedSale_admissible : Meets Feed.step Admissible { cache := { walletAddress := "wallet" } } failedSale := by
  have first : Admissible { cache := { walletAddress := "wallet" } } (tradeOf "bought" .buy 10 .matched) :=
    @admissible_of_single _ _ .buy rfl (by decide) rfl (by norm_num [tradeOf]) (by decide) (by decide) (by decide +kernel) (by decide +kernel)
      (by decide +kernel)
  have second : Admissible (run Feed.step { cache := { walletAddress := "wallet" } } [tradeOf "bought" .buy 10 .matched])
      (tradeOf "sold" .sell 10 .matched) :=
    @admissible_of_single _ _ .sell rfl (by decide) rfl (by norm_num [tradeOf]) (by decide) (by decide +kernel) (by decide +kernel)
      (by decide +kernel) (by decide +kernel)
  have third : Admissible (run Feed.step { cache := { walletAddress := "wallet" } }
      [tradeOf "bought" .buy 10 .matched, tradeOf "sold" .sell 10 .matched]) (tradeOf "sold" .sell 10 .failed) :=
    @admissible_of_single _ _ .sell rfl (by decide) rfl (by norm_num [tradeOf]) (by decide) (by decide +kernel) (by decide +kernel)
      (by decide +kernel) (by decide +kernel)
  exact ⟨first, second, third, trivial⟩

theorem positions_not_correct : ¬ ∀ (walletAddress : String) (events : List TradeEvent),
    Meets Feed.step Admissible { cache := { walletAddress } } events → Always Feed.step Correct { cache := { walletAddress } } events := by
  intro all
  have correct := all "wallet" failedSale failedSale_admissible failedSale (List.prefix_refl _)
  have nothing : (run Feed.step { cache := { walletAddress := "wallet" } } failedSale).cache.positions.get? "yes" = none := by decide +kernel
  have due : net (run Feed.step { cache := { walletAddress := "wallet" } } failedSale).delivered "yes" = 10 := by decide +kernel
  have size := correct.size "yes"
  rw [nothing, due] at size
  exact absurd size (by norm_num)

/-- A trade that is delivered twice, and then fails while there is a position. -/
theorem positions_correct_failed : Always Feed.step Correct { cache := { walletAddress := "wallet" } }
    [tradeOf "bought" .buy 10 .matched, tradeOf "bought" .buy 10 .mined, tradeOf "bought" .buy 10 .failed] := by
  have first : Admissible { cache := { walletAddress := "wallet" } } (tradeOf "bought" .buy 10 .matched) :=
    @admissible_of_single _ _ .buy rfl (by decide) rfl (by norm_num [tradeOf]) (by decide) (by decide) (by decide +kernel) (by decide +kernel)
      (by decide +kernel)
  have second : Admissible (run Feed.step { cache := { walletAddress := "wallet" } } [tradeOf "bought" .buy 10 .matched])
      (tradeOf "bought" .buy 10 .mined) :=
    @admissible_of_single _ _ .buy rfl (by decide) rfl (by norm_num [tradeOf]) (by decide) (by decide +kernel) (by decide +kernel)
      (by decide +kernel) (by decide +kernel)
  have third : Admissible (run Feed.step { cache := { walletAddress := "wallet" } }
      [tradeOf "bought" .buy 10 .matched, tradeOf "bought" .buy 10 .mined]) (tradeOf "bought" .buy 10 .failed) :=
    @admissible_of_single _ _ .buy rfl (by decide) rfl (by norm_num [tradeOf]) (by decide) (by decide +kernel) (by decide +kernel)
      (by decide +kernel) (by decide +kernel)
  have admissible : Meets Feed.step Admissible { cache := { walletAddress := "wallet" } }
      [tradeOf "bought" .buy 10 .matched, tradeOf "bought" .buy 10 .mined, tradeOf "bought" .buy 10 .failed] := ⟨first, second, third, trivial⟩
  apply (positions_correct_iff "wallet" admissible).2
  simp only [meets_cons, meets_nil, and_true, Reversible]
  exact ⟨by decide, by decide, fun _ _ => by decide +kernel⟩

end Callisto.Wallet
