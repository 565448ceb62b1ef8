import Callisto.Orders.LegRetries

/-! The price of a live order: the quotes it may come from, the bounds on it, the tick range, and the post-only reprice. -/

namespace Callisto.Orders

open Callisto.Library

/-- The adapter's view of a token in the feed cache, where that is fresh; a reading that fails is missing. -/
structure WsCache where
  bestBidAsk : Option (ℚ × ℚ)
  midPrice : Option ℚ

/-- What a call finds outside: the service's state, the cache and the two quotes of the venue, missing where they fail. -/
structure Quotes where
  authCircuit : Option String
  initialized : Bool
  wsCache : Option WsCache
  quoteBuy : Option ℚ
  quoteSell : Option ℚ

/-- The arguments of `execute_live_order`; a number that does not parse is missing, and so is a side that is neither. -/
structure LiveRequest where
  tokenId : String
  side : Option OrderSide
  size : ℚ
  fallbackPrice : Option ℚ
  minOrderSize : ℚ
  postOnly : Bool
  resolveLivePrice : Bool
  preferCachedPrice : Bool
  quoteAggressively : Option Bool
  enforceFallbackBound : Bool
  maxExecutionPrice : Option ℚ
  minExecutionPrice : Option ℚ
  allowTakerLimitBuyAboveSignal : Bool

structure Resolution where
  price : ℚ
  label : String

namespace LiveRequest
variable (request : LiveRequest)

def requestedSize : ℚ := max 0 request.size

def aggressiveQuote : Bool := request.quoteAggressively.getD (!request.enforceFallbackBound && !request.postOnly)

def executionBound (side : OrderSide) : Option ℚ :=
  match side with
  | .buy => request.maxExecutionPrice.filter fun bound => 0 < bound
  | .sell => request.minExecutionPrice.filter fun bound => 0 < bound

/-- `min` for a buy, `max` for a sell -/
def bound (side : OrderSide) (first second : ℚ) : ℚ :=
  match side with
  | .buy => min first second
  | .sell => max first second

def fallback (side : OrderSide) : Option ℚ :=
  match request.executionBound side with
  | none => request.fallbackPrice
  | some execution => some <| match request.fallbackPrice with
    | some price => if price ≤ 0 then execution else bound side price execution
    | none => execution

def isTaker : Bool := request.aggressiveQuote && !request.postOnly

def cachedQuote (side : OrderSide) (cache : WsCache) : Option Resolution :=
  let cached := if request.isTaker then
      cache.bestBidAsk.bind fun (bestBid, bestAsk) =>
        match side with
        | .buy => if 0 < bestAsk then some bestAsk else none
        | .sell => if 0 < bestBid then some bestBid else none
    else cache.midPrice
  cached.bind fun cached =>
    if 0 < cached ∧ request.minOrderSize ≤ cached * request.requestedSize + priceTolerance then
      some ⟨cached, if request.isTaker then (match side with | .buy => "ws_cache_ask" | .sell => "ws_cache_bid") else "ws_cache"⟩
    else none

/-- The post-only quote at the own side of the book, or a tick off the other side. -/
def postOnlyQuote (side : OrderSide) (quoteBuy quoteSell : Option ℚ) : Option Resolution :=
  match side with
  | .buy => match quoteBuy, quoteSell with
    | some quote, _ => some ⟨quote, "live_quote_post_only_bid"⟩
    | none, some quote => some ⟨clampBinaryPrice (quote - postOnlyRepriceTick), "live_quote_post_only_from_ask"⟩
    | none, none => none
  | .sell => match quoteSell, quoteBuy with
    | some quote, _ => some ⟨quote, "live_quote_post_only_ask"⟩
    | none, some quote => some ⟨clampBinaryPrice (quote + postOnlyRepriceTick), "live_quote_post_only_from_bid"⟩
    | none, none => none

def bestQuote (side : OrderSide) (quoteBuy quoteSell : Option ℚ) : Option Resolution :=
  match quoteBuy, quoteSell with
  | some first, some second => some ⟨match side with | .buy => max first second | .sell => min first second, "live_quote"⟩
  | some quote, none | none, some quote => some ⟨quote, "live_quote"⟩
  | none, none => none

def httpQuote (side : OrderSide) (quotes : Quotes) : Option Resolution :=
  let quoteBuy := quotes.quoteBuy.filter fun quote => 0 < quote
  let quoteSell := quotes.quoteSell.filter fun quote => 0 < quote
  (if request.postOnly then postOnlyQuote side quoteBuy quoteSell else none).or (bestQuote side quoteBuy quoteSell)

def liveQuote (side : OrderSide) (quotes : Quotes) : Option Resolution :=
  (if request.preferCachedPrice then quotes.wsCache.bind (request.cachedQuote side) else none).or (request.httpQuote side quotes)

def bounded (side : OrderSide) (limit : ℚ) (mark : String) (quote : Resolution) : Resolution :=
  ⟨bound side quote.price limit, if priceTolerance ≤ |bound side quote.price limit - quote.price| then quote.label ++ mark else quote.label⟩

def boundByExecution (side : OrderSide) (quote : Resolution) : Resolution :=
  match request.executionBound side with
  | none => quote
  | some limit => bounded side limit (match side with | .buy => "|bounded_by_max_execution" | .sell => "|bounded_by_min_execution") quote

def Chases (side : OrderSide) : Prop :=
  side = .buy ∧ request.allowTakerLimitBuyAboveSignal = true ∧ request.aggressiveQuote = true ∧ request.postOnly = false

instance (side : OrderSide) : Decidable (request.Chases side) := inferInstanceAs (Decidable (_ ∧ _))

def FallbackBinds (side : OrderSide) : Prop := (request.postOnly = true ∨ request.enforceFallbackBound = true) ∧ ¬ request.Chases side

instance (side : OrderSide) : Decidable (request.FallbackBinds side) := inferInstanceAs (Decidable (_ ∧ _))

def positiveFallback (side : OrderSide) : Option ℚ := (request.fallback side).filter fun price => 0 < price

def boundByFallback (side : OrderSide) (quote : Resolution) : Resolution :=
  match request.positiveFallback side with
  | none => quote
  | some limit =>
    if request.FallbackBinds side then
      let quote := bounded side limit "|bounded_by_fallback" quote
      ⟨clampBinaryPrice quote.price, quote.label⟩
    else quote

def minNotionalGuard (side : OrderSide) (quote : Resolution) : Resolution :=
  match request.positiveFallback side with
  | none => quote
  | some limit =>
    if quote.price * request.requestedSize + priceTolerance < request.minOrderSize ∧
        request.minOrderSize ≤ limit * request.requestedSize + priceTolerance then ⟨limit, "fallback_min_notional_guard"⟩
    else quote

def resolvedPrice (side : OrderSide) (quotes : Quotes) : Option Resolution :=
  if request.resolveLivePrice then
    match request.liveQuote side quotes with
    | some quote =>
      if 0 < quote.price then some (request.minNotionalGuard side (request.boundByFallback side (request.boundByExecution side quote)))
      else (request.fallback side).map fun price => ⟨price, "fallback_price"⟩
    | none => (request.fallback side).map fun price => ⟨price, "fallback_price"⟩
  else (request.fallback side).map fun price => ⟨price, "explicit_limit"⟩

/-- `execute_live_order` up to its first call of the venue, and the side it trades. -/
def prepare (quotes : Quotes) : OrderSide × Preparation :=
  match request.side with
  | none => (.buy, if request.tokenId = "" then .stopped "rejected" "Missing token_id for live order."
      else .stopped "rejected" "Invalid side for live order.")
  | some side => (side,
      if request.tokenId = "" then .stopped "rejected" "Missing token_id for live order."
      else if request.requestedSize ≤ 0 then .stopped "rejected" "Order size must be greater than zero."
      else match quotes.authCircuit with
      | some reason => .stopped "auth_unavailable" (if reason = "" then "Trading service authentication failed." else reason)
      | none =>
        if quotes.initialized = false then .stopped "not_ready" "Trading service is not initialized."
        else match request.resolvedPrice side quotes with
        | none => .stopped "rejected" "Could not resolve a valid live price."
        | some resolution =>
          if resolution.price ≤ 0 then .stopped "rejected" "Could not resolve a valid live price." else .resolved resolution.price)

/-- `execute_live_order` -/
def executeLiveOrder (ops : TextOps) (quotes : Quotes) : LegOrder.Venue LiveOrderExecution :=
  LegOrder.placeLive ops request.postOnly (request.prepare quotes).1 request.requestedSize request.tokenId (request.prepare quotes).2

/-- A limit that a call gives for its side: the execution bound, and the fallback where it binds. -/
def IsLimit (side : OrderSide) (limit : ℚ) : Prop :=
  request.executionBound side = some limit ∨ (request.FallbackBinds side ∧ request.fallbackPrice = some limit ∧ 0 < limit)

end LiveRequest

/-- A price on the right side of a limit, as near to it as the tick range allows. -/
def Respects (side : OrderSide) (limit price : ℚ) : Prop :=
  match side with
  | .buy => price ≤ max limit (1 / 100)
  | .sell => min limit (99 / 100) ≤ price

structure PriceKept (request : LiveRequest) (price : ℚ) : Prop where
  limits : ∀ side ∈ request.side, ∀ limit, request.IsLimit side limit → Respects side limit price
  range : |clampBinaryPrice price - price| < priceTolerance

section Limits
variable {side : OrderSide} {limit price : ℚ}

theorem Respects.clamp (respects : Respects side limit price) : Respects side limit (clampBinaryPrice price) := by
  unfold clampBinaryPrice postOnlyRepriceTick
  cases side with
  | buy => exact max_le (le_max_right _ _) ((min_le_right _ _).trans respects)
  | sell => exact (le_min (min_le_right _ _) respects).trans (le_max_right _ _)

theorem Respects.retry (respects : Respects side limit price) : Respects side limit (LegOrder.retryPrice side price) := by
  have tick : (0 : ℚ) ≤ postOnlyRepriceTick := by
    unfold postOnlyRepriceTick
    norm_num
  cases side with
  | buy => exact @Respects.clamp .buy limit _ ((sub_le_self _ tick).trans respects)
  | sell => exact @Respects.clamp .sell limit _ (le_trans respects (le_add_of_nonneg_right tick))

theorem Respects.normalized (respects : Respects side limit price) : Respects side limit (LegOrder.normalizedPrice price) := by
  unfold LegOrder.normalizedPrice
  split
  · exact respects.clamp
  · exact respects

theorem respects_bound (side : OrderSide) (limit price : ℚ) : Respects side limit (LiveRequest.bound side price limit) := by
  cases side with
  | buy => exact (min_le_right _ _).trans (le_max_left _ _)
  | sell => exact (min_le_left _ _).trans (le_max_right _ _)

theorem Respects.bound (respects : Respects side limit price) (other : ℚ) : Respects side limit (LiveRequest.bound side price other) := by
  cases side with
  | buy => exact (min_le_left _ _).trans respects
  | sell => exact le_trans respects (le_max_left _ _)

theorem respects_self (side : OrderSide) (limit : ℚ) : Respects side limit limit := by
  cases side with
  | buy => exact le_max_left _ _
  | sell => exact min_le_left _ _

theorem Respects.trans {other : ℚ} (respects : Respects side limit price) (inner : Respects side other limit) : Respects side other price := by
  cases side with
  | buy => exact le_trans respects (max_le inner (le_max_right _ _))
  | sell => exact le_trans (le_min inner (min_le_right _ _)) respects

theorem clamp_clamp (price : ℚ) : clampBinaryPrice (clampBinaryPrice price) = clampBinaryPrice price := by
  unfold clampBinaryPrice postOnlyRepriceTick
  have low : (1 / 100 : ℚ) ≤ max (1 / 100) (min (99 / 100) price) := le_max_left _ _
  have high : max (1 / 100) (min (99 / 100) price) ≤ (99 / 100 : ℚ) := max_le (by norm_num) (min_le_left _ _)
  rw [min_eq_right high, max_eq_right low]

theorem clamp_range (price : ℚ) : |clampBinaryPrice (clampBinaryPrice price) - clampBinaryPrice price| < priceTolerance := by
  rw [clamp_clamp, sub_self, abs_zero]
  unfold priceTolerance
  norm_num

theorem normalized_range (price : ℚ) :
    |clampBinaryPrice (LegOrder.normalizedPrice price) - LegOrder.normalizedPrice price| < priceTolerance := by
  unfold LegOrder.normalizedPrice
  split
  · exact clamp_range price
  · next near => exact not_le.1 near

end Limits

section Calls
variable {request : LiveRequest} {side : OrderSide} {limit : ℚ}

theorem fallback_respects (limited : request.IsLimit side limit) {price : ℚ} (held : request.fallback side = some price) :
    Respects side limit price := by
  unfold LiveRequest.fallback at held
  cases execution : request.executionBound side with
  | none =>
    rw [execution] at held
    rcases limited with given | ⟨_, given, _⟩
    · rw [execution] at given
      exact nomatch given
    · have same : some limit = some price := given.symm.trans held
      rw [Option.some.inj same]
      exact respects_self _ _
  | some bound =>
    rw [execution] at held
    have price_eq := (Option.some.inj held).symm
    rw [price_eq]
    rcases limited with given | ⟨_, given, positive⟩
    · rw [execution] at given
      rw [← Option.some.inj given]
      cases request.fallbackPrice with
      | none => exact respects_self _ _
      | some fallback =>
        dsimp only
        split
        · exact respects_self _ _
        · exact respects_bound _ _ _
    · rw [given]
      dsimp only
      rw [if_neg (not_le.2 positive)]
      exact (respects_self side limit).bound bound

theorem positiveFallback_some {price : ℚ} (held : request.positiveFallback side = some price) : request.fallback side = some price :=
  (Option.filter_eq_some_iff.1 held).1

theorem boundByExecution_respects (given : request.executionBound side = some limit) (quote : Resolution) :
    Respects side limit (request.boundByExecution side quote).price := by
  unfold LiveRequest.boundByExecution
  rw [given]
  exact respects_bound _ _ _

theorem positiveFallback_of_given (given : request.fallbackPrice = some limit) (positive : 0 < limit) :
    ∃ price, request.positiveFallback side = some price := by
  have found : ∃ price, request.fallback side = some price ∧ 0 < price := by
    unfold LiveRequest.fallback
    cases execution : request.executionBound side with
    | none => exact ⟨limit, given, positive⟩
    | some bound =>
      have bound_pos : 0 < bound := by
        unfold LiveRequest.executionBound at execution
        cases side with
        | buy => exact of_decide_eq_true (Option.filter_eq_some_iff.1 execution).2
        | sell => exact of_decide_eq_true (Option.filter_eq_some_iff.1 execution).2
      rw [given]
      dsimp only
      rw [if_neg (not_le.2 positive)]
      refine ⟨_, rfl, ?_⟩
      cases side with
      | buy => exact lt_min positive bound_pos
      | sell => exact lt_max_of_lt_left positive
  have ⟨price, held, price_pos⟩ := found
  exact ⟨price, Option.filter_eq_some_iff.2 ⟨held, decide_eq_true price_pos⟩⟩

theorem boundByFallback_respects (limited : request.IsLimit side limit) (quote : Resolution)
    (bounded : request.executionBound side = some limit → Respects side limit quote.price) :
    Respects side limit (request.boundByFallback side quote).price := by
  unfold LiveRequest.boundByFallback
  rcases limited with given | ⟨binds, given, positive⟩
  · cases request.positiveFallback side with
    | none => exact bounded given
    | some fallback =>
      dsimp only
      split
      · exact ((bounded given).bound fallback).clamp
      · exact bounded given
  · have ⟨fallback, held⟩ := @positiveFallback_of_given request side limit given positive
    rw [held]
    dsimp only
    rw [if_pos binds]
    exact ((respects_bound side fallback quote.price).trans
      (fallback_respects (Or.inr ⟨binds, given, positive⟩) (positiveFallback_some held))).clamp

theorem minNotionalGuard_respects (limited : request.IsLimit side limit) (quote : Resolution) (respects : Respects side limit quote.price) :
    Respects side limit (request.minNotionalGuard side quote).price := by
  unfold LiveRequest.minNotionalGuard
  cases held : request.positiveFallback side with
  | none => exact respects
  | some fallback =>
    dsimp only
    split
    · exact fallback_respects limited (positiveFallback_some held)
    · exact respects

theorem resolvedPrice_respects (limited : request.IsLimit side limit) {quotes : Quotes} {resolution : Resolution}
    (resolved : request.resolvedPrice side quotes = some resolution) : Respects side limit resolution.price := by
  have fallen : ∀ label, (request.fallback side).map (fun price => (⟨price, label⟩ : Resolution)) = some resolution →
      Respects side limit resolution.price := by
    intro label held
    have ⟨price, found, same⟩ := Option.map_eq_some_iff.1 held
    rw [← same]
    exact fallback_respects limited found
  unfold LiveRequest.resolvedPrice at resolved
  by_cases live : request.resolveLivePrice = true
  · rw [if_pos live] at resolved
    cases quoted : request.liveQuote side quotes with
    | none =>
      rw [quoted] at resolved
      exact fallen _ resolved
    | some quote =>
      rw [quoted] at resolved
      dsimp only at resolved
      by_cases positive : 0 < quote.price
      · rw [if_pos positive] at resolved
        rw [← Option.some.inj resolved]
        exact minNotionalGuard_respects limited _ (boundByFallback_respects limited _ fun given => boundByExecution_respects given _)
      · rw [if_neg positive] at resolved
        exact fallen _ resolved
  · rw [if_neg live] at resolved
    exact fallen _ resolved

theorem prepare_resolved {quotes : Quotes} {price : ℚ} (prepared : request.prepare quotes = (side, .resolved price)) :
    request.side = some side ∧ ∃ resolution, request.resolvedPrice side quotes = some resolution ∧ resolution.price = price := by
  unfold LiveRequest.prepare at prepared
  cases given : request.side with
  | none =>
    rw [given] at prepared
    dsimp only at prepared
    split at prepared <;> exact nomatch prepared
  | some own =>
    rw [given] at prepared
    have side_eq : own = side := congrArg Prod.fst prepared
    have outcome := congrArg Prod.snd prepared
    rw [side_eq] at outcome
    dsimp only at outcome
    refine ⟨congrArg some side_eq, ?_⟩
    split at outcome
    · exact nomatch outcome
    · split at outcome
      · exact nomatch outcome
      · split at outcome
        · exact nomatch outcome
        · split at outcome
          · exact nomatch outcome
          · split at outcome
            · exact nomatch outcome
            · next resolution resolved =>
              split at outcome
              · exact nomatch outcome
              · exact ⟨resolution, resolved, Preparation.resolved.inj outcome⟩

end Calls

/-- Every price that a call sends, at first and again, keeps to its limits and to the tick range. -/
theorem executeLiveOrder_priceKept (ops : TextOps) (request : LiveRequest) (quotes : Quotes) :
    (request.executeLiveOrder ops quotes).AllAsk fun placement => PriceKept request placement.price := by
  rcases prepared : request.prepare quotes with ⟨side, preparation⟩
  have kept : ∀ resolved, preparation = .resolved resolved → request.side = some side ∧
      ∀ limit, request.IsLimit side limit → Respects side limit (LegOrder.normalizedPrice resolved) := by
    rintro resolved rfl
    obtain ⟨given, resolution, found, price_eq⟩ := prepare_resolved prepared
    refine ⟨given, fun limit limited => ?_⟩
    exact (price_eq ▸ resolvedPrice_respects limited found : Respects side limit resolved).normalized
  have own : ∀ {other : OrderSide}, request.side = some side → other ∈ request.side → side = other :=
    fun given member => Option.some.inj (given.symm.trans member)
  unfold LiveRequest.executeLiveOrder
  rw [prepared]
  refine LegOrder.allAsk_placeLive (fun resolved found => ?_) fun resolved found => ?_
  · obtain ⟨given, respects⟩ := kept resolved found
    refine ⟨fun other member limit limited => ?_, normalized_range resolved⟩
    rw [← own given member] at limited ⊢
    exact respects limit limited
  · obtain ⟨given, respects⟩ := kept resolved found
    refine ⟨fun other member limit limited => ?_, ?_⟩
    · rw [← own given member] at limited ⊢
      exact (respects limit limited).retry
    · cases side with
      | buy => exact clamp_range _
      | sell => exact clamp_range _

/-- The strict reading: the limits to the last digit, and the tick range without a tolerance. -/
def Strict (request : LiveRequest) (price : ℚ) : Prop :=
  (∀ side ∈ request.side, ∀ limit, request.IsLimit side limit → match side with
    | .buy => price ≤ limit
    | .sell => limit ≤ price) ∧ 1 / 100 ≤ price ∧ price ≤ 99 / 100

def readyService : Quotes := ⟨none, true, none, none, none⟩

def explicitBuy (fallbackPrice maxExecutionPrice : Option ℚ) : LiveRequest :=
  ⟨"t", some .buy, 10, fallbackPrice, 0, false, false, true, none, false, maxExecutionPrice, none, false⟩

/-- A bound of half a cent is raised to the tick, and a price within the tolerance above the range is sent as it is. -/
theorem explicitBuy_not_strict :
    ¬ ((explicitBuy none (some (1 / 200))).executeLiveOrder plainOps readyService).AllAsk
        (fun placement => Strict (explicitBuy none (some (1 / 200))) placement.price) ∧
    ¬ ((explicitBuy (some (99 / 100 + 1 / 2000000000)) none).executeLiveOrder plainOps readyService).AllAsk
        (fun placement => Strict (explicitBuy (some (99 / 100 + 1 / 2000000000)) none) placement.price) := by
  refine ⟨fun all => ?_, fun all => ?_⟩
  · have sent : (((explicitBuy none (some (1 / 200))).executeLiveOrder plainOps readyService).request?).map Placement.price = some (1 / 100) := by
      decide +kernel
    have ⟨placement, waits, price⟩ := Option.map_eq_some_iff.1 sent
    have above := (all.request waits).1 .buy rfl (1 / 200) (Or.inl (by decide +kernel))
    rw [price] at above
    exact absurd above (by decide +kernel)
  · have sent : (((explicitBuy (some (99 / 100 + 1 / 2000000000)) none).executeLiveOrder plainOps readyService).request?).map Placement.price =
        some (99 / 100 + 1 / 2000000000) := by decide +kernel
    have ⟨placement, waits, price⟩ := Option.map_eq_some_iff.1 sent
    have within := (all.request waits).2.2
    rw [price] at within
    exact absurd within (by decide +kernel)

end Callisto.Orders
