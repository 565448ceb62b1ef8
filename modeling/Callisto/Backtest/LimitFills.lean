import Callisto.Backtest.MatchingAudit

/-! Fills and limits: a resting order fills at its own price, and a taker within its limit where the impact leaves it there. -/

namespace Callisto.Backtest

open Callisto.Library Callisto.Library.Runs

/-- `ImpactModel`, in basis points. The square root and the power are those of the floating-point numbers. -/
structure ImpactModel where
  strengthBps : ℚ := 0
  capBps : ℚ := 200
  capacityThreshold : ℚ := 1 / 2
  capacityExponent : ℚ := 3 / 2

def ImpactModel.adverseBps (sqrt : ℚ → ℚ) (pow : ℚ → ℚ → ℚ) (impact : ImpactModel) (yourSizeShares sideVisibleDepthShares : ℚ) : ℚ :=
  if impact.strengthBps ≤ 0 then 0
  else if yourSizeShares ≤ 0 ∨ sideVisibleDepthShares ≤ 0 then 0
  else
    let ratio := max 0 (yourSizeShares / sideVisibleDepthShares)
    let threshold := max (1 / 10 ^ 6) impact.capacityThreshold
    let bps :=
      if ratio ≤ threshold then impact.strengthBps * sqrt ratio
      else impact.strengthBps * sqrt threshold + impact.strengthBps * pow (ratio - threshold) impact.capacityExponent
    min bps (max 0 impact.capBps)

def Side.Within (side : Side) (limit price : ℚ) : Prop :=
  match side with
  | .buy => price ≤ limit + slack
  | .sell => limit - slack ≤ price

instance (side : Side) (limit price : ℚ) : Decidable (side.Within limit price) := by
  unfold Side.Within
  cases side <;> infer_instance

def BacktestOrder.Limited (order : BacktestOrder) : Prop := ∀ fill ∈ order.fills, order.side.Within order.price fill.price

instance (order : BacktestOrder) : Decidable order.Limited := inferInstanceAs (Decidable (∀ fill ∈ order.fills, _))

def MatchingConfig.impactOn (config : MatchingConfig) (order : BacktestOrder) (book : ResidualBook) : ℚ :=
  config.adverseBps order.remainingSize
    (((book.remaining order.side).filter fun level => ¬ level.2 ≤ 0 ∧ ¬ order.side.Beyond order.price level.1).map Prod.snd).sum

/-- The taker reaches the level behind these ones: none of them stops it, and they hold less than it wants. -/
def Arrives (side : Side) (limit wanted : ℚ) (before : List (ℚ × ℚ)) : Prop :=
  (∀ level ∈ before, 0 < level.2 → ¬ side.Beyond limit level.1) ∧ (before.map fun level => max 0 level.2).sum < wanted

/-- At each level that the taker reaches, and whose displayed price is within its limit, the price after the impact is too. -/
def AdjustsWithin (side : Side) (limit wanted impactBps : ℚ) (levels : List (ℚ × ℚ)) : Prop :=
  ∀ index (inside : index < levels.length), 0 < levels[index].2 → Arrives side limit wanted (levels.take index) →
    ¬ side.Beyond limit levels[index].1 → side.Within limit (MatchingConfig.adjustedPrice side levels[index].1 impactBps)

instance (side : Side) (limit wanted : ℚ) (before : List (ℚ × ℚ)) : Decidable (Arrives side limit wanted before) := by
  unfold Arrives
  infer_instance

instance (side : Side) (limit wanted impactBps : ℚ) (levels : List (ℚ × ℚ)) : Decidable (AdjustsWithin side limit wanted impactBps levels) := by
  unfold AdjustsWithin
  infer_instance

theorem AdjustsWithin.of_no_impact {side : Side} {limit wanted impactBps : ℚ} (off : impactBps ≤ 0) (levels : List (ℚ × ℚ)) :
    AdjustsWithin side limit wanted impactBps levels := by
  intro index inside _ _ near
  have factor : ¬ 0 < impactBps / 10000 := not_lt.2 (div_nonpos_of_nonpos_of_nonneg off (by norm_num))
  have displayed : MatchingConfig.adjustedPrice side levels[index].1 impactBps = levels[index].1 := if_neg factor
  rw [displayed]
  cases side with
  | buy => exact sub_le_iff_le_add.1 (not_lt.1 near)
  | sell => exact sub_le_iff_le_add.2 (not_lt.1 near)

theorem ImpactModel.adverseBps_of_off (sqrt : ℚ → ℚ) (pow : ℚ → ℚ → ℚ) {impact : ImpactModel} (off : impact.strengthBps ≤ 0)
    (size depth : ℚ) : impact.adverseBps sqrt pow size depth = 0 := if_pos off

def BacktestOrder.Takes (order : BacktestOrder) (book : ResidualBook) : Prop :=
  ¬ (order.postOnly ∧ book.snapshot.crossesBook order.side order.price) ∧
    if order.tif = .fok then ¬ MatchingConfig.availableForTaker book order.side order.price + slack < order.size
    else book.snapshot.isMarketable order.side order.price

instance (order : BacktestOrder) (book : ResidualBook) : Decidable (order.Takes book) := by
  unfold BacktestOrder.Takes
  infer_instance

section Walks

variable {config : MatchingConfig} {order : BacktestOrder}

theorem AdjustsWithin.of_cons {side : Side} {limit wanted impactBps price qty : ℚ} {rest : List (ℚ × ℚ)} (taken : ℚ)
    (within : AdjustsWithin side limit wanted impactBps ((price, qty) :: rest)) (near : 0 < qty → ¬ side.Beyond limit price)
    (left : max 0 qty ≤ taken ∨ wanted - taken ≤ 0) : AdjustsWithin side limit (wanted - taken) impactBps rest := by
  intro index shown some_ arrives inside
  have nonneg : 0 ≤ ((rest.take index).map fun level => max 0 level.2).sum := by
    apply List.sum_nonneg
    intro part member
    have ⟨level, _, same⟩ := List.mem_map.1 member
    exact same ▸ le_max_left _ _
  have less := arrives.2
  have further : Arrives side limit wanted ((price, qty) :: rest.take index) := by
    constructor
    · intro level member
      cases List.mem_cons.1 member with
      | inl same => exact same ▸ near
      | inr inner => exact arrives.1 level inner
    · rw [List.map_cons, List.sum_cons]
      cases left with
      | inl all => linarith
      | inr none_ => linarith
  exact within (index + 1) (Nat.succ_lt_succ shown) some_ further inside

theorem takerWalk_limited {now : Instant} {impactBps : ℚ} (levels : List (ℚ × ℚ)) (index : ℕ) (walk : Walk)
    (limited : walk.order.Limited) (within : AdjustsWithin walk.order.side walk.order.price walk.remaining impactBps levels) :
    (config.takerWalk now impactBps index levels walk).order.Limited := by
  induction levels generalizing index walk with
  | nil => exact limited
  | cons level rest ih =>
    have ⟨price, qty⟩ := level
    unfold MatchingConfig.takerWalk
    split_ifs with done empty beyond
    · exact limited
    · have next := within.of_cons 0 (fun some_ => absurd empty (not_le.2 some_)) (Or.inl (max_le le_rfl empty))
      rw [sub_zero] at next
      exact ih (index + 1) walk limited next
    · exact limited
    · have some_ : 0 < qty := not_le.1 empty
      have wanted : 0 < walk.remaining := not_le.1 done
      have here : walk.order.side.Within walk.order.price (MatchingConfig.adjustedPrice walk.order.side price impactBps) :=
        within 0 (Nat.succ_pos _) some_ ⟨fun _ member => absurd member List.not_mem_nil, by simpa using wanted⟩ beyond
      have left : max 0 qty ≤ min qty walk.remaining ∨ walk.remaining - min qty walk.remaining ≤ 0 := by
        rw [max_eq_right some_.le]
        cases le_total qty walk.remaining with
        | inl part => exact Or.inl (le_min le_rfl part)
        | inr all => exact Or.inr (by rw [min_eq_right all, sub_self])
      apply ih (index + 1)
      · intro fill member
        cases List.mem_append.1 member with
        | inl old => exact limited fill old
        | inr new =>
          rw [List.mem_singleton.1 new]
          exact here
      · exact within.of_cons _ (fun _ => beyond) left

theorem consumeLevels_limited {now : Instant} {book : ResidualBook} {produced : List Fill} (limited : order.Limited)
    (within : AdjustsWithin order.side order.price order.remainingSize (config.impactOn order book) (book.remaining order.side)) :
    (config.consumeLevels now order book produced).order.Limited := by
  unfold MatchingConfig.consumeLevels
  split_ifs
  · exact limited
  · exact takerWalk_limited _ 0 ⟨order, book, produced, order.remainingSize⟩ limited within

theorem within_own_price (side : Side) (price : ℚ) : side.Within price price := by
  have positive : (0 : ℚ) < slack := by norm_num [slack]
  cases side with
  | buy => exact le_add_of_nonneg_right positive.le
  | sell => exact sub_le_self _ positive.le

theorem restingWalk_limited (limited : order.Limited) (book : ResidualBook) (produced : List Fill) (levels : List (ℚ × ℚ)) :
    (config.restingWalk 0 levels ⟨order, book, produced, order.remainingSize⟩).order.Limited := by
  have notes : ∀ (walk : Walk) (noted : BacktestOrder), walk.order.Limited → walk.order.NotedAs noted → noted.Limited := by
    intro walk noted held same
    have ⟨probability, equal⟩ := same
    rw [equal]
    exact held
  have fills : ∀ (walk : Walk) index take probability, walk.order.Limited → 0 < take → take ≤ walk.remaining →
      (walk.fillFrom index (config.restingFill walk.book.snapshot walk.order take probability) walk.order.price).order.Limited := by
    intro walk index take probability held _ _ fill member
    cases List.mem_append.1 member with
    | inl old => exact held fill old
    | inr new =>
      rw [List.mem_singleton.1 new]
      exact within_own_price walk.order.side walk.order.price
  exact @MatchingConfig.restingWalk_keeps config (fun walk => walk.order.Limited) notes fills levels 0 _ limited

end Walks

namespace MatchingEngine

variable {config : MatchingConfig} {engine next : MatchingEngine} {order : BacktestOrder}

def RespectsLimits (engine : MatchingEngine) : Prop := ∀ id order, engine.orders.get? id = some order → order.Limited

theorem RespectsLimits.set (within : engine.RespectsLimits) {id : String} (limited : order.Limited)
    (orders : next.orders = engine.orders.set id order) : next.RespectsLimits := by
  intro other held found
  rw [orders, Dict.get?_set] at found
  split at found
  · cases found
    exact limited
  · exact within other held found

theorem RespectsLimits.congr (within : engine.RespectsLimits) (orders : next.orders = engine.orders) : next.RespectsLimits := by
  unfold RespectsLimits
  rw [orders]
  exact within

theorem limited_ended (limited : order.Limited) (state : OrderState) : (ended order state).Limited := by
  unfold ended
  split_ifs
  · exact limited
  · exact limited

theorem RespectsLimits.terminate (within : engine.RespectsLimits) (limited : order.Limited) (state : OrderState) :
    (engine.terminate order state).RespectsLimits := by
  intro id held found
  rw [get?_terminate] at found
  split at found
  · cases found
    exact limited_ended limited state
  · exact within id held found

theorem RespectsLimits.restAs (within : engine.RespectsLimits) (limited : order.Limited) (state : OrderState) (snapshot : BookSnapshot) :
    (engine.restAs config order state snapshot).RespectsLimits := by
  have rested_limited : (rested config order state snapshot).Limited := limited
  exact (within.set rested_limited rfl : (engine.put (rested config order state snapshot)).RespectsLimits).congr (orders_addToWorking _ _)

theorem RespectsLimits.handleAdmit (within : engine.RespectsLimits) (limited : order.Limited) (now : Instant) (produced : List Fill)
    (adjusts : ∀ book, engine.books.get? order.tokenId = some book → order.Takes book →
      AdjustsWithin order.side order.price order.remainingSize (config.impactOn order book) (book.remaining order.side)) :
    (engine.handleAdmit config now produced order).1.RespectsLimits := by
  unfold MatchingEngine.handleAdmit
  cases found : engine.books.get? order.tokenId with
  | none => exact within
  | some book =>
    have taken (takes : order.Takes book) : (config.consumeLevels now order book produced).order.Limited :=
      consumeLevels_limited limited (adjusts book found takes)
    have matched : (engine.putBook (config.consumeLevels now order book produced).book).RespectsLimits := within.congr rfl
    unfold BacktestOrder.Takes at taken
    dsimp only
    split_ifs with crosses fok short marketable left immediate late
    · exact within.terminate (by exact limited) .rejected
    · exact within.terminate (by exact limited) .rejected
    · exact matched.terminate (taken ⟨crosses, by rw [if_pos fok]; exact short⟩) .filled
    · exact matched.terminate (by exact taken ⟨crosses, by rwa [if_neg fok]⟩) .cancelled
    · exact matched.restAs (taken ⟨crosses, by rwa [if_neg fok]⟩) .partially _
    · exact matched.terminate (taken ⟨crosses, by rwa [if_neg fok]⟩) .filled
    · exact within.terminate (by exact limited) .cancelled
    · exact within.restAs limited .working book.snapshot

theorem RespectsLimits.tryMatchResting (within : engine.RespectsLimits) (limited : order.Limited) (produced : List Fill) :
    (engine.tryMatchResting config produced order).1.RespectsLimits := by
  unfold MatchingEngine.tryMatchResting
  cases engine.books.get? order.tokenId with
  | none => exact within
  | some book =>
    have walked : (config.restingWalk 0 (book.remaining order.side) ⟨order, book, produced, order.remainingSize⟩).order.Limited :=
      restingWalk_limited limited book produced (book.remaining order.side)
    dsimp only
    generalize config.restingWalk 0 (book.remaining order.side) ⟨order, book, produced, order.remainingSize⟩ = walk at walked ⊢
    have put : ((engine.putBook walk.book).put walk.order).RespectsLimits := within.set walked rfl
    split_ifs
    · exact within
    · exact within
    · exact (put.terminate walked .filled).congr (orders_removeFromWorking _ _)
    · exact put

theorem RespectsLimits.applyCancel (within : engine.RespectsLimits) (orderId : String) (effectiveAt : Instant) :
    (engine.applyCancel orderId effectiveAt).RespectsLimits := by
  unfold MatchingEngine.applyCancel
  cases found : engine.orders.get? orderId with
  | none => exact within
  | some order =>
    have limited : { order with cancelledAt := some effectiveAt }.Limited := within orderId order found
    dsimp only
    split_ifs
    · exact within
    · exact within.terminate limited .cancelled
    · exact (within.terminate limited .cancelled).congr (orders_removeFromWorking _ _)

theorem RespectsLimits.applyDueCancels (within : engine.RespectsLimits) (now : Instant) : (engine.applyDueCancels now).RespectsLimits := by
  unfold MatchingEngine.applyDueCancels
  generalize engine.pendingCancels.entries = entries
  induction entries generalizing engine with
  | nil => exact within
  | cons entry rest ih =>
    rw [List.foldl_cons]
    apply ih
    split
    · exact (within.applyCancel entry.1 entry.2).congr rfl
    · exact within

theorem RespectsLimits.decayQueue (within : engine.RespectsLimits) (config : MatchingConfig) (old new : ResidualBook) (id : String) :
    (engine.decayQueue config old new id).RespectsLimits := by
  unfold MatchingEngine.decayQueue
  cases found : engine.orders.get? id with
  | none => exact within
  | some order =>
    dsimp only
    split
    · exact within
    · split_ifs
      · exact within
      · exact within.set (by exact within id order found) rfl

theorem RespectsLimits.refreshBook (within : engine.RespectsLimits) (config : MatchingConfig) (snapshot : BookSnapshot) :
    (engine.refreshBook config snapshot).RespectsLimits := by
  unfold MatchingEngine.refreshBook
  cases engine.books.get? snapshot.tokenId with
  | none => exact within
  | some old =>
    have start : ({ engine with books := engine.books.set snapshot.tokenId { snapshot := snapshot } } : MatchingEngine).RespectsLimits := within
    dsimp only
    generalize engine.working snapshot.tokenId = ids
    generalize ({ engine with books := engine.books.set snapshot.tokenId { snapshot := snapshot } } : MatchingEngine) = refreshed at start ⊢
    induction ids generalizing refreshed with
    | nil => exact start
    | cons id rest ih =>
      rw [List.foldl_cons]
      exact ih _ (start.decayQueue config old _ id)

/-- The due order, if the venue matches it, reaches no level whose price the impact takes past its limit. -/
def AdmitsWithin (config : MatchingConfig) (snapshot : BookSnapshot) (state : MatchingEngine × List Fill) (orderId : String) : Prop :=
  ∀ order, state.1.orders.get? orderId = some order → order.tokenId = snapshot.tokenId → order.state = .pending →
    (order.venueReceivedAt.any fun received => received ≤ snapshot.observedAt) = true →
      ∀ book, state.1.books.get? order.tokenId = some book → order.Takes book →
        AdjustsWithin order.side order.price order.remainingSize (config.impactOn order book) (book.remaining order.side)

instance (config : MatchingConfig) (snapshot : BookSnapshot) (state : MatchingEngine × List Fill) (orderId : String) :
    Decidable (AdmitsWithin config snapshot state orderId) := by
  unfold AdmitsWithin
  infer_instance

def ImpactsWithin (config : MatchingConfig) (engine : MatchingEngine) : MatchingCall → Prop
  | .advanceTo snapshot => (∀ now, engine.now = some now → now ≤ snapshot.observedAt) →
      Meets (admitDue config snapshot) (AdmitsWithin config snapshot) (engine.refreshedAt config snapshot, [])
        ((engine.refreshedAt config snapshot).orders.entries.map Prod.fst)
  | _ => True

/-- An impact that is switched off leaves every admission within its limits. -/
theorem ImpactsWithin.of_no_impact (off : ∀ size depth, config.adverseBps size depth ≤ 0) (engine : MatchingEngine)
    (calls : List MatchingCall) : Meets (step config) (ImpactsWithin config) engine calls := by
  have each (state : MatchingEngine) (call : MatchingCall) : state.ImpactsWithin config call := by
    cases call with
    | submit => trivial
    | cancel => trivial
    | advanceTo snapshot =>
      intro _
      exact Meets.of_forall (fun _ _ _ _ _ _ _ book _ _ => .of_no_impact (off _ _) _) _ _
  exact Meets.of_forall each engine calls

theorem RespectsLimits.admitDue {snapshot : BookSnapshot} {state : MatchingEngine × List Fill} {orderId : String} (within : state.1.RespectsLimits)
    (admits : AdmitsWithin config snapshot state orderId) : (MatchingEngine.admitDue config snapshot state orderId).1.RespectsLimits := by
  unfold MatchingEngine.admitDue
  cases found : state.1.orders.get? orderId with
  | none => exact within
  | some order =>
    dsimp only
    split_ifs with due
    · exact within.handleAdmit (within orderId order found) snapshot.observedAt state.2
        (admits order found due.1 due.2.1 due.2.2)
    · exact within

theorem RespectsLimits.matchWorking {state : MatchingEngine × List Fill} (within : state.1.RespectsLimits)
    (config : MatchingConfig) (orderId : String) :
    (MatchingEngine.matchWorking config state orderId).1.RespectsLimits := by
  unfold MatchingEngine.matchWorking
  cases found : state.1.orders.get? orderId with
  | none => exact within
  | some order =>
    dsimp only
    split_ifs
    · exact within
    · exact within.tryMatchResting (within orderId order found) state.2

theorem RespectsLimits.advanceTo {snapshot : BookSnapshot} {fills : List Fill} (within : engine.RespectsLimits)
    (impacts : engine.ImpactsWithin config (.advanceTo snapshot)) (done : engine.advanceTo config snapshot = .ok (next, fills)) :
    next.RespectsLimits := by
  have ⟨clock, _, same⟩ := advanceTo_phases done
  have timed : ({ engine with now := some snapshot.observedAt } : MatchingEngine).RespectsLimits := within
  have refreshed : (engine.refreshedAt config snapshot).RespectsLimits := (timed.applyDueCancels _).refreshBook config snapshot
  have admitted : (engine.admittedAt config snapshot).1.RespectsLimits := by
    unfold admittedAt
    rw [← run_eq_foldl]
    exact @invariant _ _ (MatchingEngine.admitDue config snapshot) (AdmitsWithin config snapshot) (fun state => state.1.RespectsLimits)
      (fun _ _ held admits => held.admitDue admits) _ _ refreshed (impacts clock)
  have matched : (engine.matchedAt config snapshot).1.RespectsLimits := by
    unfold matchedAt
    rw [← run_eq_foldl]
    exact @invariant_all _ _ (MatchingEngine.matchWorking config) (fun state => state.1.RespectsLimits)
      (fun _ id held => held.matchWorking config id) _ admitted _
  rw [same]
  exact matched

theorem RespectsLimits.submit {new : NewOrder} {latency : Instant} (within : engine.RespectsLimits)
    (done : engine.submit config new latency = .ok next) : next.RespectsLimits := by
  have none_ : ∀ order : BacktestOrder, order.fills = [] → order.Limited := by
    intro order empty fill member
    rw [empty] at member
    exact absurd member List.not_mem_nil
  obtain ⟨-, ⟨reason, rfl⟩ | ⟨adjusted, -, rfl⟩⟩ := submit_spec done
  · exact within.set (none_ _ rfl) rfl
  · exact within.set (none_ _ rfl) rfl

theorem RespectsLimits.cancel (within : engine.RespectsLimits) (orderId : String) (requestedAt latency : Instant) :
    (engine.cancel orderId requestedAt latency).1.RespectsLimits := by
  unfold MatchingEngine.cancel
  cases found : engine.orders.get? orderId with
  | none => exact within
  | some order =>
    have limited := within orderId order found
    dsimp only
    split_ifs
    · exact within
    · exact within
    · exact within.set (by exact limited) rfl

theorem RespectsLimits.step (within : engine.RespectsLimits) (call : MatchingCall) (impacts : engine.ImpactsWithin config call) :
    (engine.step config call).RespectsLimits := by
  unfold MatchingEngine.step
  cases call with
  | submit order latency =>
    dsimp only
    split
    case h_1 done => exact within.submit done
    case h_2 => exact within
  | cancel orderId requestedAt latency => exact within.cancel orderId requestedAt latency
  | advanceTo snapshot =>
    dsimp only
    split
    case h_1 done => exact within.advanceTo impacts done
    case h_2 => exact within

/-- In a run whose admissions the impact leaves within their limits, every fill is within the limit of its order throughout. -/
theorem respectsLimits_run (config : MatchingConfig) (calls : List MatchingCall) (impacts : Meets (step config) (ImpactsWithin config) {} calls) :
    Always (step config) RespectsLimits {} calls :=
  always_of_meets (fun _ call within impacts => within.step call impacts) (fun _ _ found => nomatch found) impacts

/-- An engine whose impact is one percent on a taker of all that is displayed. -/
def onePercent : MatchingConfig where
  adverseBps := ImpactModel.adverseBps id (fun _ _ => 0) { strengthBps := 100, capacityThreshold := 1 }

def takesAll (limit : ℚ) : List MatchingCall :=
  [.submit ⟨"a", "T", .buy, limit, 10, .gtc, false, 0, none⟩ 0, .advanceTo ⟨"T", 1, [], [⟨1 / 2, 10⟩], none⟩]

/-- At a limit of 51 cents the buy pays 50.5 cents. -/
theorem respectsLimits_takesAll : Meets (step onePercent) (ImpactsWithin onePercent) {} (takesAll (51 / 100)) ∧
    Always (step onePercent) RespectsLimits {} (takesAll (51 / 100)) := by
  have impacts : Meets (step onePercent) (ImpactsWithin onePercent) {} (takesAll (51 / 100)) := by
    refine ⟨trivial, fun _ => ?_, trivial⟩
    decide +kernel
  exact ⟨impacts, respectsLimits_run onePercent (takesAll (51 / 100)) impacts⟩

/-- At a limit of 50 cents it is filled at 50.5 cents. -/
theorem not_respectsLimits_takesAll : ¬ Always (step onePercent) RespectsLimits {} (takesAll (1 / 2)) := by
  intro within
  have last := within (takesAll (1 / 2)) List.prefix_rfl "a"
  revert last
  decide +kernel

end MatchingEngine

end Callisto.Backtest
