import Callisto.Backtest.MatchingAdvance
import Callisto.Backtest.MatchingAudit

/-! The times of the fills: which snapshot priced a fill, what it is stamped with, and which cancels it
may not follow. -/

namespace Callisto.Backtest

open Callisto.Library Callisto.Library.Runs

/-- A fill carries the stamp of its kind: a match at rest the time of the snapshot, an admission the time the
venue received the order. -/
structure Fill.StampedBy (fill : Fill) (order : BacktestOrder) (snapshot : BookSnapshot) : Prop where
  orderId : fill.orderId = order.orderId
  tokenId : fill.tokenId = order.tokenId
  sequence : fill.venueSequence = snapshot.sequence
  stamp : fill.occurredAt =
    if fill.notes.maker then snapshot.observedAt else order.venueReceivedAt.getD snapshot.observedAt

/-- A walk of an order over the book of a snapshot, with only stamped fills added. -/
structure Walk.Stamps (start : BacktestOrder) (snapshot : BookSnapshot) (before : List Fill) (walk : Walk) : Prop where
  terms : walk.order.toNewOrder = start.toNewOrder
  received : walk.order.venueReceivedAt = start.venueReceivedAt
  shown : walk.book.snapshot = snapshot
  fills : ∃ more, walk.produced = before ++ more ∧ ∀ fill ∈ more, fill.StampedBy start snapshot

namespace Walk.Stamps

variable {start : BacktestOrder} {snapshot : BookSnapshot} {before : List Fill} {walk : Walk}

theorem fillFrom (stamps : walk.Stamps start snapshot before) {fill : Fill} (stamped : fill.StampedBy start snapshot)
    (index : ℕ) (consumedAt : ℚ) : (walk.fillFrom index fill consumedAt).Stamps start snapshot before := by
  obtain ⟨more, produced, each⟩ := stamps.fills
  have shown : (walk.fillFrom index fill consumedAt).book.snapshot = snapshot := by
    rw [← stamps.shown]
    exact ResidualBook.snapshot_take _ _ _
  have added : (walk.fillFrom index fill consumedAt).produced = before ++ (more ++ [fill]) := by
    rw [Walk.fillFrom, produced, List.append_assoc]
  refine ⟨stamps.terms, stamps.received, shown, more ++ [fill], added, fun other member => ?_⟩
  rcases List.mem_append.1 member with old | new
  · exact each other old
  · rw [List.mem_singleton.1 new]
    exact stamped

theorem noted (stamps : walk.Stamps start snapshot before) {order : BacktestOrder} (noted : walk.order.NotedAs order) :
    Walk.Stamps start snapshot before { walk with order := order } := by
  obtain ⟨probability, rfl⟩ := noted
  exact ⟨stamps.terms, stamps.received, stamps.shown, stamps.fills⟩

end Walk.Stamps

namespace MatchingConfig

variable (config : MatchingConfig) (order : BacktestOrder) (book : ResidualBook) (produced : List Fill)

theorem consumeLevels_stamps :
    (config.consumeLevels book.snapshot.observedAt order book produced).Stamps order book.snapshot produced := by
  have start : Walk.Stamps order book.snapshot produced ⟨order, book, produced, order.remainingSize⟩ :=
    ⟨rfl, rfl, rfl, [], by simp⟩
  unfold consumeLevels
  split_ifs
  · exact start
  · apply takerWalk_keeps
    · intro walk index price take stamps _ _ _
      apply stamps.fillFrom
      constructor
      · exact congrArg NewOrder.orderId stamps.terms
      · exact congrArg NewOrder.tokenId stamps.terms
      · exact congrArg BookSnapshot.sequence stamps.shown
      · show walk.order.venueReceivedAt.getD book.snapshot.observedAt = _
        rw [stamps.received]
        rfl
    · exact start

theorem restingWalk_stamps :
    (config.restingWalk 0 (book.remaining order.side) ⟨order, book, produced, order.remainingSize⟩).Stamps order
      book.snapshot produced := by
  apply restingWalk_keeps
  · exact fun walk other stamps noted => stamps.noted noted
  · intro walk index take probability stamps _ _
    apply stamps.fillFrom
    constructor
    · exact congrArg NewOrder.orderId stamps.terms
    · exact congrArg NewOrder.tokenId stamps.terms
    · exact congrArg BookSnapshot.sequence stamps.shown
    · show walk.book.snapshot.observedAt = _
      rw [stamps.shown]
      rfl
  · exact ⟨rfl, rfl, rfl, [], by simp⟩

end MatchingConfig

namespace MatchingEngine

variable {config : MatchingConfig} {engine next : MatchingEngine} {snapshot : BookSnapshot} {ledger produced : List Fill}
  {id : String} {order old new : BacktestOrder}

/-- What one order at the engine does: the fills it adds are stamped, and the other orders stay as they are. -/
structure Serves (engine : MatchingEngine) (order : BacktestOrder) (snapshot : BookSnapshot) (produced : List Fill)
    (result : MatchingEngine × List Fill) : Prop where
  others : ∀ other, order.orderId ≠ other → result.1.orders.get? other = engine.orders.get? other
  fills : ∃ more, result.2 = produced ++ more ∧ ∀ fill ∈ more, fill.StampedBy order snapshot

theorem others_terminate (last : BacktestOrder) (state : OrderState) (other : String)
    (foreign : order.orderId ≠ other) (own : last.orderId = order.orderId) :
    (engine.terminate last state).orders.get? other = engine.orders.get? other := by
  rw [get?_terminate, own, if_neg foreign]

theorem others_restAs (last : BacktestOrder) (state : OrderState) (shown : BookSnapshot)
    (other : String) (foreign : order.orderId ≠ other) (own : last.orderId = order.orderId) :
    (engine.restAs config last state shown).orders.get? other = engine.orders.get? other := by
  rw [restAs, orders_addToWorking, get?_put]
  exact if_neg (by rw [rested, own]; exact foreign)

theorem serves_handleAdmit (config : MatchingConfig) (produced : List Fill) (order : BacktestOrder)
    (shown : ∀ book, engine.books.get? order.tokenId = some book → book.snapshot = snapshot) :
    engine.Serves order snapshot produced (engine.handleAdmit config snapshot.observedAt produced order) := by
  have none_ : ∃ more, produced = produced ++ more ∧ ∀ fill ∈ more, fill.StampedBy order snapshot :=
    ⟨[], (List.append_nil _).symm, fun _ member => absurd member List.not_mem_nil⟩
  unfold MatchingEngine.handleAdmit
  cases held : engine.books.get? order.tokenId with
  | none => exact ⟨fun _ _ => rfl, none_⟩
  | some book =>
    have same := shown book held
    subst same
    have stamps := config.consumeLevels_stamps order book produced
    have own : (config.consumeLevels book.snapshot.observedAt order book produced).order.orderId = order.orderId := by
      rw [stamps.terms]
    simp only
    split_ifs
    · exact ⟨fun other foreign => others_terminate _ _ other foreign (by exact rfl), none_⟩
    · exact ⟨fun other foreign => others_terminate _ _ other foreign (by exact rfl), none_⟩
    · exact ⟨fun other foreign => others_terminate _ _ other foreign (by exact own), stamps.fills⟩
    · exact ⟨fun other foreign => others_terminate _ _ other foreign (by exact own), stamps.fills⟩
    · exact ⟨fun other foreign => others_restAs _ _ _ other foreign (by exact own), stamps.fills⟩
    · exact ⟨fun other foreign => others_terminate _ _ other foreign (by exact own), stamps.fills⟩
    · exact ⟨fun other foreign => others_terminate _ _ other foreign (by exact rfl), none_⟩
    · exact ⟨fun other foreign => others_restAs _ _ _ other foreign (by exact rfl), none_⟩

theorem serves_tryMatchResting (config : MatchingConfig) (produced : List Fill) (order : BacktestOrder)
    (shown : ∀ book, engine.books.get? order.tokenId = some book → book.snapshot = snapshot) :
    engine.Serves order snapshot produced (engine.tryMatchResting config produced order) := by
  have none_ : ∃ more, produced = produced ++ more ∧ ∀ fill ∈ more, fill.StampedBy order snapshot :=
    ⟨[], (List.append_nil _).symm, fun _ member => absurd member List.not_mem_nil⟩
  unfold MatchingEngine.tryMatchResting
  cases held : engine.books.get? order.tokenId with
  | none => exact ⟨fun _ _ => rfl, none_⟩
  | some book =>
    have same := shown book held
    subst same
    have stamps := config.restingWalk_stamps order book produced
    simp only
    generalize config.restingWalk 0 (book.remaining order.side) ⟨order, book, produced, order.remainingSize⟩ = walk at stamps ⊢
    have own : walk.order.orderId = order.orderId := by rw [stamps.terms]
    have put : ∀ other, order.orderId ≠ other →
        ((engine.putBook walk.book).put walk.order).orders.get? other = engine.orders.get? other := by
      intro other foreign
      rw [get?_put, own, if_neg foreign, orders_putBook]
    split_ifs
    · exact ⟨fun _ _ => rfl, none_⟩
    · exact ⟨fun _ _ => rfl, none_⟩
    · refine ⟨fun other foreign => ?_, stamps.fills⟩
      rw [orders_removeFromWorking, others_terminate walk.order _ other foreign own]
      exact put other foreign
    · exact ⟨put, stamps.fills⟩

/-- The snapshot that priced a fill was observed when the venue had the order, on whose terms the fill is stamped. -/
structure Prices (engine : MatchingEngine) (snapshot : BookSnapshot) (fill : Fill) (order : BacktestOrder) (received : Instant) : Prop where
  found : engine.orders.get? fill.orderId = some order
  tokens : fill.tokenId = order.tokenId ∧ order.tokenId = snapshot.tokenId
  sequence : fill.venueSequence = snapshot.sequence
  at_ : order.venueReceivedAt = some received
  due : received ≤ snapshot.observedAt
  stamp : fill.occurredAt = if fill.notes.maker then snapshot.observedAt else received

theorem Prices.between {fill : Fill} {received : Instant} (prices : engine.Prices snapshot fill order received) :
    received ≤ fill.occurredAt ∧ fill.occurredAt ≤ snapshot.observedAt := by
  rw [prices.stamp]
  split_ifs
  · exact ⟨prices.due, le_rfl⟩
  · exact ⟨le_rfl, prices.due⟩

def PricedBy (engine : MatchingEngine) (snapshot : BookSnapshot) (fill : Fill) : Prop :=
  ∃ order received, engine.Prices snapshot fill order received

def Uncancelled (engine : MatchingEngine) (snapshot : BookSnapshot) (fill : Fill) : Prop :=
  ∀ order, engine.orders.get? fill.orderId = some order →
    ∀ effective, order.cancelPendingAt = some effective → snapshot.observedAt < effective

def Receipts (engine next : MatchingEngine) : Prop :=
  ∀ id old, engine.orders.get? id = some old → ∃ new, next.orders.get? id = some new ∧
    new.tokenId = old.tokenId ∧ new.venueReceivedAt = old.venueReceivedAt

theorem Reaches.receipts (reached : engine.Reaches False next ledger) : engine.Receipts next := by
  intro id old found
  obtain ⟨new, at_, terms⟩ := reached.lasts id old found
  obtain ⟨same, again, received, -⟩ := reached.frames id old found
  rw [at_] at again
  cases again
  exact ⟨new, at_, by rw [terms], received⟩

theorem PricedBy.lasts {fill : Fill} (priced : engine.PricedBy snapshot fill) (receipts : engine.Receipts next) :
    next.PricedBy snapshot fill := by
  obtain ⟨order, received, prices⟩ := priced
  obtain ⟨new, found, token, same⟩ := receipts fill.orderId order prices.found
  exact ⟨new, received, found, by rw [token]; exact prices.tokens, prices.sequence, same.trans prices.at_, prices.due, prices.stamp⟩

/-- Where an advance stands: what rests is received, what is live is not cancelled, and what is filled is priced. -/
structure Timely (engine : MatchingEngine) (snapshot : BookSnapshot) (produced : List Fill) : Prop where
  received : ∀ id order, engine.orders.get? id = some order → order.IsResting →
    ∃ received, order.venueReceivedAt = some received ∧ received ≤ snapshot.observedAt
  live : ∀ id order, engine.orders.get? id = some order → ¬ order.IsTerminal →
    ∀ effective, order.cancelPendingAt = some effective → snapshot.observedAt < effective
  priced : ∀ fill ∈ produced, engine.PricedBy snapshot fill ∧ engine.Uncancelled snapshot fill

theorem Timely.serve {received : Instant} {result : MatchingEngine × List Fill} (timely : engine.Timely snapshot produced)
    (found : engine.orders.get? id = some order) (keyed : order.orderId = id) (live : ¬ order.IsTerminal)
    (token : order.tokenId = snapshot.tokenId) (at_ : order.venueReceivedAt = some received) (due : received ≤ snapshot.observedAt)
    (serves : engine.Serves order snapshot produced result) (reached : engine.Reaches False result.1 ledger) :
    result.1.Timely snapshot result.2 := by
  obtain ⟨more, made, stamped⟩ := serves.fills
  refine ⟨fun other held foundHeld resting => ?_, fun other held foundHeld alive effective requested => ?_, fun fill member => ?_⟩
  · by_cases own : order.orderId = other
    · have alive : ¬ held.IsTerminal := fun terminal => terminal.not_resting resting
      obtain ⟨before, foundBefore, -, same, -⟩ := reached.live foundHeld alive
      rw [← own, keyed, found] at foundBefore
      cases foundBefore
      exact ⟨received, same.trans at_, due⟩
    · rw [serves.others other own] at foundHeld
      exact timely.received other held foundHeld resting
  · obtain ⟨before, foundBefore, aliveBefore, -, same⟩ := reached.live foundHeld alive
    exact timely.live other before foundBefore aliveBefore effective (same.symm.trans requested)
  · have kept : ∀ fill, engine.PricedBy snapshot fill ∧ engine.Uncancelled snapshot fill →
        result.1.PricedBy snapshot fill ∧ result.1.Uncancelled snapshot fill := by
      intro fill priced
      refine ⟨priced.1.lasts reached.receipts, fun held foundHeld effective requested => ?_⟩
      obtain ⟨before, foundBefore, -⟩ := reached.waits fill.orderId held foundHeld
      obtain ⟨after, foundAfter, -, same⟩ := reached.frames fill.orderId before foundBefore
      rw [foundHeld] at foundAfter
      cases foundAfter
      exact priced.2 before foundBefore effective (same.symm.trans requested)
    rw [made] at member
    rcases List.mem_append.1 member with earlier | new
    · exact kept fill (timely.priced fill earlier)
    · have stamp := stamped fill new
      have named : engine.orders.get? fill.orderId = some order := by rw [stamp.orderId, keyed, found]
      refine kept fill ⟨⟨order, received, named, ⟨stamp.tokenId, token⟩, stamp.sequence, at_, due, ?_⟩, ?_⟩
      · rw [stamp.stamp, at_, Option.getD_some]
      · intro held foundHeld effective requested
        rw [named] at foundHeld
        cases foundHeld
        exact timely.live id order found live effective requested

def OnlyShown (snapshot shown : BookSnapshot) : Prop := shown.tokenId = snapshot.tokenId → shown = snapshot

theorem Shows.book (shows : engine.Shows (OnlyShown snapshot)) (token : order.tokenId = snapshot.tokenId) (book : ResidualBook)
    (held : engine.books.get? order.tokenId = some book) : book.snapshot = snapshot := by
  obtain ⟨own, only⟩ := shows order.tokenId book held
  exact only (own.trans token)

theorem Reaches.listed {ids : List String} {token : String} (reached : engine.Reaches False next ledger)
    (listed : ∀ id ∈ ids, ∀ order, engine.orders.get? id = some order → order.tokenId = token ∧ order.state ≠ .pending) :
    ∀ id ∈ ids, ∀ order, next.orders.get? id = some order → order.tokenId = token ∧ order.state ≠ .pending := by
  intro other member held foundHeld
  obtain ⟨before, foundBefore, waited⟩ := reached.waits other held foundHeld
  obtain ⟨after, foundAfter, terms⟩ := reached.lasts other before foundBefore
  rw [foundHeld] at foundAfter
  cases foundAfter
  obtain ⟨same, started⟩ := listed other member before foundBefore
  exact ⟨by rw [terms, same], fun pending => started (waited pending)⟩

theorem Audited.listed_working {token : String} (audited : engine.Audited False ledger) :
    ∀ id ∈ engine.working token, ∀ order, engine.orders.get? id = some order → order.tokenId = token ∧ order.state ≠ .pending := by
  intro id listed order found
  obtain ⟨held, at_, own, resting⟩ := (audited.working token id).1 listed
  rw [found] at at_
  cases at_
  exact ⟨own, resting.not_pending⟩

theorem Audited.admitAll_keeps {shown : BookSnapshot → Prop} {good : MatchingEngine × List Fill → Prop}
    (step : ∀ (engine : MatchingEngine) (produced : List Fill) (id : String) (order : BacktestOrder) (received : Instant),
      engine.Audited False (ledger ++ produced) → engine.Shows shown → good (engine, produced) →
        engine.orders.get? id = some order → order.tokenId = snapshot.tokenId → order.state = .pending →
          order.venueReceivedAt = some received → received ≤ snapshot.observedAt →
            good (engine.handleAdmit config snapshot.observedAt produced order))
    (audited : engine.Audited False (ledger ++ produced)) (shows : engine.Shows shown) (start : good (engine, produced))
    (ids : List String) : good (ids.foldl (admitDue config snapshot) (engine, produced)) := by
  induction ids generalizing engine produced with
  | nil => exact start
  | cons id rest ih =>
    simp only [List.foldl_cons, admitDue]
    cases found : engine.orders.get? id with
    | none => exact ih audited shows start
    | some order =>
      simp only
      split_ifs with due
      · obtain ⟨token, pending, arrived⟩ := due
        obtain ⟨received, at_, early⟩ := (Option.any_eq_true _ _).1 arrived
        have reached := audited.handleAdmit False.elim config snapshot.observedAt found pending
        exact ih reached.audited (shows.handleAdmit config _ _ _)
          (step engine produced id order received audited shows start found token pending at_ (of_decide_eq_true early))
      · exact ih audited shows start

theorem Audited.matchAll_keeps {token : String} {shown : BookSnapshot → Prop} {good : MatchingEngine × List Fill → Prop}
    (step : ∀ (engine : MatchingEngine) (produced : List Fill) (id : String) (order : BacktestOrder),
      engine.Audited False (ledger ++ produced) → engine.Shows shown → good (engine, produced) →
        engine.orders.get? id = some order → order.tokenId = token → ¬ order.IsTerminal → order.state ≠ .pending →
          good (engine.tryMatchResting config produced order))
    (audited : engine.Audited False (ledger ++ produced)) (shows : engine.Shows shown) (start : good (engine, produced))
    {ids : List String}
    (listed : ∀ id ∈ ids, ∀ order, engine.orders.get? id = some order → order.tokenId = token ∧ order.state ≠ .pending) :
    good (ids.foldl (matchWorking config) (engine, produced)) := by
  induction ids generalizing engine produced with
  | nil => exact start
  | cons id rest ih =>
    simp only [List.foldl_cons, matchWorking]
    have listedRest : ∀ other ∈ rest, ∀ order, engine.orders.get? other = some order →
        order.tokenId = token ∧ order.state ≠ .pending :=
      fun other member => listed other (List.mem_cons_of_mem _ member)
    cases found : engine.orders.get? id with
    | none => exact ih audited shows start listedRest
    | some order =>
      simp only
      split_ifs with terminal
      · exact ih audited shows start listedRest
      · obtain ⟨own, admitted⟩ := listed id List.mem_cons_self order found
        have reached := audited.tryMatchResting config found terminal admitted
        exact ih reached.audited (shows.tryMatchResting config _ _)
          (step engine produced id order audited shows start found own terminal admitted) (reached.listed listedRest)

theorem Timely.admitAll (timely : engine.Timely snapshot produced) (audited : engine.Audited False (ledger ++ produced))
    (shows : engine.Shows (OnlyShown snapshot)) (config : MatchingConfig) (ids : List String) :
    (ids.foldl (admitDue config snapshot) (engine, produced)).1.Timely snapshot
      (ids.foldl (admitDue config snapshot) (engine, produced)).2 := by
  refine @Audited.admitAll_keeps config engine snapshot ledger produced _ (fun state => state.1.Timely snapshot state.2)
    (fun engine produced id order received audited shows timely found token pending at_ early => ?_) audited shows timely ids
  have reached := audited.handleAdmit False.elim config snapshot.observedAt found pending
  have serves := serves_handleAdmit config produced order (shows.book token)
  have live : ¬ order.IsTerminal := fun terminal => terminal.not_pending pending
  exact timely.serve found (audited.keyed id order found) live token at_ early serves reached

theorem Timely.matchAll (timely : engine.Timely snapshot produced) (audited : engine.Audited False (ledger ++ produced))
    (shows : engine.Shows (OnlyShown snapshot)) (config : MatchingConfig) (ids : List String)
    (listed : ∀ id ∈ ids, ∀ order, engine.orders.get? id = some order → order.tokenId = snapshot.tokenId ∧ order.state ≠ .pending) :
    (ids.foldl (matchWorking config) (engine, produced)).1.Timely snapshot
      (ids.foldl (matchWorking config) (engine, produced)).2 := by
  refine @Audited.matchAll_keeps config engine ledger produced snapshot.tokenId _ (fun state => state.1.Timely snapshot state.2)
    (fun engine produced id order audited shows timely found token live admitted => ?_) audited shows timely ids listed
  obtain ⟨received, at_, early⟩ := timely.received id order found (BacktestOrder.resting_of_live live admitted)
  have reached := audited.tryMatchResting config found live admitted
  have serves := serves_tryMatchResting config produced order (shows.book token)
  exact timely.serve found (audited.keyed id order found) live token at_ early serves reached

/-- Between the calls: what rests was received by now, and every live order knows its pending cancel. -/
structure OnTime (engine : MatchingEngine) : Prop where
  audited : engine.Audited False engine.allFills
  shows : engine.Shows fun _ => True
  received : ∀ id order, engine.orders.get? id = some order → order.IsResting →
    ∃ received now, order.venueReceivedAt = some received ∧ engine.now = some now ∧ received ≤ now
  cancels : ∀ id order, engine.orders.get? id = some order → ¬ order.IsTerminal →
    order.cancelPendingAt = engine.pendingCancels.get? id
  known : ∀ id effective, engine.pendingCancels.get? id = some effective → ∃ order, engine.orders.get? id = some order

theorem Audited.orderly (audited : engine.Audited False ledger) {good : BookSnapshot → Prop} (shows : engine.Shows good) :
    engine.Orderly := by
  refine ⟨audited.keyed, fun token id listed => ?_, audited.nodup, fun token book held => (shows token book held).1⟩
  obtain ⟨order, found, own, -⟩ := (audited.working token id).1 listed
  exact ⟨order, found, own⟩

theorem shows_refreshedAt (shows : engine.Shows fun _ => True) (config : MatchingConfig) (snapshot : BookSnapshot) :
    (engine.refreshedAt config snapshot).Shows (OnlyShown snapshot) := by
  intro token book found
  rw [MatchingEngine.refreshedAt, books_refreshBook, books_applyDueCancels, Dict.get?_set] at found
  split_ifs at found with own
  · cases found
    exact ⟨own, fun _ => rfl⟩
  · have named := (shows token book found).1
    exact ⟨named, fun same => absurd (same.symm.trans named) own⟩

theorem same_requeued (order : BacktestOrder) :
    (engine.requeued config snapshot order).venueReceivedAt = order.venueReceivedAt ∧
      (engine.requeued config snapshot order).cancelPendingAt = order.cancelPendingAt := by
  unfold requeued BacktestOrder.requeue
  split
  · exact ⟨rfl, rfl⟩
  · split
    · exact ⟨rfl, rfl⟩
    · split_ifs
      · exact ⟨rfl, rfl⟩
      · exact ⟨rfl, rfl⟩

theorem OnTime.live_refreshedAt (onTime : engine.OnTime) (found : (engine.refreshedAt config snapshot).orders.get? id = some new)
    (live : ¬ new.IsTerminal) : ∃ old, engine.orders.get? id = some old ∧ old.state = new.state ∧
      new.venueReceivedAt = old.venueReceivedAt ∧ new.cancelPendingAt = old.cancelPendingAt ∧
        ∀ effective, engine.pendingCancels.get? id = some effective → snapshot.observedAt < effective := by
  have timed : Orderly { engine with now := some snapshot.observedAt } :=
    (onTime.audited.orderly onTime.shows).congr rfl (fun _ => rfl) rfl
  obtain ⟨orderly, -, -, survivors⟩ := applyDueCancels_spec timed snapshot.observedAt
  obtain ⟨-, -, -, gets⟩ := refreshBook_spec orderly config snapshot
  rw [MatchingEngine.refreshedAt, gets] at found
  obtain ⟨held, before, same⟩ := Option.map_eq_some_iff.1 found
  have carried : held.state = new.state ∧ new.venueReceivedAt = held.venueReceivedAt ∧ new.cancelPendingAt = held.cancelPendingAt := by
    rw [← same]
    split_ifs
    · exact ⟨(state_requeued held).symm, same_requeued held⟩
    · exact ⟨rfl, rfl, rfl⟩
  have alive : ¬ held.IsTerminal := by
    unfold BacktestOrder.IsTerminal at live ⊢
    rwa [carried.1]
  obtain ⟨old, later⟩ := (survivors id held before).resolve_left alive
  exact ⟨held, old, carried.1, carried.2.1, carried.2.2, later⟩

theorem OnTime.refreshedAt (onTime : engine.OnTime) (config : MatchingConfig)
    (later : ∀ now, engine.now = some now → now ≤ snapshot.observedAt) :
    (engine.refreshedAt config snapshot).Timely snapshot [] := by
  refine ⟨fun id order found resting => ?_, fun id order found live effective requested => ?_,
    fun fill member => absurd member List.not_mem_nil⟩
  · have live : ¬ order.IsTerminal := fun terminal => terminal.not_resting resting
    obtain ⟨old, before, state, same, -⟩ := onTime.live_refreshedAt found live
    have restingBefore : old.IsResting := by
      unfold BacktestOrder.IsResting at resting ⊢
      rwa [state]
    obtain ⟨received, now, at_, clock, early⟩ := onTime.received id old before restingBefore
    exact ⟨received, same.trans at_, early.trans (later now clock)⟩
  · obtain ⟨old, before, state, -, same, due⟩ := onTime.live_refreshedAt found live
    have liveBefore : ¬ old.IsTerminal := by
      unfold BacktestOrder.IsTerminal at live ⊢
      rwa [state]
    apply due
    rw [← onTime.cancels id old before liveBefore, ← same, requested]

theorem OnTime.matchedAt (onTime : engine.OnTime) (config : MatchingConfig)
    (later : ∀ now, engine.now = some now → now ≤ snapshot.observedAt) :
    (engine.matchedAt config snapshot).1.Timely snapshot (engine.matchedAt config snapshot).2 := by
  have refreshed := onTime.audited.refreshedAt config snapshot
  have begun : (engine.refreshedAt config snapshot).Audited False (engine.allFills ++ []) := by
    rw [List.append_nil]
    exact refreshed.audited
  have shows := shows_refreshedAt onTime.shows config snapshot
  have admitted := (onTime.refreshedAt config later).admitAll begun shows config
    ((engine.refreshedAt config snapshot).orders.entries.map Prod.fst)
  have auditedAt : (engine.admittedAt config snapshot).1.Audited False (engine.allFills ++ (engine.admittedAt config snapshot).2) :=
    (onTime.audited.admittedAt False.elim config False.elim).audited
  have showsAt := @Shows.admitAll (OnlyShown snapshot) (engine.refreshedAt config snapshot, []) shows config snapshot
    ((engine.refreshedAt config snapshot).orders.entries.map Prod.fst)
  exact Timely.matchAll admitted auditedAt showsAt config _ auditedAt.listed_working

theorem OnTime.advanceTo {fills : List Fill} (onTime : engine.OnTime) (done : engine.advanceTo config snapshot = .ok (next, fills)) :
    next.OnTime ∧ next.now = some snapshot.observedAt ∧ engine.Receipts next ∧
      ∀ fill ∈ fills, next.PricedBy snapshot fill ∧ engine.Uncancelled snapshot fill := by
  obtain ⟨audited, -⟩ := onTime.audited.advanceTo False.elim False.elim done
  have shows := onTime.shows.advanceTo trivial done
  obtain ⟨later, rfl, rfl⟩ := advanceTo_phases done
  have reached := @Audited.matchedAt False engine engine.allFills snapshot onTime.audited False.elim config False.elim
  have timely := onTime.matchedAt config later
  refine ⟨⟨audited, shows, fun id order found resting => ?_, fun id order found live => ?_,
    fun id effective pending => ?_⟩, reached.clock, reached.receipts, fun fill member => ?_⟩
  · obtain ⟨received, at_, early⟩ := timely.received id order found resting
    exact ⟨received, snapshot.observedAt, at_, reached.clock, early⟩
  · obtain ⟨old, before, liveBefore, -, same⟩ := reached.live found live
    have pending := onTime.cancels id old before liveBefore
    rw [same, pending]
    exact ((reached.cancels id).resolve_right fun gone => live (gone.2 order found)).symm
  · have before : engine.pendingCancels.get? id = some effective := by
      rcases reached.cancels id with same | gone
      · exact same.symm.trans pending
      · exact absurd (gone.1.symm.trans pending) (by simp)
    obtain ⟨order, found⟩ := onTime.known id effective before
    obtain ⟨new, foundNew, -⟩ := reached.lasts id order found
    exact ⟨new, foundNew⟩
  · obtain ⟨priced, uncancelled⟩ := timely.priced fill member
    refine ⟨priced.lasts fun _ order found => ⟨order, found, rfl, rfl⟩, fun order found effective requested => ?_⟩
    obtain ⟨after, foundAfter, -, same⟩ := reached.frames fill.orderId order found
    exact uncancelled after foundAfter effective (same.trans requested)

theorem submit_cases {order : NewOrder} {latency : Instant} (done : engine.submit config order latency = .ok next) :
    engine.orders.get? order.orderId = none ∧ next.pendingCancels = engine.pendingCancels ∧ next.now = engine.now ∧
      next.allFills = engine.allFills ∧ ∃ entered : BacktestOrder, next.orders = engine.orders.set order.orderId entered ∧
        ¬ entered.IsResting ∧ entered.cancelPendingAt = none := by
  obtain ⟨absent, ⟨reason, rfl⟩ | ⟨adjusted, -, rfl⟩⟩ := submit_spec done
  · exact ⟨absent, rfl, rfl, rfl, _, rfl, by unfold BacktestOrder.IsResting; simp, rfl⟩
  · exact ⟨absent, rfl, rfl, rfl, _, rfl, by unfold BacktestOrder.IsResting; simp, rfl⟩

theorem OnTime.submit {order : NewOrder} {latency : Instant} (onTime : engine.OnTime)
    (done : engine.submit config order latency = .ok next) :
    next.OnTime ∧ next.now = engine.now ∧ next.allFills = engine.allFills ∧ engine.Receipts next := by
  obtain ⟨absent, pendingCancels, now, allFills, entered, orders, idle, unasked⟩ := submit_cases done
  have gets : ∀ id held, next.orders.get? id = some held →
      order.orderId = id ∧ held = entered ∨ engine.orders.get? id = some held := by
    intro id held found
    rw [orders, Dict.get?_set] at found
    split_ifs at found with own
    · cases found
      exact Or.inl ⟨own, rfl⟩
    · exact Or.inr found
  have stays : engine.Receipts next := by
    intro id held found
    have foreign : order.orderId ≠ id := by
      intro own
      rw [← own, absent] at found
      cases found
    exact ⟨held, by rw [orders, Dict.get?_set, if_neg foreign, found], rfl, rfl⟩
  have unknown : engine.pendingCancels.get? order.orderId = none := by
    cases pending : engine.pendingCancels.get? order.orderId with
    | none => rfl
    | some effective =>
      obtain ⟨held, found⟩ := onTime.known _ _ pending
      rw [absent] at found
      cases found
  refine ⟨⟨(onTime.audited.submit done).1, onTime.shows.congr (books_submit done), fun id held found resting => ?_,
    fun id held found live => ?_, fun id effective pending => ?_⟩, now, allFills, stays⟩
  · rw [now]
    rcases gets id held found with ⟨-, rfl⟩ | before
    · exact absurd resting idle
    · exact onTime.received id held before resting
  · rw [pendingCancels]
    rcases gets id held found with ⟨own, rfl⟩ | before
    · rw [← own, unknown, unasked]
    · exact onTime.cancels id held before live
  · rw [pendingCancels] at pending
    obtain ⟨held, found⟩ := onTime.known id effective pending
    obtain ⟨new, foundNew, -⟩ := stays id held found
    exact ⟨new, foundNew⟩

theorem OnTime.cancel (onTime : engine.OnTime) (id : String) (requestedAt latency : Instant) :
    (engine.cancel id requestedAt latency).1.OnTime ∧ (engine.cancel id requestedAt latency).1.now = engine.now ∧
      (engine.cancel id requestedAt latency).1.allFills = engine.allFills ∧
        engine.Receipts (engine.cancel id requestedAt latency).1 := by
  have still : engine.OnTime ∧ engine.now = engine.now ∧ engine.allFills = engine.allFills ∧ engine.Receipts engine :=
    ⟨onTime, rfl, rfl, fun _ old found => ⟨old, found, rfl, rfl⟩⟩
  have audited := (onTime.audited.cancel id requestedAt latency).1
  have shows := onTime.shows.congr (books_cancel engine id requestedAt latency)
  unfold MatchingEngine.cancel at audited shows ⊢
  cases found : engine.orders.get? id with
  | none => exact still
  | some order =>
    simp only [found] at audited shows ⊢
    split_ifs at audited shows ⊢ with terminal noted
    · exact still
    · exact still
    · have own := onTime.audited.keyed id order found
      have gets : ∀ other, ({ engine.put { order with cancelPendingAt := some (requestedAt + latency) } with
          pendingCancels := engine.pendingCancels.set id (requestedAt + latency) } : MatchingEngine).orders.get? other =
            if id = other then some { order with cancelPendingAt := some (requestedAt + latency) }
            else engine.orders.get? other := by
        intro other
        show (engine.put _).orders.get? other = _
        rw [get?_put, own]
      have stays : engine.Receipts { engine.put { order with cancelPendingAt := some (requestedAt + latency) } with
          pendingCancels := engine.pendingCancels.set id (requestedAt + latency) } := by
        intro other held before
        rw [gets]
        split_ifs with same
        · subst same
          rw [found] at before
          cases before
          exact ⟨_, rfl, rfl, rfl⟩
        · exact ⟨held, before, rfl, rfl⟩
      refine ⟨⟨audited, shows, fun other held at_ resting => ?_, fun other held at_ live => ?_, fun other effective pending => ?_⟩,
        rfl, rfl, stays⟩
      · rw [gets] at at_
        split_ifs at at_ with same
        · cases at_
          subst same
          exact onTime.received id order found resting
        · exact onTime.received other held at_ resting
      · rw [gets] at at_
        rw [Dict.get?_set]
        split_ifs at at_ ⊢ with same
        · cases at_
          rfl
        · exact onTime.cancels other held at_ live
      · rw [gets]
        split_ifs with same
        · exact ⟨_, rfl⟩
        · rw [Dict.get?_set, if_neg same] at pending
          exact onTime.known other effective pending

theorem onTime_empty : OnTime {} := by
  refine ⟨audited_empty False, ?_, ?_, ?_, ?_⟩
  · exact fun token book held => by cases held
  · exact fun id order found => by cases found
  · exact fun id order found => by cases found
  · exact fun id effective pending => by cases pending

end MatchingEngine

structure Priced where
  engine : MatchingEngine := {}
  fills : List (Fill × BookSnapshot) := []

namespace Priced

open MatchingEngine

variable {config : MatchingConfig} {state : Priced} {call : MatchingCall}

def step (config : MatchingConfig) (state : Priced) : MatchingCall → Priced
  | .advanceTo snapshot =>
    match state.engine.advanceTo config snapshot with
    | .ok (next, fills) => ⟨next, state.fills ++ fills.map fun fill => (fill, snapshot)⟩
    | .error _ => state
  | call => ⟨state.engine.step config call, state.fills⟩

theorem engine_step (config : MatchingConfig) (state : Priced) (call : MatchingCall) :
    (state.step config call).engine = state.engine.step config call := by
  cases call with
  | submit order latency => rfl
  | cancel id requestedAt latency => rfl
  | advanceTo snapshot =>
    simp only [step, MatchingEngine.step]
    cases state.engine.advanceTo config snapshot with
    | error _ => rfl
    | ok result => rfl

/-- Every fill on record is priced by a snapshot that was observed at or after its stamp, which is at or after
the receipt of its order, and the fills stand in the order of these snapshots. -/
structure Dated (state : Priced) : Prop where
  ledger : state.fills.map Prod.fst = state.engine.allFills
  priced : ∀ entry ∈ state.fills, ∃ order received, state.engine.Prices entry.2 entry.1 order received ∧
    received ≤ entry.1.occurredAt ∧ entry.1.occurredAt ≤ entry.2.observedAt
  ordered : state.fills.Pairwise fun earlier later => earlier.2.observedAt ≤ later.2.observedAt

/-- No fill is priced by a snapshot at or after the time at which a requested cancel of its order is effective. -/
def Obeys (config : MatchingConfig) (state : Priced) : MatchingCall → Prop
  | .advanceTo snapshot => ∀ next fills, state.engine.advanceTo config snapshot = .ok (next, fills) →
    ∀ fill ∈ fills, ∀ order, state.engine.orders.get? fill.orderId = some order →
      ∀ effective, order.cancelPendingAt = some effective → snapshot.observedAt < effective
  | _ => True

structure Kept (state : Priced) : Prop where
  onTime : state.engine.OnTime
  dated : state.Dated
  past : ∀ entry ∈ state.fills, ∃ now, state.engine.now = some now ∧ entry.2.observedAt ≤ now

theorem Dated.receipts {engine : MatchingEngine} (dated : state.Dated) (receipts : state.engine.Receipts engine) :
    ∀ entry ∈ state.fills, ∃ order received, engine.Prices entry.2 entry.1 order received ∧
      received ≤ entry.1.occurredAt ∧ entry.1.occurredAt ≤ entry.2.observedAt := by
  intro entry member
  obtain ⟨order, received, prices, -⟩ := dated.priced entry member
  have priced : state.engine.PricedBy entry.2 entry.1 := ⟨order, received, prices⟩
  obtain ⟨new, same, kept⟩ := priced.lasts receipts
  exact ⟨new, same, kept, kept.between⟩

theorem Kept.aside {engine : MatchingEngine} (kept : state.Kept) (onTime : engine.OnTime) (now : engine.now = state.engine.now)
    (receipts : state.engine.Receipts engine) (allFills : engine.allFills = state.engine.allFills) :
    Kept ⟨engine, state.fills⟩ := by
  refine ⟨onTime, ⟨kept.dated.ledger.trans allFills.symm, kept.dated.receipts receipts, kept.dated.ordered⟩, ?_⟩
  show ∀ entry ∈ state.fills, ∃ time, engine.now = some time ∧ entry.2.observedAt ≤ time
  rw [now]
  exact kept.past

theorem Kept.advanceTo {snapshot : BookSnapshot} {next : MatchingEngine} {fills : List Fill} (kept : state.Kept)
    (done : state.engine.advanceTo config snapshot = .ok (next, fills)) :
    Kept ⟨next, state.fills ++ fills.map fun fill => (fill, snapshot)⟩ := by
  obtain ⟨onTime, clock, receipts, priced⟩ := kept.onTime.advanceTo done
  obtain ⟨-, -, -, allFills⟩ := kept.onTime.audited.advanceTo False.elim False.elim done
  obtain ⟨later, -⟩ := advanceTo_phases done
  have early : ∀ entry ∈ state.fills, entry.2.observedAt ≤ snapshot.observedAt := by
    intro entry member
    obtain ⟨now, at_, before⟩ := kept.past entry member
    exact before.trans (later now at_)
  have new : ∀ entry ∈ fills.map fun fill => (fill, snapshot), entry.2 = snapshot ∧ next.PricedBy snapshot entry.1 := by
    intro entry member
    obtain ⟨fill, made, rfl⟩ := List.mem_map.1 member
    exact ⟨rfl, (priced fill made).1⟩
  refine ⟨onTime, ⟨?_, fun entry member => ?_, ?_⟩, fun entry member => ⟨snapshot.observedAt, clock, ?_⟩⟩
  · rw [List.map_append, kept.dated.ledger, allFills, List.map_map]
    congr 1
    exact List.map_id fills
  · rcases List.mem_append.1 member with old | made
    · exact kept.dated.receipts receipts entry old
    · obtain ⟨same, order, received, prices⟩ := new entry made
      rw [same]
      exact ⟨order, received, prices, prices.between⟩
  · refine List.pairwise_append.2 ⟨kept.dated.ordered, ?_, fun earlier old late made => ?_⟩
    · rw [List.pairwise_map]
      exact List.pairwise_of_forall fun _ _ => le_rfl
    · rw [(new late made).1]
      exact early earlier old
  · rcases List.mem_append.1 member with old | made
    · exact early entry old
    · rw [(new entry made).1]

theorem Kept.step (kept : state.Kept) (call : MatchingCall) : (state.step config call).Kept := by
  cases call with
  | submit order latency =>
    simp only [Priced.step, MatchingEngine.step]
    cases done : state.engine.submit config order latency with
    | error _ => exact kept
    | ok next =>
      obtain ⟨onTime, now, allFills, receipts⟩ := kept.onTime.submit done
      exact kept.aside onTime now receipts allFills
  | cancel id requestedAt latency =>
    obtain ⟨onTime, now, allFills, receipts⟩ := kept.onTime.cancel id requestedAt latency
    exact kept.aside onTime now receipts allFills
  | advanceTo snapshot =>
    simp only [Priced.step]
    cases done : state.engine.advanceTo config snapshot with
    | error _ => exact kept
    | ok result => exact kept.advanceTo done

theorem Kept.obeys (kept : state.Kept) (call : MatchingCall) : state.Obeys config call := by
  cases call with
  | submit order latency => trivial
  | cancel id requestedAt latency => trivial
  | advanceTo snapshot =>
    intro next fills done fill made
    obtain ⟨-, -, -, priced⟩ := kept.onTime.advanceTo done
    exact (priced fill made).2

/-- In every run the fills are dated, and no fill comes after a cancel of its order. -/
theorem dated_run (config : MatchingConfig) (calls : List MatchingCall) :
    Always (step config) Dated {} calls ∧ Meets (step config) (Obeys config) {} calls := by
  have meets : Meets (step config) (fun _ _ => True) {} calls := Meets.of_forall (fun _ _ => trivial) _ calls
  have start : Kept {} := ⟨onTime_empty, ⟨rfl, fun _ member => absurd member List.not_mem_nil, List.Pairwise.nil⟩,
    fun _ member => absurd member List.not_mem_nil⟩
  have keeps : ∀ (state : Priced) (call : MatchingCall), state.Kept → True → (state.step config call).Kept :=
    fun state call kept _ => kept.step call
  constructor
  · intro first isPrefix
    exact (always_of_meets keeps start meets first isPrefix).dated
  · exact Meets.imp keeps (fun state call kept _ => kept.obeys call) start meets

/-- Orders that the venue receives at the given times, each filled at a later snapshot of its own token. -/
def receivedLate (first second : Instant) : List MatchingCall :=
  [.submit ⟨"a", "T", .buy, 1 / 2, 100, .gtc, false, first, none⟩ 0, .submit ⟨"b", "U", .buy, 1 / 2, 100, .gtc, false, second, none⟩ 0,
    .advanceTo ⟨"T", 2, [], [⟨1 / 2, 100⟩], none⟩, .advanceTo ⟨"U", 3, [], [⟨1 / 2, 100⟩], none⟩]

/-- An order received before the snapshot that fills it is stamped with its receipt, and receipts need not come in order. -/
theorem not_stamped_by_snapshots :
    (¬ ∀ (config : MatchingConfig) (calls : List MatchingCall),
      Always (step config) (fun state => ∀ entry ∈ state.fills, entry.2.observedAt ≤ entry.1.occurredAt) {} calls) ∧
    ¬ ∀ (config : MatchingConfig) (calls : List MatchingCall),
      Always (step config) (fun state => state.engine.allFills.Pairwise fun earlier later => earlier.occurredAt ≤ later.occurredAt)
        {} calls := by
  constructor
  · intro stamped
    have late := stamped {} (receivedLate 1 0) _ (List.prefix_refl _)
    revert late
    decide +kernel
  · intro inOrder
    have late := inOrder {} (receivedLate 1 0) _ (List.prefix_refl _)
    revert late
    decide +kernel

end Priced

end Callisto.Backtest
