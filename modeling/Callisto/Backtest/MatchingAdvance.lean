import Callisto.Backtest.MatchingOrders

/-! The phases of an advance: the refreshed book, the admissions, and the orders at rest. -/

namespace Callisto.Backtest

open Callisto.Library

def BacktestOrder.requeue (config : MatchingConfig) (old new : ResidualBook) (order : BacktestOrder) : BacktestOrder :=
  match order.queueAheadShares with
  | none => order
  | some ahead =>
    if order.IsTerminal ∨ ahead ≤ 0 then order
    else { order with
      queueAheadShares :=
        some (decayedQueue config.queueProgressTradeFraction old new order.side order.price ahead) }

namespace MatchingEngine

variable {config : MatchingConfig} {engine : MatchingEngine} {snapshot : BookSnapshot}

/-- The order as it stands behind the queue once the book is that of the snapshot. -/
def requeued (config : MatchingConfig) (engine : MatchingEngine) (snapshot : BookSnapshot) (order : BacktestOrder) :
    BacktestOrder :=
  match engine.books.get? snapshot.tokenId with
  | none => order
  | some old => order.requeue config old { snapshot := snapshot }

@[simp] theorem toNewOrder_requeue (old new : ResidualBook) (order : BacktestOrder) :
    (order.requeue config old new).toNewOrder = order.toNewOrder := by
  unfold BacktestOrder.requeue
  split
  · rfl
  · split_ifs <;> rfl

@[simp] theorem toNewOrder_requeued (order : BacktestOrder) :
    (engine.requeued config snapshot order).toNewOrder = order.toNewOrder := by
  unfold requeued
  split
  · rfl
  · rw [toNewOrder_requeue]

@[simp] theorem state_requeued (order : BacktestOrder) : (engine.requeued config snapshot order).state = order.state := by
  unfold requeued BacktestOrder.requeue
  split
  · rfl
  · split
    · rfl
    · split_ifs <;> rfl

theorem decayQueue_spec (orderly : engine.Orderly) (old new : ResidualBook) (id : String) :
    (engine.decayQueue config old new id).Orderly ∧ (engine.decayQueue config old new id).books = engine.books ∧
      (∀ token, (engine.decayQueue config old new id).working token = engine.working token) ∧
      ∀ other, (engine.decayQueue config old new id).orders.get? other =
        if id = other then (engine.orders.get? other).map (BacktestOrder.requeue config old new)
        else engine.orders.get? other := by
  have same : ∀ order, engine.orders.get? id = some order → order.requeue config old new = order → ∀ other,
      engine.orders.get? other = if id = other then (engine.orders.get? other).map (BacktestOrder.requeue config old new)
        else engine.orders.get? other := by
    intro order found unmoved other
    split_ifs with own
    · subst own
      rw [found, Option.map_some, unmoved]
    · rfl
  unfold decayQueue
  cases found : engine.orders.get? id with
  | none =>
    refine ⟨orderly, rfl, fun _ => rfl, fun other => ?_⟩
    split_ifs with own
    · subst own
      rw [found, Option.map_none]
    · rfl
  | some order =>
    simp only
    cases queue : order.queueAheadShares with
    | none => exact ⟨orderly, rfl, fun _ => rfl, same order found (by simp [BacktestOrder.requeue, queue])⟩
    | some ahead =>
      simp only
      split_ifs with front
      · exact ⟨orderly, rfl, fun _ => rfl, same order found (by simp [BacktestOrder.requeue, queue, front])⟩
      · have moved : order.requeue config old new = { order with
            queueAheadShares :=
              some (decayedQueue config.queueProgressTradeFraction old new order.side order.price ahead) } := by
          simp [BacktestOrder.requeue, queue, front]
        refine ⟨orderly.put (orderly.knows found rfl), rfl, fun _ => rfl, fun other => ?_⟩
        rw [get?_put, ← moved]
        have keyed := orderly.keyed id order found
        rw [toNewOrder_requeue, keyed]
        split_ifs with own
        · subst own
          rw [found, Option.map_some]
        · rfl

/-- The refreshed engine: a new book, and the working orders of its token requeued. -/
theorem refreshBook_spec (orderly : engine.Orderly) (config : MatchingConfig) (snapshot : BookSnapshot) :
    (engine.refreshBook config snapshot).Orderly ∧
      (engine.refreshBook config snapshot).books = engine.books.set snapshot.tokenId { snapshot := snapshot } ∧
      (∀ token, (engine.refreshBook config snapshot).working token = engine.working token) ∧
      ∀ id, (engine.refreshBook config snapshot).orders.get? id =
        (engine.orders.get? id).map fun order =>
          if id ∈ engine.working snapshot.tokenId then engine.requeued config snapshot order else order := by
  have fresh : ({ engine with books := engine.books.set snapshot.tokenId { snapshot := snapshot } } : MatchingEngine).Orderly :=
    orderly.putBook { snapshot := snapshot }
  have each : ∀ (old new : ResidualBook) (ids : List String), ids.Nodup → ∀ start : MatchingEngine, start.Orderly →
      let last := ids.foldl (decayQueue config old new) start
      last.Orderly ∧ last.books = start.books ∧ (∀ token, last.working token = start.working token) ∧
        ∀ id, last.orders.get? id =
          (start.orders.get? id).map fun order => if id ∈ ids then order.requeue config old new else order := by
    intro old new ids nodup
    induction ids with
    | nil =>
      intro start orderly
      refine ⟨orderly, rfl, fun _ => rfl, fun id => ?_⟩
      simp
    | cons first rest ih =>
      intro start orderly
      obtain ⟨absent, nodupRest⟩ := List.nodup_cons.1 nodup
      obtain ⟨orderlyNext, books, working, gets⟩ := @decayQueue_spec config start orderly old new first
      obtain ⟨last, lastBooks, lastWorking, lastGets⟩ := ih nodupRest (start.decayQueue config old new first) orderlyNext
      refine ⟨last, lastBooks.trans books, fun token => (lastWorking token).trans (working token), fun id => ?_⟩
      simp only [List.foldl_cons]
      rw [lastGets id, gets id]
      by_cases own : first = id
      · subst own
        simp [absent, Function.comp_def]
      · have other : id ≠ first := fun same => own same.symm
        simp [own, other]
  unfold refreshBook requeued
  cases found : engine.books.get? snapshot.tokenId with
  | none =>
    refine ⟨fresh, rfl, fun _ => rfl, fun id => ?_⟩
    simp
  | some old =>
    obtain ⟨last, books, working, gets⟩ := each old { snapshot := snapshot } (engine.working snapshot.tokenId)
      (orderly.nodup _) _ fresh
    exact ⟨last, books, working, gets⟩

end MatchingEngine

/-- An order at rest that finds nothing in the book, or one that has ended. -/
def ResidualBook.Quiet (book : ResidualBook) (order : BacktestOrder) : Prop :=
  order.IsTerminal ∨ book.SpentFrom order.side order.price 0

theorem ResidualBook.SpentFrom.mono {book next : ResidualBook} {side : Side} {limit : ℚ} {first : ℕ}
    (spent : book.SpentFrom side limit first) (snapshot : next.snapshot = book.snapshot)
    (grown : ∀ side price, book.consumed side price ≤ next.consumed side price) : next.SpentFrom side limit first := by
  intro index level low found near
  rw [snapshot] at found near
  exact (spent index level low found near).trans (grown _ _)

theorem ResidualBook.Quiet.mono {book next : ResidualBook} {order : BacktestOrder} (quiet : book.Quiet order)
    (snapshot : next.snapshot = book.snapshot)
    (grown : ∀ side price, book.consumed side price ≤ next.consumed side price) : next.Quiet order := by
  rcases quiet with terminal | spent
  · exact Or.inl terminal
  · exact Or.inr (spent.mono snapshot grown)

/-- Where the engine stands while it admits orders: what it has admitted finds nothing more in the book. -/
structure Admitting (snapshot : BookSnapshot) (before : MatchingEngine) (book : ResidualBook) (engine : MatchingEngine)
    (produced : List Fill) : Prop where
  orderly : engine.Orderly
  held : engine.books.get? snapshot.tokenId = some book
  shown : book.snapshot = snapshot
  open_ : book.Open
  paired : takingSizes book.takings = sizesOf produced
  others : ∀ token, snapshot.tokenId ≠ token → engine.books.get? token = before.books.get? token
  orders : ∀ id order, engine.orders.get? id = some order → before.orders.get? id = some order ∨ book.Quiet order
  working : ∃ added, engine.working snapshot.tokenId = before.working snapshot.tokenId ++ added ∧
    ∀ id ∈ added, ∀ order, engine.orders.get? id = some order → book.Quiet order

namespace Admitting

variable {config : MatchingConfig} {snapshot : BookSnapshot} {before engine next : MatchingEngine}
  {book nextBook : ResidualBook} {produced more : List Fill} {order : BacktestOrder}

theorem admitOne (admitting : Admitting snapshot before book engine produced) (orderly : next.Orderly)
    (books : ∀ token, next.books.get? token = if snapshot.tokenId = token then some nextBook else engine.books.get? token)
    (shown : nextBook.snapshot = book.snapshot) (open_ : nextBook.Open)
    (grown : ∀ side price, book.consumed side price ≤ nextBook.consumed side price)
    (paired : takingSizes nextBook.takings = sizesOf more)
    (orders : ∀ id, next.orders.get? id = if order.orderId = id then some order else engine.orders.get? id)
    (quiet : nextBook.Quiet order)
    (working : next.working snapshot.tokenId = engine.working snapshot.tokenId ∨
      next.working snapshot.tokenId = engine.working snapshot.tokenId ++ [order.orderId]) :
    Admitting snapshot before nextBook next more := by
  have gets : ∀ id other, next.orders.get? id = some other →
      other = order ∧ order.orderId = id ∨ engine.orders.get? id = some other := by
    intro id other found
    rw [orders] at found
    split_ifs at found with own
    · cases found
      exact Or.inl ⟨rfl, own⟩
    · exact Or.inr found
  refine ⟨orderly, by rw [books, if_pos rfl], shown.trans admitting.shown, open_, paired, fun token foreign => ?_,
    fun id other found => ?_, ?_⟩
  · rw [books, if_neg foreign]
    exact admitting.others token foreign
  · rcases gets id other found with ⟨rfl, -⟩ | old
    · exact Or.inr quiet
    · rcases admitting.orders id other old with same | settled
      · exact Or.inl same
      · exact Or.inr (settled.mono shown grown)
  · obtain ⟨added, list, settled⟩ := admitting.working
    have quietAll : ∀ id ∈ added, ∀ other, next.orders.get? id = some other → nextBook.Quiet other := by
      intro id member other found
      rcases gets id other found with ⟨rfl, -⟩ | old
      · exact quiet
      · exact (settled id member other old).mono shown grown
    rcases working with same | longer
    · exact ⟨added, by rw [same, list], quietAll⟩
    · refine ⟨added ++ [order.orderId], by rw [longer, list, List.append_assoc], fun id member other found => ?_⟩
      rcases List.mem_append.1 member with old | new
      · exact quietAll id old other found
      · rcases gets id other found with ⟨rfl, -⟩ | known
        · exact quiet
        · rw [List.mem_singleton.1 new, orders, if_pos rfl] at found
          cases found
          exact quiet

end Admitting

theorem isMarketable_iff {snapshot : BookSnapshot} {side : Side} {price : ℚ} :
    snapshot.isMarketable side price = true ↔
      ∃ level, (snapshot.opposite side)[0]? = some level ∧ ¬ side.Beyond price level.price := by
  cases side with
  | buy =>
    simp only [BookSnapshot.isMarketable, BookSnapshot.bestAsk, BookSnapshot.opposite, Side.Beyond]
    cases snapshot.asks with
    | nil => simp
    | cons level rest => simp
  | sell =>
    simp only [BookSnapshot.isMarketable, BookSnapshot.bestBid, BookSnapshot.opposite, Side.Beyond]
    cases snapshot.bids with
    | nil => simp
    | cons level rest => simp

theorem spent_of_unmarketable {book : ResidualBook} {side : Side} {price : ℚ}
    (unmarketable : ¬ book.snapshot.isMarketable side price = true) : book.SpentFrom side price 0 := by
  intro index level low found near
  have first : ∃ best, (book.snapshot.opposite side)[0]? = some best := by
    have inside := (List.getElem?_eq_some_iff.1 found).1
    exact ⟨_, List.getElem?_eq_getElem (by omega)⟩
  obtain ⟨best, at_⟩ := first
  exact absurd (isMarketable_iff.2 ⟨best, at_, near 0 best le_rfl (Nat.zero_le _) at_⟩) unmarketable

namespace Admitting

variable {config : MatchingConfig} {snapshot : BookSnapshot} {before engine : MatchingEngine}
  {book nextBook : ResidualBook} {produced more : List Fill} {order : BacktestOrder} {id : String}

theorem putBook_self (admitting : Admitting snapshot before book engine produced) : engine.putBook book = engine := by
  unfold MatchingEngine.putBook
  have held := admitting.held
  rw [← admitting.shown] at held
  rw [Dict.set_of_get? held]

/-- The book that an admitted order leaves, with the fills so far. -/
structure Left (book nextBook : ResidualBook) (more : List Fill) : Prop where
  shown : nextBook.snapshot = book.snapshot
  open_ : nextBook.Open
  grown : ∀ side price, book.consumed side price ≤ nextBook.consumed side price
  paired : takingSizes nextBook.takings = sizesOf more

section
variable (admitting : Admitting snapshot before book engine produced)
include admitting

theorem left_refl : Left book book produced :=
  ⟨rfl, admitting.open_, fun _ _ => le_rfl, admitting.paired⟩

theorem books_left (left : Left book nextBook more)
    (token : String) : (engine.putBook nextBook).books.get? token =
      if snapshot.tokenId = token then some nextBook else engine.books.get? token := by
  simp only [MatchingEngine.putBook]
  rw [Dict.get?_set, left.shown, admitting.shown]

theorem terminate (found : engine.orders.get? id = some order) (left : Left book nextBook more) {last : BacktestOrder}
    (same : last.toNewOrder = order.toNewOrder) {state : OrderState}
    (final : state = .filled ∨ state = .cancelled ∨ state = .rejected) :
    Admitting snapshot before nextBook ((engine.putBook nextBook).terminate last state) more := by
  have orderly := admitting.orderly.putBook nextBook
  refine @admitOne snapshot before engine _ book nextBook produced more (MatchingEngine.ended last state) admitting
    (orderly.terminate (orderly.knows found same) state) (fun token => ?_) left.shown left.open_ left.grown left.paired
    (fun other => ?_) (Or.inl (MatchingEngine.terminal_ended _ final)) (Or.inl ?_)
  · rw [MatchingEngine.books_terminate]
    exact admitting.books_left left token
  · rw [MatchingEngine.get?_terminate, MatchingEngine.toNewOrder_ended, MatchingEngine.orders_putBook]
  · rw [MatchingEngine.working_terminate, MatchingEngine.working_putBook]

theorem restAs (found : engine.orders.get? id = some order) (left : Left book nextBook more) {last : BacktestOrder}
    (same : last.toNewOrder = order.toNewOrder) (state : OrderState) (shown : BookSnapshot)
    (spent : nextBook.SpentFrom order.side order.price 0) :
    Admitting snapshot before nextBook ((engine.putBook nextBook).restAs config last state shown) more := by
  have orderly := admitting.orderly.putBook nextBook
  unfold MatchingEngine.restAs
  have terms : (MatchingEngine.rested config last state shown).toNewOrder = order.toNewOrder := same
  generalize MatchingEngine.rested config last state shown = resting at terms ⊢
  have knows : (engine.putBook nextBook).Knows resting := orderly.knows found terms
  have put := orderly.put knows
  have knowsPut : ((engine.putBook nextBook).put resting).Knows resting := by
    have own : ((engine.putBook nextBook).put resting).orders.get? resting.orderId = some resting := by
      rw [MatchingEngine.get?_put, if_pos rfl]
    exact put.knows own rfl
  refine @admitOne snapshot before engine _ book nextBook produced more resting admitting (put.addToWorking knowsPut)
    (fun token => ?_) left.shown left.open_ left.grown left.paired (fun other => ?_) (Or.inr ?_) ?_
  · rw [MatchingEngine.books_addToWorking, MatchingEngine.books_put]
    exact admitting.books_left left token
  · rw [MatchingEngine.orders_addToWorking, MatchingEngine.get?_put, MatchingEngine.orders_putBook]
  · rw [terms]
    exact spent
  · rw [MatchingEngine.working_addToWorking, MatchingEngine.working_put, MatchingEngine.working_putBook]
    split_ifs
    · exact Or.inr rfl
    · exact Or.inl rfl

theorem left_consumeLevels (config : MatchingConfig)
    (now : Instant) (order : BacktestOrder) :
    Left book (config.consumeLevels now order book produced).book (config.consumeLevels now order book produced).produced := by
  obtain ⟨goes, open_, shown, -⟩ := @MatchingConfig.consumeLevels_spec config now order book admitting.open_ produced
  refine ⟨shown, open_, goes.grown, ?_⟩
  obtain ⟨added, made, -, -, -, takings⟩ := goes.fills
  calc takingSizes (config.consumeLevels now order book produced).book.takings
      = takingSizes book.takings ++ sizesOf added := takings
    _ = sizesOf produced ++ sizesOf added := by rw [admitting.paired]
    _ = sizesOf (config.consumeLevels now order book produced).produced := by
      rw [made, sizesOf, sizesOf, sizesOf, List.map_append]

theorem handleAdmit (config : MatchingConfig) (now : Instant)
    (found : engine.orders.get? id = some order) (token : order.tokenId = snapshot.tokenId) :
    ∃ nextBook, Admitting snapshot before nextBook (MatchingEngine.handleAdmit config now engine produced order).1
      (MatchingEngine.handleAdmit config now engine produced order).2 := by
  obtain ⟨goes, -, shown, spent⟩ :=
    @MatchingConfig.consumeLevels_spec config now order book admitting.open_ produced
  have left := admitting.left_consumeLevels config now order
  have self := admitting.left_refl
  have terms := goes.same
  unfold MatchingEngine.handleAdmit
  rw [token, admitting.held]
  simp only
  split_ifs with crosses fok short marketable more takes takes
  · refine ⟨book, ?_⟩
    rw [← admitting.putBook_self]
    refine admitting.terminate found self ?_ (Or.inr (Or.inr rfl))
    rfl
  · refine ⟨book, ?_⟩
    rw [← admitting.putBook_self]
    refine admitting.terminate found self ?_ (Or.inr (Or.inr rfl))
    rfl
  · exact ⟨_, admitting.terminate found left terms (Or.inl rfl)⟩
  · refine ⟨_, admitting.terminate found left ?_ (Or.inr (Or.inl rfl))⟩
    exact terms
  · exact ⟨_, admitting.restAs found left terms .partially _ (spent more)⟩
  · exact ⟨_, admitting.terminate found left terms (Or.inl rfl)⟩
  · refine ⟨book, ?_⟩
    rw [← admitting.putBook_self]
    refine admitting.terminate found self ?_ (Or.inr (Or.inl rfl))
    rfl
  · refine ⟨book, ?_⟩
    rw [← admitting.putBook_self]
    exact admitting.restAs found self rfl .working _ (spent_of_unmarketable marketable)

end

theorem fold (config : MatchingConfig) (ids : List String) :
    ∀ {engine : MatchingEngine} {book : ResidualBook} {produced : List Fill},
      Admitting snapshot before book engine produced →
        ∃ nextBook, Admitting snapshot before nextBook
          (ids.foldl (MatchingEngine.admitDue config snapshot) (engine, produced)).1
          (ids.foldl (MatchingEngine.admitDue config snapshot) (engine, produced)).2 := by
  induction ids with
  | nil =>
    intro engine book produced admitting
    exact ⟨book, admitting⟩
  | cons id rest ih =>
    intro engine book produced admitting
    simp only [List.foldl_cons, MatchingEngine.admitDue]
    cases found : engine.orders.get? id with
    | none => exact ih admitting
    | some order =>
      simp only
      split_ifs with due
      · obtain ⟨nextBook, next⟩ := admitting.handleAdmit config snapshot.observedAt found due.1
        exact ih next
      · exact ih admitting

end Admitting

end Callisto.Backtest
