import Callisto.Backtest.MatchingWalks

/-! What the small steps of the engine do to its orders, its working lists and its books. -/

namespace Callisto.Backtest

open Callisto.Library

namespace MatchingEngine

variable {config : MatchingConfig} {engine : MatchingEngine}

@[simp] theorem get?_put (engine : MatchingEngine) (order : BacktestOrder) (id : String) :
    (engine.put order).orders.get? id = if order.orderId = id then some order else engine.orders.get? id :=
  Dict.get?_set engine.orders order.orderId id order

@[simp] theorem working_put (engine : MatchingEngine) (order : BacktestOrder) (token : String) :
    (engine.put order).working token = engine.working token := rfl

@[simp] theorem books_put (engine : MatchingEngine) (order : BacktestOrder) : (engine.put order).books = engine.books := rfl

@[simp] theorem orders_putBook (engine : MatchingEngine) (book : ResidualBook) : (engine.putBook book).orders = engine.orders :=
  rfl

@[simp] theorem working_putBook (engine : MatchingEngine) (book : ResidualBook) (token : String) :
    (engine.putBook book).working token = engine.working token := rfl

def ended (order : BacktestOrder) (state : OrderState) : BacktestOrder :=
  if order.IsTerminal then order else { order with state := state }

@[simp] theorem toNewOrder_ended (order : BacktestOrder) (state : OrderState) :
    (ended order state).toNewOrder = order.toNewOrder := by
  unfold ended
  split_ifs <;> rfl

theorem submit_spec {order : NewOrder} {latency : Instant} {next : MatchingEngine} (done : engine.submit config order latency = .ok next) :
    engine.orders.get? order.orderId = none ∧
      ((∃ reason, next = engine.put { toNewOrder := order, state := .rejected, rejectReason := some reason }) ∨
        ∃ adjusted, config.rules.validateSubmit order.side order.price order.size order.tif order.postOnly = .ok adjusted ∧
          next = { engine.put { toNewOrder := { order with price := adjusted.getD order.price }
                                venueReceivedAt := some (order.submittedAt + latency) } with
                   activeCountByToken := engine.activeCountByToken.set order.tokenId
                     ((engine.activeCountByToken.get? order.tokenId).getD 0 + 1) }) := by
  unfold submit at done
  split_ifs at done with taken
  refine ⟨by simpa using taken, ?_⟩
  split at done
  case h_1 reason _ =>
    cases done
    exact Or.inl ⟨reason, rfl⟩
  case h_2 adjusted verdict =>
    cases done
    exact Or.inr ⟨adjusted, verdict, rfl⟩

theorem terminal_ended (order : BacktestOrder) {state : OrderState}
    (final : state = .filled ∨ state = .cancelled ∨ state = .rejected) : (ended order state).IsTerminal := by
  unfold ended
  split_ifs with already
  · exact already
  · exact final

@[simp] theorem get?_terminate (engine : MatchingEngine) (order : BacktestOrder) (state : OrderState) (id : String) :
    (engine.terminate order state).orders.get? id =
      if order.orderId = id then some (ended order state) else engine.orders.get? id := by
  unfold terminate ended
  split_ifs with terminal own own
  · simp [own]
  · simp [own]
  · simp [decrementActive, own]
  · simp [decrementActive, own]

@[simp] theorem working_terminate (engine : MatchingEngine) (order : BacktestOrder) (state : OrderState) (token : String) :
    (engine.terminate order state).working token = engine.working token := by
  unfold terminate
  split_ifs <;> rfl

@[simp] theorem books_terminate (engine : MatchingEngine) (order : BacktestOrder) (state : OrderState) :
    (engine.terminate order state).books = engine.books := by
  unfold terminate
  split_ifs <;> rfl

@[simp] theorem orders_removeFromWorking (engine : MatchingEngine) (order : BacktestOrder) :
    (engine.removeFromWorking order).orders = engine.orders := by
  unfold removeFromWorking
  split_ifs <;> rfl

@[simp] theorem books_removeFromWorking (engine : MatchingEngine) (order : BacktestOrder) :
    (engine.removeFromWorking order).books = engine.books := by
  unfold removeFromWorking
  split_ifs <;> rfl

theorem working_removeFromWorking (engine : MatchingEngine) (order : BacktestOrder) (token : String) :
    (engine.removeFromWorking order).working token =
      if order.tokenId = token then (engine.working token).erase order.orderId else engine.working token := by
  unfold removeFromWorking
  split_ifs with listed own own
  · subst own
    simp [working, Dict.get?_set]
  · simp [working, Dict.get?_set, own]
  · subst own
    exact (List.erase_of_not_mem listed).symm
  · rfl

@[simp] theorem orders_addToWorking (engine : MatchingEngine) (order : BacktestOrder) :
    (engine.addToWorking order).orders = engine.orders := by
  unfold addToWorking
  split_ifs <;> rfl

@[simp] theorem books_addToWorking (engine : MatchingEngine) (order : BacktestOrder) :
    (engine.addToWorking order).books = engine.books := by
  unfold addToWorking
  split_ifs <;> rfl

theorem working_addToWorking (engine : MatchingEngine) (order : BacktestOrder) (token : String) :
    (engine.addToWorking order).working token = if order.tokenId = token ∧ order.orderId ∉ engine.working token
      then engine.working token ++ [order.orderId] else engine.working token := by
  unfold addToWorking
  by_cases own : order.tokenId = token
  · subst own
    by_cases listed : order.orderId ∈ engine.working order.tokenId
    · simp [listed]
    · rw [if_neg listed, if_pos ⟨rfl, listed⟩]
      simp [working, Dict.get?_set]
  · have foreign : ¬ (order.tokenId = token ∧ order.orderId ∉ engine.working token) := fun both => own both.1
    rw [if_neg foreign]
    by_cases listed : order.orderId ∈ engine.working order.tokenId
    · rw [if_pos listed]
    · rw [if_neg listed]
      simp [working, Dict.get?_set, own]

/-- Orders, working lists and books are kept under their own names. -/
structure Orderly (engine : MatchingEngine) : Prop where
  keyed : ∀ id order, engine.orders.get? id = some order → order.orderId = id
  filed : ∀ token id, id ∈ engine.working token → ∃ order, engine.orders.get? id = some order ∧ order.tokenId = token
  nodup : ∀ token, (engine.working token).Nodup
  named : ∀ token book, engine.books.get? token = some book → book.snapshot.tokenId = token

def Knows (engine : MatchingEngine) (order : BacktestOrder) : Prop :=
  ∃ known, engine.orders.get? order.orderId = some known ∧ known.toNewOrder = order.toNewOrder

theorem Orderly.knows (orderly : engine.Orderly) {id : String} {order other : BacktestOrder}
    (found : engine.orders.get? id = some order) (same : other.toNewOrder = order.toNewOrder) : engine.Knows other :=
  ⟨order, by rw [same, orderly.keyed id order found, found], same.symm⟩

theorem Orderly.put (orderly : engine.Orderly) {order : BacktestOrder} (known : engine.Knows order) :
    (engine.put order).Orderly := by
  obtain ⟨old, found, same⟩ := known
  refine ⟨fun id other held => ?_, fun token id listed => ?_, orderly.nodup, orderly.named⟩
  · rw [get?_put] at held
    split_ifs at held with own
    · cases held
      exact own
    · exact orderly.keyed id other held
  · obtain ⟨other, held, owned⟩ := orderly.filed token id listed
    rw [get?_put]
    split_ifs with own
    · subst own
      rw [found] at held
      cases held
      exact ⟨order, rfl, by rw [← same, owned]⟩
    · exact ⟨other, held, owned⟩

theorem Orderly.congr {next : MatchingEngine} (orderly : engine.Orderly) (orders : next.orders = engine.orders)
    (working : ∀ token, next.working token = engine.working token) (books : next.books = engine.books) : next.Orderly := by
  refine ⟨?_, fun token id => ?_, fun token => ?_, ?_⟩
  · rw [orders]
    exact orderly.keyed
  · rw [orders, working]
    exact orderly.filed token id
  · rw [working]
    exact orderly.nodup token
  · rw [books]
    exact orderly.named

theorem Orderly.terminate (orderly : engine.Orderly) {order : BacktestOrder} (known : engine.Knows order)
    (state : OrderState) : (engine.terminate order state).Orderly := by
  have knowsEnded : engine.Knows (ended order state) := by
    obtain ⟨old, found, same⟩ := known
    exact ⟨old, by rw [toNewOrder_ended, found], by rw [toNewOrder_ended, same]⟩
  have put := orderly.put knowsEnded
  refine ⟨fun id other held => ?_, fun token id listed => ?_, fun token => ?_, ?_⟩
  · apply put.keyed id other
    rw [get?_put, toNewOrder_ended]
    rwa [get?_terminate] at held
  · rw [working_terminate] at listed
    have filed := put.filed token id listed
    rw [get?_put, toNewOrder_ended] at filed
    rwa [get?_terminate]
  · rw [working_terminate]
    exact orderly.nodup token
  · rw [books_terminate]
    exact orderly.named

theorem Orderly.removeFromWorking (orderly : engine.Orderly) (order : BacktestOrder) :
    (engine.removeFromWorking order).Orderly := by
  refine ⟨?_, fun token id listed => ?_, fun token => ?_, ?_⟩
  · rw [orders_removeFromWorking]
    exact orderly.keyed
  · rw [orders_removeFromWorking]
    rw [working_removeFromWorking] at listed
    split_ifs at listed
    · exact orderly.filed token id (List.mem_of_mem_erase listed)
    · exact orderly.filed token id listed
  · rw [working_removeFromWorking]
    split_ifs
    · exact (orderly.nodup token).erase _
    · exact orderly.nodup token
  · rw [books_removeFromWorking]
    exact orderly.named

theorem Orderly.addToWorking (orderly : engine.Orderly) {order : BacktestOrder} (known : engine.Knows order) :
    (engine.addToWorking order).Orderly := by
  refine ⟨?_, fun token id listed => ?_, fun token => ?_, ?_⟩
  · rw [orders_addToWorking]
    exact orderly.keyed
  · rw [orders_addToWorking]
    rw [working_addToWorking] at listed
    split_ifs at listed with added
    · rcases List.mem_append.1 listed with old | new
      · exact orderly.filed token id old
      · obtain ⟨known, found, same⟩ := known
        rw [List.mem_singleton.1 new]
        exact ⟨known, found, by rw [same, added.1]⟩
    · exact orderly.filed token id listed
  · rw [working_addToWorking]
    split_ifs with added
    · exact (orderly.nodup token).append (List.nodup_singleton _) (List.disjoint_singleton.2 added.2)
    · exact orderly.nodup token
  · rw [books_addToWorking]
    exact orderly.named

theorem Orderly.putBook (orderly : engine.Orderly) (book : ResidualBook) : (engine.putBook book).Orderly := by
  refine ⟨orderly.keyed, orderly.filed, orderly.nodup, fun token other found => ?_⟩
  simp only [MatchingEngine.putBook] at found
  rw [Dict.get?_set] at found
  split_ifs at found with own
  · cases found
    exact own
  · exact orderly.named token other found

theorem applyCancel_spec (orderly : engine.Orderly) (id : String) (effectiveAt : Instant) :
    (engine.applyCancel id effectiveAt).Orderly ∧ (engine.applyCancel id effectiveAt).books = engine.books ∧
      (∀ token, ((engine.applyCancel id effectiveAt).working token).Sublist (engine.working token)) ∧
      ∀ other order, (engine.applyCancel id effectiveAt).orders.get? other = some order →
        order.IsTerminal ∨ id ≠ other ∧ engine.orders.get? other = some order := by
  unfold applyCancel
  cases found : engine.orders.get? id with
  | none =>
    refine ⟨orderly, rfl, fun _ => List.Sublist.refl _, fun other order held => ?_⟩
    by_cases own : id = other
    · subst own
      rw [found] at held
      cases held
    · exact Or.inr ⟨own, held⟩
  | some order =>
    simp only
    split_ifs with terminal pending
    · refine ⟨orderly, rfl, fun _ => List.Sublist.refl _, fun other held => ?_⟩
      intro known
      by_cases own : id = other
      · subst own
        rw [found] at known
        cases known
        exact Or.inl terminal
      · exact Or.inr ⟨own, known⟩
    all_goals
      have keyed := orderly.keyed id order found
      have known : engine.Knows { order with cancelledAt := some effectiveAt } := orderly.knows found rfl
      have terminated := orderly.terminate known .cancelled
      have gets : ∀ other held,
          (engine.terminate { order with cancelledAt := some effectiveAt } .cancelled).orders.get? other = some held →
            held.IsTerminal ∨ id ≠ other ∧ engine.orders.get? other = some held := by
        intro other held result
        rw [get?_terminate] at result
        split_ifs at result with own
        · cases result
          exact Or.inl (terminal_ended _ (Or.inr (Or.inl rfl)))
        · exact Or.inr ⟨fun same => own (keyed.trans same), result⟩
    · exact ⟨terminated, books_terminate _ _ _, fun token => by rw [working_terminate], gets⟩
    · refine ⟨terminated.removeFromWorking order, by rw [books_removeFromWorking, books_terminate], fun token => ?_, ?_⟩
      · rw [working_removeFromWorking, working_terminate]
        split_ifs
        · exact List.erase_sublist
        · exact List.Sublist.refl _
      · rw [orders_removeFromWorking]
        exact gets

theorem applyDueCancels_spec (orderly : engine.Orderly) (now : Instant) :
    (engine.applyDueCancels now).Orderly ∧ (engine.applyDueCancels now).books = engine.books ∧
      (∀ token, ((engine.applyDueCancels now).working token).Sublist (engine.working token)) ∧
      ∀ id order, (engine.applyDueCancels now).orders.get? id = some order →
        order.IsTerminal ∨ engine.orders.get? id = some order ∧
          ∀ effectiveAt, engine.pendingCancels.get? id = some effectiveAt → now < effectiveAt := by
  have each : ∀ (entries : List (String × Instant)) (start : MatchingEngine), start.Orderly →
      let last := entries.foldl (fun engine (entry : String × Instant) =>
        if entry.2 ≤ now then
          let cancelled := engine.applyCancel entry.1 entry.2
          { cancelled with pendingCancels := cancelled.pendingCancels.erase entry.1 }
        else engine) start
      last.Orderly ∧ last.books = start.books ∧ (∀ token, (last.working token).Sublist (start.working token)) ∧
        ∀ id order, last.orders.get? id = some order → order.IsTerminal ∨ start.orders.get? id = some order ∧
          ∀ effectiveAt, (id, effectiveAt) ∈ entries → now < effectiveAt := by
    intro entries
    induction entries with
    | nil =>
      intro start orderly
      exact ⟨orderly, rfl, fun _ => List.Sublist.refl _, fun id order held => Or.inr ⟨held, fun _ member => by cases member⟩⟩
    | cons entry rest ih =>
      intro start orderly
      simp only [List.foldl_cons]
      by_cases due : entry.2 ≤ now
      · rw [if_pos due]
        obtain ⟨orderlyNext, books, working, gets⟩ := applyCancel_spec orderly entry.1 entry.2
        obtain ⟨last, lastBooks, lastWorking, lastGets⟩ := ih
          { start.applyCancel entry.1 entry.2 with
            pendingCancels := (start.applyCancel entry.1 entry.2).pendingCancels.erase entry.1 }
          (orderlyNext.congr rfl (fun _ => rfl) rfl)
        refine ⟨last, lastBooks.trans books, fun token => (lastWorking token).trans (working token), fun id order held => ?_⟩
        rcases lastGets id order held with terminal | ⟨same, later⟩
        · exact Or.inl terminal
        · rcases gets id order same with terminal | ⟨different, before⟩
          · exact Or.inl terminal
          · refine Or.inr ⟨before, fun effectiveAt member => ?_⟩
            rcases List.mem_cons.1 member with first | other
            · exact absurd (congrArg Prod.fst first).symm different
            · exact later effectiveAt other
      · rw [if_neg due]
        obtain ⟨last, lastBooks, lastWorking, lastGets⟩ := ih start orderly
        refine ⟨last, lastBooks, lastWorking, fun id order held => ?_⟩
        rcases lastGets id order held with terminal | ⟨same, later⟩
        · exact Or.inl terminal
        · refine Or.inr ⟨same, fun effectiveAt member => ?_⟩
          rcases List.mem_cons.1 member with first | other
          · rw [← first] at due
            exact not_le.1 due
          · exact later effectiveAt other
  obtain ⟨last, books, working, gets⟩ := each engine.pendingCancels.entries engine orderly
  refine ⟨last, books, working, fun id order held => ?_⟩
  rcases gets id order held with terminal | ⟨same, later⟩
  · exact Or.inl terminal
  · refine Or.inr ⟨same, fun effectiveAt pending => later effectiveAt ?_⟩
    exact (Dict.find_eq_some_iff engine.pendingCancels.nodup).1 pending

end MatchingEngine

end Callisto.Backtest
