import Callisto.Paper.CallWrites

/-! The events of a good-till-cancelled order: it is opened once, and cancelled at most once. -/

namespace Callisto.Paper

open Callisto.Library

namespace Ledger

variable {ledger next : Ledger}

def eventsOf (ledger : Ledger) (orderId : String) : List OrderEvent := ledger.orderEvents.filter fun event => event.orderId = orderId

def cancellationsOf (ledger : Ledger) (orderId : String) : List (String × Cancellation) :=
  ledger.cancellations.entries.filter fun entry => entry.2.orderId = orderId

def openedEvent (orderId : String) (order : Order) : OrderEvent :=
  ⟨orderId, 1, .opened, none, order.openQuantity, order.reservedCash, order.createdAt⟩

def cancelledEvent (orderId : String) (order : Order) (entry : String × Cancellation) : OrderEvent :=
  ⟨orderId, 2, .cancelled, some entry.1, order.openQuantity, order.reservedCash, entry.2.createdAt⟩

/-- The events of an order are its opening and, once it is cancelled, its one cancellation, which releases what it reserved. -/
structure OrdersOnce (ledger : Ledger) : Prop where
  unknown : ∀ orderId, ledger.orders.get? orderId = none → ledger.eventsOf orderId = [] ∧ ledger.cancellationsOf orderId = []
  events : ∀ orderId order, ledger.orders.get? orderId = some order →
    ledger.eventsOf orderId = openedEvent orderId order :: (ledger.cancellationsOf orderId).map (cancelledEvent orderId order)
  single : ∀ orderId, (ledger.cancellationsOf orderId).length ≤ 1
  released : ∀ orderId order, ledger.orders.get? orderId = some order →
    ∀ entry ∈ ledger.cancellationsOf orderId, entry.2.releasedCash = order.reservedCash

theorem ordersOnce_create (name : String) (startingCash : ℤ) (now : Instant) : (create name startingCash now).OrdersOnce :=
  ⟨fun _ _ => ⟨rfl, rfl⟩, nofun, fun _ => Nat.zero_le _, nofun⟩

theorem OrdersOnce.of_same (once : ledger.OrdersOnce) (orders : next.orders = ledger.orders)
    (cancellations : next.cancellations = ledger.cancellations) (events : next.orderEvents = ledger.orderEvents) : next.OrdersOnce := by
  obtain ⟨unknown, opened, single, released⟩ := once
  unfold eventsOf cancellationsOf at *
  rw [← orders, ← cancellations, ← events] at *
  exact ⟨unknown, opened, single, released⟩

theorem eventsOf_snoc {event : OrderEvent} {orderId : String} (target : event.orderId = orderId)
    (events : next.orderEvents = ledger.orderEvents ++ [event]) (other : String) :
    next.eventsOf other = ledger.eventsOf other ++ if orderId = other then [event] else [] := by
  rw [eventsOf, events, List.filter_append]
  by_cases same : orderId = other <;> simp [eventsOf, target, same]

theorem OrdersOnce.opened (once : ledger.OrdersOnce) {orderId : String} {order : Order}
    (absent : ledger.orders.get? orderId = none)
    (orders : ∀ other, next.orders.get? other = if orderId = other then some order else ledger.orders.get? other)
    (cancellations : next.cancellations = ledger.cancellations)
    (events : next.orderEvents = ledger.orderEvents ++ [openedEvent orderId order]) : next.OrdersOnce := by
  obtain ⟨nothing, never⟩ := once.unknown orderId absent
  have traces : ∀ other, next.eventsOf other = ledger.eventsOf other ++ if orderId = other then [openedEvent orderId order] else [] :=
    eventsOf_snoc rfl events
  have same : next.cancellationsOf = ledger.cancellationsOf := funext fun other => by rw [cancellationsOf, cancellations, cancellationsOf]
  refine ⟨fun other missing => ?_, fun other held found => ?_, same ▸ once.single, fun other held found entry member => ?_⟩
  · rw [orders] at missing
    split_ifs at missing with apart
    rw [same, traces, if_neg apart, List.append_nil]
    exact once.unknown other missing
  · rw [orders] at found
    rw [same, traces]
    split_ifs at found with apart
    · subst apart
      cases found
      rw [nothing, never, if_pos rfl]
      rfl
    · rw [if_neg apart, List.append_nil]
      exact once.events other held found
  · rw [orders] at found
    rw [same] at member
    split_ifs at found with apart
    · subst apart
      rw [never] at member
      cases member
    · exact once.released other held found entry member

theorem OrdersOnce.cancelled (once : ledger.OrdersOnce) {orderId : String} {order : Order} {entry : String × Cancellation}
    (found : ledger.orders.get? orderId = some order) (working : ledger.cancellationsOf orderId = []) (target : entry.2.orderId = orderId)
    (released : entry.2.releasedCash = order.reservedCash) (orders : next.orders = ledger.orders)
    (cancellations : next.cancellations.entries = ledger.cancellations.entries ++ [entry])
    (events : next.orderEvents = ledger.orderEvents ++ [cancelledEvent orderId order entry]) : next.OrdersOnce := by
  have traces : ∀ other, next.eventsOf other = ledger.eventsOf other ++ if orderId = other then [cancelledEvent orderId order entry] else [] :=
    eventsOf_snoc rfl events
  have here : next.cancellationsOf orderId = [entry] := by
    rw [cancellationsOf, cancellations, List.filter_append, show List.filter _ ledger.cancellations.entries = [] from working]
    simp [target]
  have elsewhere (other : String) (apart : orderId ≠ other) : next.cancellationsOf other = ledger.cancellationsOf other ∧
      next.eventsOf other = ledger.eventsOf other := by
    rw [traces, if_neg apart, cancellationsOf, cancellations, List.filter_append]
    simp [cancellationsOf, target, apart]
  refine ⟨fun other missing => ?_, fun other held stands => ?_, fun other => ?_, fun other held stands cancellation member => ?_⟩
  · rw [orders] at missing
    obtain ⟨same, traces⟩ := elsewhere other (by rintro rfl; simp [found] at missing)
    rw [same, traces]
    exact once.unknown other missing
  · rw [orders] at stands
    by_cases apart : orderId = other
    · subst apart
      cases found.symm.trans stands
      rw [here, traces, once.events orderId order found, working, if_pos rfl]
      rfl
    · rw [(elsewhere other apart).1, (elsewhere other apart).2]
      exact once.events other held stands
  · by_cases apart : orderId = other
    · rw [← apart, here, List.length_singleton]
    · exact (elsewhere other apart).1 ▸ once.single other
  · rw [orders] at stands
    by_cases apart : orderId = other
    · subst apart
      cases found.symm.trans stands
      rw [here] at member
      rw [List.mem_singleton.1 member, released]
    · exact once.released other held stands cancellation ((elsewhere other apart).1 ▸ member)

theorem ordersOnce_withOrder (once : ledger.OrdersOnce) {names : RowNames} {accountId decisionId : String}
    {request : DecisionRequest} {resolved : ResolvedOpportunity} {settlement : Settlement} {now : Instant}
    (opens : ledger.withOrder names accountId decisionId request resolved settlement now = .ok next) : next.OrdersOnce := by
  unfold withOrder at opens
  split at opens
  · cases opens
    exact once
  · unfold openOrder at opens
    split_ifs at opens with absent
    cases opens
    exact once.opened absent (fun other => Dict.get?_add _ _ other _ absent) rfl rfl

theorem ordersOnce_cancelOrder (once : ledger.OrdersOnce) {orderId cancellationId : String} {now : Instant}
    {cancellation : Cancellation} (cancels : ledger.cancelOrder orderId cancellationId now = .ok (next, cancellation)) : next.OrdersOnce := by
  unfold cancelOrder at cancels
  split at cancels
  · split_ifs at cancels
    cases cancels
    exact once
  · next absent =>
    split at cancels
    · cases cancels
    · next order found =>
      split_ifs at cancels with terminal
      cases cancels
      have working : ledger.cancellationsOf orderId = [] := List.filter_eq_nil_iff.2 fun entry member same =>
        terminal (Or.inl ⟨entry.2, List.mem_map_of_mem member, of_decide_eq_true same⟩)
      exact @OrdersOnce.cancelled _ _ once _ _ (cancellationId, ⟨orderId, order.reservedCash, now⟩) found working rfl rfl rfl rfl rfl

theorem OrdersOnce.commits {env : Environment} {call : Call} {row : Decision} (once : ledger.OrdersOnce)
    (commits : call.Commits env ledger next row) : next.OrdersOnce := by
  cases call with
  | recordDecision accountId decisionId opportunityId revision request =>
    obtain ⟨resolved, prepared, now, -, committed⟩ := commits
    rcases commitPrepared_ok committed with ⟨rfl, -⟩ | ⟨settlement, absent, positioned, -, -, positions, opens⟩
    · exact once
    · refine ordersOnce_withOrder ?_ opens
      rcases withPosition_ok positions with rfl | ⟨position, missing, -, -, -, -, -, -, -, rfl⟩
      · exact once.of_same rfl rfl rfl
      · exact once.of_same rfl rfl rfl
  | recordExit accountId decisionId positionId terms =>
    obtain ⟨resolved, prepared, now, committed⟩ := commits
    rcases commitExit_ok committed with ⟨rfl, -⟩ | ⟨position, settlement, absent, -, -, -, -, rfl⟩
    · exact once
    · exact once.of_same rfl rfl rfl

end Ledger

namespace Machine

theorem Writes.ordersOnce {env : Environment} {machine : Machine} {event : Event} {next : Store} (writes : machine.Writes env event next)
    (each : machine.store.Each Ledger.OrdersOnce) : next.Each Ledger.OrdersOnce := by
  have after : ∀ accountId ledger changed, machine.store.get? accountId = some ledger → (ledger.OrdersOnce → changed.OrdersOnce) →
      Store.Each Ledger.OrdersOnce (machine.store.set accountId changed) := by
    intro accountId ledger changed held keeps other found stands
    rw [Dict.get?_set] at stands
    split_ifs at stands
    · cases stands
      exact keeps (each accountId ledger held)
    · exact each other found stands
  cases writes with
  | nothing => exact each
  | creates accountId name startingCash now nonneg absent =>
    intro other found stands
    rw [Dict.get?_add] at stands
    split_ifs at stands
    · cases stands
      exact Ledger.ordersOnce_create name startingCash now
    · exact each other found stands
  | cancels accountId orderId cancellationId now ledger changed cancellation held cancelled =>
    exact after accountId ledger changed held fun once => Ledger.ordersOnce_cancelOrder once cancelled
  | changes client input call ledger changed holds held change =>
    refine after call.accountId ledger changed held fun once => ?_
    cases change with
    | same => exact once
    | intends intent undecided absent hash exits => exact once.of_same rfl rfl rfl
    | decides _ row absent intended commits => exact once.commits commits

/-- In every interleaving of calls, cancellations and crashes, every account stays balanced, the costs of its positions add up, and its
orders are opened once and cancelled at most once. -/
theorem accounts_reached (env : Environment) (events : List Event) :
    (reached env events).store.Each fun ledger => ledger.Balanced ∧ ledger.Costed ∧ ledger.OrdersOnce := by
  have orders : (reached env events).store.Each Ledger.OrdersOnce := by
    induction events using List.reverseRecOn with
    | nil => exact Store.each_empty Ledger.OrdersOnce
    | append_singleton before event ih =>
      rw [reached, Runs.run_append]
      exact (writes_step (sound_reached env (Set.Subset.refl (startedIn before))) event).ordersOnce ih
  intro accountId ledger held
  have traced := (sound_reached env (Set.Subset.refl (startedIn events))).ledgers accountId ledger held
  exact ⟨traced.kept.toBalanced, traced.costed, orders accountId ledger held⟩

end Machine

end Callisto.Paper
