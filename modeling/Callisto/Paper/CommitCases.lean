import Callisto.Library.Runs
import Callisto.Library.Traversals
import Callisto.Paper.Commit

/-! What each transaction of the paper service can do, and what therefore holds in every run of them. -/

namespace Callisto.Paper

open Callisto.Library Callisto.Library.Runs

theorem replay_ok {existing decision : Decision} {requestHash : String}
    (replayed : existing.replay requestHash = .ok decision) : decision = existing ∧ existing.requestHash = requestHash := by
  unfold Decision.replay at replayed
  split_ifs at replayed with same
  cases replayed
  exact ⟨rfl, not_not.1 same⟩

namespace Ledger

variable {ledger next : Ledger} {names : RowNames} {now : Instant}

theorem withPosition_ok {accountId decisionId : String}
    {request : DecisionRequest} {resolved : ResolvedOpportunity} {settlement : Settlement}
    (opened : ledger.withPosition names accountId decisionId request resolved settlement now = .ok next) :
    next = ledger ∨ ∃ (position : Position) (absent : ledger.positions.get? (names.positionId accountId decisionId) = none),
      position.entryDecisionId = decisionId ∧ position.ticker = resolved.ticker ∧ position.outcome = resolved.outcome ∧
      position.entryQuantity = settlement.filledQuantity ∧ position.entryNotional = settlement.notional ∧
      position.entryFee = settlement.fee ∧ 0 < settlement.filledQuantity ∧
      next = { ledger with
        positions := ledger.positions.add (names.positionId accountId decisionId) position absent } := by
  unfold withPosition at opened
  split_ifs at opened with filled
  · unfold openPosition at opened
    split_ifs at opened with absent
    cases opened
    exact Or.inr ⟨_, absent, rfl, rfl, rfl, rfl, rfl, rfl, filled.2.2, rfl⟩
  · cases opened
    exact Or.inl rfl

theorem withOrder_ok {accountId decisionId : String}
    {request : DecisionRequest} {resolved : ResolvedOpportunity} {settlement : Settlement}
    (opened : ledger.withOrder names accountId decisionId request resolved settlement now = .ok next) :
    (next = ledger ∧ reservation request settlement = 0) ∨
      ∃ (order : Order) (events : List OrderEvent) (absent : ledger.orders.get? (names.orderId accountId decisionId) = none),
        order.reservedCash = reservation request settlement ∧
        order.reservedCash = order.openQuantity * order.limitPrice * moneyPerNotional ∧
        next = { ledger with
          orders := ledger.orders.add (names.orderId accountId decisionId) order absent
          orderEvents := events } := by
  unfold withOrder at opened
  cases terms : orderTerms request settlement with
  | none =>
    simp only [terms, Except.ok.injEq] at opened
    exact Or.inl ⟨opened.symm, by simp [reservation, terms]⟩
  | some found =>
    simp only [terms] at opened
    unfold openOrder at opened
    split_ifs at opened with absent
    cases opened
    exact Or.inr ⟨_, _, absent, rfl, by simp [reservation, terms], rfl⟩

theorem commitPrepared_ok {accountId decisionId requestHash : String}
    {request : DecisionRequest} {resolved : ResolvedOpportunity} {prepared : PreparedDecision}
    {row : Decision}
    (committed : ledger.commitPrepared names accountId decisionId requestHash request resolved prepared now =
      .ok (next, row)) :
    (next = ledger ∧ ledger.decisions.get? decisionId = some row ∧ row.requestHash = requestHash) ∨
      ∃ (settlement : Settlement) (absent : ledger.decisions.get? decisionId = none) (positioned : Ledger),
        settlement = settleBuy ledger.account request prepared now ∧
        row = buyRow ledger.account requestHash request resolved prepared settlement now ∧
        withPosition { ledger with
          account := { ledger.account with
            cashBalance := row.cashAfter
            reservedCash := ledger.account.reservedCash + reservation request settlement
            journalSequence := row.accountSequence
            updatedAt := now }
          decisions := ledger.decisions.add decisionId row absent }
          names accountId decisionId request resolved settlement now = .ok positioned ∧
        positioned.withOrder names accountId decisionId request resolved settlement now = .ok next := by
  unfold commitPrepared at committed
  split at committed
  · rename_i existing found
    cases replayed : existing.replay requestHash with
    | error raised => simp [replayed, Except.map] at committed
    | ok decision =>
      simp only [replayed, Except.map, Except.ok.injEq, Prod.mk.injEq] at committed
      obtain ⟨rfl, rfl⟩ := committed
      obtain ⟨rfl, hash⟩ := replay_ok replayed
      exact Or.inl ⟨rfl, found, hash⟩
  · rename_i absent
    refine Or.inr ⟨settleBuy ledger.account request prepared now, absent, ?_⟩
    simp only [bind, Except.bind] at committed
    split at committed
    · cases committed
    · rename_i positioned positionedOk
      split at committed
      · cases committed
      · rename_i ordered orderedOk
        cases committed
        exact ⟨positioned, rfl, rfl, positionedOk, orderedOk⟩

theorem commitExit_ok {decisionId positionId requestHash : String} {terms : OrderTerms}
    {resolved : ResolvedOpportunity} {prepared : PreparedDecision} {row : Decision}
    (committed : ledger.commitExit decisionId positionId requestHash terms resolved prepared now = .ok (next, row)) :
    (next = ledger ∧ ledger.decisions.get? decisionId = some row ∧ row.requestHash = requestHash) ∨
      ∃ (position : Position) (settlement : Settlement) (absent : ledger.decisions.get? decisionId = none),
        ledger.positions.get? positionId = some position ∧
        settlement = settleSell position (ledger.soldQuantity positionId) terms prepared now ∧
        ledger.soldQuantity positionId + settlement.filledQuantity ≤ position.entryQuantity ∧
        row = sellRow ledger.account requestHash positionId terms resolved prepared settlement
          (position.costOf (ledger.soldQuantity positionId + settlement.filledQuantity) -
            ledger.allocatedCost positionId) now ∧
        next = { ledger with
          account := { ledger.account with
            cashBalance := row.cashAfter
            journalSequence := row.accountSequence
            updatedAt := now }
          decisions := ledger.decisions.add decisionId row absent } := by
  unfold commitExit at committed
  split at committed
  · rename_i existing found
    cases replayed : existing.replay requestHash with
    | error raised => simp [replayed, Except.map] at committed
    | ok decision =>
      simp only [replayed, Except.map, Except.ok.injEq, Prod.mk.injEq] at committed
      obtain ⟨rfl, rfl⟩ := committed
      obtain ⟨rfl, hash⟩ := replay_ok replayed
      exact Or.inl ⟨rfl, found, hash⟩
  · rename_i absent
    split at committed
    · cases committed
    · rename_i position held
      simp only at committed
      split_ifs at committed with oversold
      cases committed
      exact Or.inr ⟨position, _, absent, held, rfl, not_lt.1 oversold, rfl, rfl⟩

theorem cancelOrder_ok {orderId cancellationId : String}
    {cancellation : Cancellation} (cancelled : ledger.cancelOrder orderId cancellationId now = .ok (next, cancellation)) :
    next = ledger ∨
      ∃ (order : Order) (events : List OrderEvent) (absent : ledger.cancellations.get? cancellationId = none),
        ledger.orders.get? orderId = some order ∧ ¬ ledger.IsCancelled orderId ∧
        order.reservedCash ≤ ledger.account.reservedCash ∧ 0 < order.reservedCash ∧ cancellation.orderId = orderId ∧
        next = { ledger with
          account := { ledger.account with
            reservedCash := ledger.account.reservedCash - order.reservedCash
            updatedAt := now }
          cancellations := ledger.cancellations.add cancellationId cancellation absent
          orderEvents := events } := by
  unfold cancelOrder at cancelled
  split at cancelled
  · split_ifs at cancelled
    cases cancelled
    exact Or.inl rfl
  · rename_i absent
    split at cancelled
    · cases cancelled
    · rename_i order found
      split_ifs at cancelled with terminal contradictory
      cases cancelled
      have open_ : ¬ ledger.IsCancelled orderId ∧ 0 < order.reservedCash := by
        simp only [not_or, not_le] at terminal
        exact ⟨terminal.1, terminal.2.2⟩
      exact Or.inr ⟨order, _, absent, found, open_.1, not_lt.1 contradictory, open_.2, rfl, rfl⟩

end Ledger

namespace Store

variable {names : RowNames} {now : Instant} {good : Ledger → Prop}

def Each (good : Ledger → Prop) (store : Store) : Prop :=
  ∀ accountId ledger, store.get? accountId = some ledger → good ledger

/-- What a property of accounts needs to hold in every run: every transaction keeps it. -/
structure Preserved (names : RowNames) (good : Ledger → Prop) : Prop where
  create : ∀ name startingCash now, 0 ≤ startingCash → good (Ledger.create name startingCash now)
  commitPrepared : ∀ {ledger next accountId decisionId requestHash request resolved prepared now row},
    good ledger → (request = .pass → prepared.quote = none) →
    ledger.commitPrepared names accountId decisionId requestHash request resolved prepared now = .ok (next, row) →
      good next
  commitExit : ∀ {ledger next decisionId positionId requestHash terms resolved prepared now row}, good ledger →
    ledger.commitExit decisionId positionId requestHash terms resolved prepared now = .ok (next, row) → good next
  cancelOrder : ∀ {ledger next orderId cancellationId now cancellation}, good ledger →
    ledger.cancelOrder orderId cancellationId now = .ok (next, cancellation) → good next

theorem each_empty (good : Ledger → Prop) : Each good Dict.empty := by
  intro accountId ledger found
  cases found

theorem each_onAccount {α : Type} {store next : Store} {accountId : String} {result : α}
    {change : Ledger → Except ServiceError (Ledger × α)} (each : store.Each good)
    (keeps : ∀ ledger after value, good ledger → change ledger = .ok (after, value) → good after)
    (changed : store.onAccount accountId change = .ok (next, result)) : next.Each good := by
  unfold onAccount at changed
  cases found : store.get? accountId with
  | none => simp [found] at changed
  | some ledger =>
    cases applied : change ledger with
    | error raised => simp [found, applied, Except.map] at changed
    | ok outcome =>
      simp only [found, applied, Except.map, Except.ok.injEq, Prod.mk.injEq] at changed
      obtain ⟨rfl, -⟩ := changed
      intro other after held
      rw [Dict.get?_set] at held
      split_ifs at held
      · cases held
        exact keeps ledger _ outcome.2 (each accountId ledger found) applied
      · exact each other after held

theorem unquoted_pass {request : DecisionRequest} (resolved : ResolvedOpportunity) (preparation : Preparation) :
    request = .pass → (prepareBuy request resolved preparation).quote = none := by
  rintro rfl
  cases preparation with
  | resumed => rfl
  | fetched quote => rfl

theorem each_createAccount (preserved : Preserved names good)
    {store next : Store} {accountId name : String} {startingCash : ℤ} (each : store.Each good)
    (created : store.createAccount accountId name startingCash now = .ok next) : next.Each good := by
  unfold createAccount at created
  split_ifs at created with unnamed negative absent taken
  cases created
  intro other ledger held
  rw [Dict.get?_add] at held
  split_ifs at held
  · cases held
    exact preserved.create name startingCash now (not_lt.1 negative)
  · exact each other ledger held

theorem each_step (preserved : Preserved names good) {store : Store}
    (each : store.Each good) (transaction : Transaction) : (store.step names transaction).Each good := by
  unfold step
  cases applied : store.apply names transaction with
  | error raised => exact each
  | ok next =>
    simp only
    cases transaction with
    | createAccount accountId name startingCash now => exact each_createAccount preserved each applied
    | commitPrepared accountId decisionId requestHash request resolved preparation now =>
      obtain ⟨⟨after, row⟩, changed, rfl⟩ := map_ok applied
      exact each_onAccount each (fun ledger after value held committed =>
        preserved.commitPrepared held (unquoted_pass resolved preparation) committed) changed
    | commitExit accountId decisionId positionId requestHash terms resolved preparation now =>
      cases prepares : prepareSell terms resolved preparation with
      | error raised => simp [apply, prepares, bind, Except.bind] at applied
      | ok prepared =>
        simp only [apply, prepares, bind, Except.bind] at applied
        obtain ⟨⟨after, row⟩, changed, rfl⟩ := map_ok applied
        exact each_onAccount each (fun ledger after value held committed => preserved.commitExit held committed) changed
    | cancelOrder accountId orderId cancellationId now =>
      obtain ⟨⟨after, row⟩, changed, rfl⟩ := map_ok applied
      exact each_onAccount each (fun ledger after value held cancelled => preserved.cancelOrder held cancelled) changed

/-- A preserved property holds of every account that a run of transactions reaches. -/
theorem all_run (preserved : Preserved names good)
    (transactions : List Transaction) : (run (step names) Dict.empty transactions).All fun _ ledger => good ledger := by
  rintro ⟨accountId, ledger⟩ member
  have held := (Dict.find_eq_some_iff (run (step names) Dict.empty transactions).nodup).2 member
  exact @invariant_all _ _ (step names) (Each good) (fun _ transaction each => each_step preserved each transaction) _
    (each_empty good) transactions accountId ledger held

end Store

end Callisto.Paper
