import Callisto.Paper.CommitCases

/-! Cash, reservations and the journal of an account, over every run of the service's transactions. -/

namespace Callisto.Paper

open Callisto.Library Callisto.Library.Runs

theorem settleBuy_affordable {account : Account} (bounded : account.reservedCash ≤ account.cashBalance)
    (request : DecisionRequest) (prepared : PreparedDecision) (now : Instant) :
    (settleBuy account request prepared now).notional + (settleBuy account request prepared now).fee +
        reservation request (settleBuy account request prepared now) ≤
      account.cashBalance - account.reservedCash := by
  have idle : ∀ settlement : Settlement, ¬ settlement.status.IsSimulated →
      settlement.notional + settlement.fee + reservation request settlement ≤
        account.cashBalance - account.reservedCash := by
    intro settlement passive
    obtain ⟨-, notional, fee⟩ := settlement.idle passive
    have none_reserved : reservation request settlement = 0 := by
      cases request with
      | pass => rfl
      | execute terms timeInForce =>
        cases timeInForce with
        | immediateOrCancel => rfl
        | goodTillCanceled => simp [reservation, orderTerms, passive]
    rw [notional, fee, none_reserved]
    omega
  unfold settleBuy
  simp only
  split_ifs with refused
  · exact idle _ id
  · by_cases simulated : (Settlement.checked prepared request.quantity request.quantity_nonneg now).status.IsSimulated
    · exact not_lt.1 fun short => refused ⟨simulated, short⟩
    · exact idle _ simulated

theorem reservation_nonneg (request : DecisionRequest) (settlement : Settlement) : 0 ≤ reservation request settlement := by
  unfold reservation
  cases orderTerms request settlement with
  | none => exact le_rfl
  | some terms =>
    exact Int.mul_nonneg (Int.mul_nonneg settlement.remaining_nonneg terms.limitPrice.positive.le) (by decide)

namespace Ledger

variable {ledger next : Ledger}

def spent (ledger : Ledger) : ℤ :=
  ((ledger.decisions.values.filter fun decision => decision.orderSide = some .buy).map fun decision =>
    decision.notional + decision.fee).sum

def received (ledger : Ledger) : ℤ :=
  ((ledger.decisions.values.filter fun decision => decision.orderSide = some .sell).map fun decision =>
    decision.notional - decision.fee).sum

def outstanding (ledger : Ledger) : ℤ :=
  ledger.orders.sumEntries fun orderId order => if ledger.IsCancelled orderId then 0 else order.reservedCash

/-- The cash, the reservations and the journal of an account agree with its rows. -/
structure Balanced (ledger : Ledger) : Prop where
  cash : ledger.account.cashBalance = ledger.account.startingCash - ledger.spent + ledger.received
  reserved : ledger.account.reservedCash = ledger.outstanding
  reservations : ∀ order ∈ ledger.orders.values,
    order.reservedCash = order.openQuantity * order.limitPrice * moneyPerNotional
  bounded : 0 ≤ ledger.account.reservedCash ∧ ledger.account.reservedCash ≤ ledger.account.cashBalance
  journal : ledger.account.journalSequence = ledger.decisions.values.length
  sequences : ledger.decisions.values.map Decision.accountSequence =
    (List.range ledger.decisions.values.length).map fun index => (index : ℤ) + 1
  chained : ∀ earlier decision later, ledger.decisions.values = earlier ++ decision :: later →
    decision.cashBefore = earlier.getLast?.elim ledger.account.startingCash Decision.cashAfter

structure Kept (ledger : Ledger) : Prop extends ledger.Balanced where
  latest : ledger.account.cashBalance =
    ledger.decisions.values.getLast?.elim ledger.account.startingCash Decision.cashAfter
  known : ∀ cancellation ∈ ledger.cancellations.values, (ledger.orders.get? cancellation.orderId).isSome

theorem kept_create {name : String} {startingCash : ℤ} (nonneg : 0 ≤ startingCash) (now : Instant) :
    (create name startingCash now).Kept where
  cash := by simp [create, spent, received, Dict.values, Dict.empty]
  reserved := by simp [create, outstanding, Dict.sumEntries, Dict.empty]
  reservations order member := by cases member
  bounded := ⟨le_rfl, nonneg⟩
  journal := rfl
  sequences := rfl
  chained earlier decision later split := by
    have empty : (create name startingCash now).decisions.values = [] := rfl
    rw [empty] at split
    simp at split
  latest := rfl
  known cancellation member := by cases member

theorem isCancelled_congr (cancellations : next.cancellations = ledger.cancellations)
    (orderId : String) : next.IsCancelled orderId ↔ ledger.IsCancelled orderId := by
  unfold IsCancelled
  rw [cancellations]

theorem Kept.outstanding_of_opened (kept : ledger.Kept) {orderId : String} {order : Order}
    (absent : ledger.orders.get? orderId = none) (orders : next.orders = ledger.orders.add orderId order absent)
    (cancellations : next.cancellations = ledger.cancellations) :
    next.outstanding = ledger.outstanding + order.reservedCash := by
  have working : ¬ ledger.IsCancelled orderId := by
    rintro ⟨cancellation, member, same⟩
    have present := kept.known cancellation member
    rw [same, absent] at present
    cases present
  unfold outstanding
  rw [orders, Dict.sumEntries_add]
  simp only [isCancelled_congr cancellations, if_neg working]

variable {row : Decision}

theorem spent_of_recorded
    (values : next.decisions.values = ledger.decisions.values ++ [row]) :
    next.spent = ledger.spent + if row.orderSide = some .buy then row.notional + row.fee else 0 := by
  unfold spent
  rw [values, List.filter_append, List.map_append, List.sum_append]
  by_cases side : row.orderSide = some .buy
  · simp [side]
  · simp [side]

theorem received_of_recorded
    (values : next.decisions.values = ledger.decisions.values ++ [row]) :
    next.received = ledger.received + if row.orderSide = some .sell then row.notional - row.fee else 0 := by
  unfold received
  rw [values, List.filter_append, List.map_append, List.sum_append]
  by_cases side : row.orderSide = some .sell
  · simp [side]
  · simp [side]

theorem Kept.record (kept : ledger.Kept) {decisionId : String}
    (absent : ledger.decisions.get? decisionId = none)
    (decisions : next.decisions = ledger.decisions.add decisionId row absent)
    (starting : next.account.startingCash = ledger.account.startingCash)
    (cash : next.account.cashBalance = row.cashAfter) (journal : next.account.journalSequence = row.accountSequence)
    (sequence : row.accountSequence = ledger.account.journalSequence + 1)
    (before : row.cashBefore = ledger.account.cashBalance)
    (moved : row.orderSide = some .buy ∧ row.cashAfter = row.cashBefore - (row.notional + row.fee) ∨
      row.orderSide = some .sell ∧ row.cashAfter = row.cashBefore + (row.notional - row.fee) ∨
      row.orderSide = none ∧ row.cashAfter = row.cashBefore)
    (cancellations : next.cancellations = ledger.cancellations)
    (orders : next.orders = ledger.orders ∧ next.account.reservedCash = ledger.account.reservedCash ∨
      ∃ (orderId : String) (order : Order) (absent : ledger.orders.get? orderId = none),
        next.orders = ledger.orders.add orderId order absent ∧
        order.reservedCash = order.openQuantity * order.limitPrice * moneyPerNotional ∧
        next.account.reservedCash = ledger.account.reservedCash + order.reservedCash)
    (bounded : 0 ≤ next.account.reservedCash ∧ next.account.reservedCash ≤ next.account.cashBalance) : next.Kept := by
  have values : next.decisions.values = ledger.decisions.values ++ [row] := by rw [decisions, Dict.values_add]
  constructor
  · constructor
    · have total := kept.cash
      rw [spent_of_recorded values, received_of_recorded values, starting, cash]
      rcases moved with ⟨side, after⟩ | ⟨side, after⟩ | ⟨side, after⟩
      · simp only [side, if_true, Option.some.injEq, reduceCtorEq, if_false]
        omega
      · simp only [side, if_true, Option.some.injEq, reduceCtorEq, if_false]
        omega
      · simp only [side, reduceCtorEq, if_false]
        omega
    · rcases orders with ⟨same, unchanged⟩ | ⟨orderId, order, free, added, -, raised⟩
      · rw [unchanged, kept.reserved]
        unfold outstanding
        simp only [isCancelled_congr cancellations, same]
      · rw [raised, kept.outstanding_of_opened free added cancellations, kept.reserved]
    · rcases orders with ⟨same, -⟩ | ⟨orderId, order, free, added, product, -⟩
      · rw [same]
        exact kept.reservations
      · intro other member
        rw [added, Dict.values_add] at member
        rcases List.mem_append.1 member with old | new
        · exact kept.reservations other old
        · rw [List.mem_singleton.1 new]
          exact product
    · exact bounded
    · have count := kept.journal
      rw [journal, sequence, values, count]
      simp
    · have count := kept.journal
      have old := kept.sequences
      rw [values]
      simp [List.range_succ, old, sequence, count]
    · intro earlier decision later split
      rw [values] at split
      rw [starting]
      rcases List.eq_nil_or_concat later with rfl | ⟨later, last, rfl⟩
      · obtain ⟨rfl, same⟩ := List.append_inj' split rfl
        obtain rfl : row = decision := by simpa using same
        rw [before, kept.latest]
      · have longer : ledger.decisions.values ++ [row] = (earlier ++ decision :: later) ++ [last] := by
          simpa using split
        obtain ⟨inner, -⟩ := List.append_inj' longer rfl
        exact kept.chained earlier decision later inner
  · rw [values, cash]
    simp
  · intro cancellation member
    rw [cancellations] at member
    have present := kept.known cancellation member
    rcases orders with ⟨same, -⟩ | ⟨orderId, order, free, added, -, -⟩
    · rw [same]
      exact present
    · rw [added, Dict.get?_add]
      split_ifs
      · rfl
      · exact present

theorem settleBuy_pass {prepared : PreparedDecision} (account : Account) (unquoted : prepared.quote = none)
    (now : Instant) :
    (settleBuy account .pass prepared now).notional = 0 ∧ (settleBuy account .pass prepared now).fee = 0 := by
  have idle : ¬ (Settlement.checked prepared DecisionRequest.pass.quantity
      DecisionRequest.pass.quantity_nonneg now).status.IsSimulated := by
    cases prepared with
    | quoted quote result => cases unquoted
    | passed => exact id
    | rejected reason => exact id
  have unchanged : settleBuy account .pass prepared now =
      Settlement.checked prepared DecisionRequest.pass.quantity DecisionRequest.pass.quantity_nonneg now := by
    unfold settleBuy
    exact if_neg fun refused => idle refused.1
  rw [unchanged]
  exact (Settlement.idle _ idle).2

theorem buyRow_moved {request : DecisionRequest} {prepared : PreparedDecision} (account : Account)
    (requestHash : String) (resolved : ResolvedOpportunity) (now : Instant)
    (passive : request = .pass → prepared.quote = none)
    (recorded : row = buyRow account requestHash request resolved prepared (settleBuy account request prepared now) now) :
    row.orderSide = some .buy ∧ row.cashAfter = row.cashBefore - (row.notional + row.fee) ∨
      row.orderSide = some .sell ∧ row.cashAfter = row.cashBefore + (row.notional - row.fee) ∨
      row.orderSide = none ∧ row.cashAfter = row.cashBefore := by
  subst recorded
  cases request with
  | pass =>
    obtain ⟨notional, fee⟩ := settleBuy_pass account (passive rfl) now
    refine Or.inr (Or.inr ⟨rfl, ?_⟩)
    simp [buyRow, notional, fee]
  | execute terms timeInForce =>
    refine Or.inl ⟨rfl, ?_⟩
    simp only [buyRow]
    omega

theorem kept_commitPrepared {names : RowNames} {accountId decisionId requestHash : String}
    {request : DecisionRequest} {resolved : ResolvedOpportunity} {prepared : PreparedDecision} {now : Instant}
    (kept : ledger.Kept) (passive : request = .pass → prepared.quote = none)
    (committed : ledger.commitPrepared names accountId decisionId requestHash request resolved prepared now =
      .ok (next, row)) : next.Kept := by
  rcases commitPrepared_ok committed with ⟨rfl, -, -⟩ | ⟨settlement, absent, positioned, rfl, rfl, opened, ordered⟩
  · exact kept
  have affordable := settleBuy_affordable kept.bounded.2 request prepared now
  have nonneg := reservation_nonneg request (settleBuy ledger.account request prepared now)
  have reserved := kept.bounded.1
  -- the position leaves the other tables alone
  have others : ∃ positions, positioned = { ledger with
      account := { ledger.account with
        cashBalance := (buyRow ledger.account requestHash request resolved prepared
          (settleBuy ledger.account request prepared now) now).cashAfter
        reservedCash := ledger.account.reservedCash +
          reservation request (settleBuy ledger.account request prepared now)
        journalSequence := ledger.account.journalSequence + 1
        updatedAt := now }
      decisions := ledger.decisions.add decisionId (buyRow ledger.account requestHash request resolved prepared
        (settleBuy ledger.account request prepared now) now) absent
      positions := positions } := by
    rcases withPosition_ok opened with rfl | ⟨position, free, -, -, -, -, -, -, -, rfl⟩
    · exact ⟨ledger.positions, rfl⟩
    · exact ⟨_, rfl⟩
  obtain ⟨positions, rfl⟩ := others
  have moved := buyRow_moved ledger.account requestHash resolved now passive rfl
  rcases withOrder_ok ordered with ⟨rfl, unreserved⟩ | ⟨order, events, free, amount, product, rfl⟩
  · refine kept.record absent rfl rfl rfl rfl rfl rfl moved rfl (Or.inl ⟨rfl, ?_⟩) ⟨?_, ?_⟩
    · simp only [unreserved]
      omega
    · simp only
      omega
    · simp only [buyRow]
      omega
  · refine kept.record absent rfl rfl rfl rfl rfl rfl moved rfl
      (Or.inr ⟨_, order, free, rfl, product, ?_⟩) ⟨?_, ?_⟩
    · simp only [amount]
    · simp only
      omega
    · simp only [buyRow]
      omega

theorem kept_commitExit {decisionId positionId requestHash : String} {terms : OrderTerms}
    {resolved : ResolvedOpportunity} {prepared : PreparedDecision} {now : Instant}
    (kept : ledger.Kept)
    (committed : ledger.commitExit decisionId positionId requestHash terms resolved prepared now = .ok (next, row)) :
    next.Kept := by
  rcases commitExit_ok committed with ⟨rfl, -, -⟩ | ⟨position, settlement, absent, -, -, -, rfl, rfl⟩
  · exact kept
  have bounded := kept.bounded
  have fee := settlement.fee_le
  refine kept.record absent rfl rfl rfl rfl rfl rfl (Or.inr (Or.inl ⟨rfl, ?_⟩)) rfl (Or.inl ⟨rfl, rfl⟩)
    ⟨bounded.1, ?_⟩
  · simp only [sellRow]
    omega
  · simp only [sellRow]
    omega

theorem kept_cancelOrder {orderId cancellationId : String} {now : Instant}
    {cancellation : Cancellation} (kept : ledger.Kept)
    (cancelled : ledger.cancelOrder orderId cancellationId now = .ok (next, cancellation)) : next.Kept := by
  rcases cancelOrder_ok cancelled with rfl | ⟨order, events, absent, found, working, covered, positive, target, rfl⟩
  · exact kept
  have bounded := kept.bounded
  refine ⟨⟨kept.cash, ?_, kept.reservations, ⟨?_, ?_⟩, kept.journal, kept.sequences, kept.chained⟩, kept.latest, ?_⟩
  · -- one more order is cancelled, and its reservation is released
    have others : ∀ other (held : Order), other ≠ orderId →
        (if ledger.IsCancelled other then (0 : ℤ) else held.reservedCash) =
          if IsCancelled { ledger with
              account := { ledger.account with
                reservedCash := ledger.account.reservedCash - order.reservedCash
                updatedAt := now }
              cancellations := ledger.cancellations.add cancellationId cancellation absent
              orderEvents := events } other then 0 else held.reservedCash := by
      intro other held different
      have same : IsCancelled { ledger with
          account := { ledger.account with
            reservedCash := ledger.account.reservedCash - order.reservedCash
            updatedAt := now }
          cancellations := ledger.cancellations.add cancellationId cancellation absent
          orderEvents := events } other ↔ ledger.IsCancelled other := by
        simp only [IsCancelled, Dict.values_add, List.mem_append, List.mem_singleton]
        constructor
        · rintro ⟨found, old | rfl, hit⟩
          · exact ⟨found, old, hit⟩
          · exact absurd (hit.symm.trans target) different
        · rintro ⟨found, old, hit⟩
          exact ⟨found, Or.inl old, hit⟩
      simp only [same]
    have released : IsCancelled { ledger with
        account := { ledger.account with
          reservedCash := ledger.account.reservedCash - order.reservedCash
          updatedAt := now }
        cancellations := ledger.cancellations.add cancellationId cancellation absent
        orderEvents := events } orderId := by
      refine ⟨cancellation, ?_, target⟩
      simp
    have total := Dict.sumEntries_reweigh found others
    simp only [if_pos released, if_neg working] at total
    have before := kept.reserved
    unfold outstanding at before ⊢
    simp only
    omega
  · simp only
    omega
  · simp only
    omega
  · intro other member
    rw [Dict.values_add] at member
    rcases List.mem_append.1 member with old | new
    · exact kept.known other old
    · rw [List.mem_singleton.1 new, target, found]
      rfl

end Ledger

namespace Store

theorem preserved_kept (names : RowNames) : Preserved names Ledger.Kept where
  create _ _ now nonneg := Ledger.kept_create nonneg now
  commitPrepared := Ledger.kept_commitPrepared
  commitExit := Ledger.kept_commitExit
  cancelOrder := Ledger.kept_cancelOrder

/-- Whatever transactions the service commits, in whatever order, every account stays balanced. -/
theorem balanced_run (names : RowNames) (transactions : List Transaction) :
    (run (step names) Dict.empty transactions).All fun _ ledger => ledger.Balanced :=
  fun entry member => (all_run (preserved_kept names) transactions entry member).toBalanced

end Store

end Callisto.Paper
