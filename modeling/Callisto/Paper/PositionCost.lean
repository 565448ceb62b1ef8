import Callisto.Paper.CommitCases

/-! How the opening cost of a position is shared out over its exits. -/

namespace Callisto.Paper

open Callisto.Library Callisto.Library.Runs

def soldOf (exits : List Decision) : ℤ := (exits.map Decision.filledQuantity).sum

def allocatedOf (exits : List Decision) : ℤ := (exits.map fun decision => decision.positionCostBasis.getD 0).sum

def proceedsOf (exits : List Decision) : ℤ := (exits.map fun decision => decision.notional - decision.fee).sum

def realizedOf (exits : List Decision) : ℤ := (exits.map fun decision => decision.realizedPnl.getD 0).sum

structure PositionReport where
  soldQuantity : ℤ
  remainingQuantity : ℤ
  exitNotional : ℤ
  exitFee : ℤ
  allocatedEntryCost : ℤ
  realizedPnl : ℤ
  isClosed : Bool
  closable : Bool

def serializePosition (position : Position) (exits : List Decision) : PositionReport where
  soldQuantity := soldOf exits
  remainingQuantity := position.entryQuantity - soldOf exits
  exitNotional := (exits.map Decision.notional).sum
  exitFee := (exits.map Decision.fee).sum
  allocatedEntryCost := allocatedOf exits
  realizedPnl := realizedOf exits
  isClosed := position.entryQuantity - soldOf exits = 0
  closable := 0 < position.entryQuantity - soldOf exits

namespace Position

theorem cost_nonneg (position : Position) : 0 ≤ position.cost := by
  have notional := position.notional_nonneg
  have fee := position.fee_nonneg
  unfold cost
  omega

theorem costOf_zero (position : Position) : position.costOf 0 = 0 := by
  have positive := position.quantity_pos
  have open_ : ¬ (0 : ℤ) = position.entryQuantity := by omega
  simp [costOf, open_]

theorem costOf_mono (position : Position) {sold more : ℤ} (grows : sold ≤ more)
    (covered : more ≤ position.entryQuantity) : position.costOf sold ≤ position.costOf more := by
  have positive := position.quantity_pos
  have cost := position.cost_nonneg
  unfold costOf
  split_ifs with all allMore allMore
  · exact le_rfl
  · omega
  · -- a cut-off share is at most the whole
    have product : position.cost * sold ≤ position.cost * position.entryQuantity :=
      mul_le_mul_of_nonneg_left (by omega) cost
    exact Int.ediv_le_of_le_mul positive product
  · exact Int.ediv_le_ediv positive (mul_le_mul_of_nonneg_left grows cost)

/-- The exits of a position share out its cost: after each of them the shares allocated so far are the
cut-off share of the quantity sold so far, and all of the cost once everything is sold. -/
structure Costed (position : Position) (exits : List Decision) : Prop where
  sold : ∀ first, first <+: exits → 0 ≤ soldOf first ∧ soldOf first ≤ position.entryQuantity
  allocated : ∀ first, first <+: exits → allocatedOf first =
    if soldOf first = position.entryQuantity then position.cost
    else position.cost * soldOf first / position.entryQuantity
  realized : ∀ exit ∈ exits, ∃ basis, exit.positionCostBasis = some basis ∧ 0 ≤ basis ∧
    exit.realizedPnl = some (exit.notional - exit.fee - basis)
  closed : (serializePosition position exits).isClosed →
    realizedOf exits = proceedsOf exits - (position.entryNotional + position.entryFee)

theorem realizedOf_eq {exits : List Decision} (realized : ∀ exit ∈ exits, ∃ basis,
    exit.positionCostBasis = some basis ∧ 0 ≤ basis ∧ exit.realizedPnl = some (exit.notional - exit.fee - basis)) :
    realizedOf exits = proceedsOf exits - allocatedOf exits := by
  induction exits with
  | nil => rfl
  | cons exit rest ih =>
    obtain ⟨basis, cost, -, pnl⟩ := realized exit List.mem_cons_self
    have tail := ih fun other member => realized other (List.mem_cons_of_mem _ member)
    unfold realizedOf proceedsOf allocatedOf at tail ⊢
    simp only [List.map_cons, List.sum_cons, cost, pnl, Option.getD_some]
    omega

theorem costed_nil (position : Position) : position.Costed [] where
  sold first isPrefix := by
    rw [List.prefix_nil.1 isPrefix]
    exact ⟨le_rfl, position.quantity_pos.le⟩
  allocated first isPrefix := by
    rw [List.prefix_nil.1 isPrefix]
    exact position.costOf_zero.symm
  realized exit member := by cases member
  closed empty := by
    have positive := position.quantity_pos
    simp only [serializePosition, soldOf, List.map_nil, List.sum_nil, decide_eq_true_eq] at empty
    omega

theorem Costed.exit {position : Position} {exits : List Decision} (costed : position.Costed exits) {row : Decision}
    (filled : 0 ≤ row.filledQuantity) (covered : soldOf exits + row.filledQuantity ≤ position.entryQuantity)
    (basis : row.positionCostBasis =
      some (position.costOf (soldOf exits + row.filledQuantity) - allocatedOf exits))
    (pnl : row.realizedPnl = some (row.notional - row.fee -
      (position.costOf (soldOf exits + row.filledQuantity) - allocatedOf exits))) :
    position.Costed (exits ++ [row]) := by
  have before := costed.sold exits (List.prefix_refl _)
  have share : allocatedOf exits = position.costOf (soldOf exits) := costed.allocated exits (List.prefix_refl _)
  have soldAfter : soldOf (exits ++ [row]) = soldOf exits + row.filledQuantity := by simp [soldOf]
  have allocatedAfter : allocatedOf (exits ++ [row]) = position.costOf (soldOf exits + row.filledQuantity) := by
    simp only [allocatedOf, List.map_append, List.sum_append, List.map_cons, List.map_nil, List.sum_cons,
      List.sum_nil, basis, Option.getD_some]
    omega
  have realized : ∀ exit ∈ exits ++ [row], ∃ basis, exit.positionCostBasis = some basis ∧ 0 ≤ basis ∧
      exit.realizedPnl = some (exit.notional - exit.fee - basis) := by
    intro exit member
    rcases List.mem_append.1 member with old | new
    · exact costed.realized exit old
    · rw [List.mem_singleton.1 new]
      have grows := position.costOf_mono (show soldOf exits ≤ soldOf exits + row.filledQuantity by omega) covered
      exact ⟨_, basis, by omega, pnl⟩
  constructor
  · intro first isPrefix
    rcases List.prefix_concat_iff.1 isPrefix with rfl | old
    · rw [soldAfter]
      omega
    · exact costed.sold first old
  · intro first isPrefix
    rcases List.prefix_concat_iff.1 isPrefix with rfl | old
    · rw [allocatedAfter, soldAfter]
      rfl
    · exact costed.allocated first old
  · exact realized
  · intro all
    simp only [serializePosition, decide_eq_true_eq] at all
    have whole : soldOf exits + row.filledQuantity = position.entryQuantity := by omega
    rw [realizedOf_eq realized, allocatedAfter, costOf, if_pos whole]
    rfl

end Position

namespace Ledger

variable {ledger next : Ledger}

/-- Every exit belongs to a position of the account, and every position is costed. -/
structure Costed (ledger : Ledger) : Prop where
  owned : ∀ decision ∈ ledger.decisions.values, decision.orderSide = some .sell →
    ∃ positionId, decision.positionId = some positionId ∧ (ledger.positions.get? positionId).isSome
  positions : ∀ positionId position, ledger.positions.get? positionId = some position →
    position.Costed (ledger.exits positionId)

variable {row : Decision}

theorem exits_of_recorded
    (values : next.decisions.values = ledger.decisions.values ++ [row]) (positionId : String) :
    next.exits positionId = ledger.exits positionId ++
      if row.positionId = some positionId ∧ row.orderSide = some .sell then [row] else [] := by
  unfold exits
  rw [values, List.filter_append]
  by_cases own : row.positionId = some positionId ∧ row.orderSide = some .sell
  · simp [own]
  · rw [if_neg own, List.filter_singleton]
    simp [own]

theorem Costed.exits_nil {ledger : Ledger} (costed : ledger.Costed) {positionId : String}
    (absent : ledger.positions.get? positionId = none) : ledger.exits positionId = [] := by
  unfold exits
  rw [List.filter_eq_nil_iff]
  intro decision member own
  simp only [decide_eq_true_eq] at own
  obtain ⟨other, named, present⟩ := costed.owned decision member own.2
  rw [own.1] at named
  cases named
  rw [absent] at present
  cases present

theorem costed_create (name : String) (startingCash : ℤ) (now : Instant) : (create name startingCash now).Costed where
  owned decision member := by cases member
  positions positionId position held := by cases held

theorem Costed.of_entry (costed : ledger.Costed)
    (values : next.decisions.values = ledger.decisions.values ++ [row]) (entry : row.orderSide ≠ some .sell)
    (positions : next.positions = ledger.positions ∨ ∃ (positionId : String) (position : Position)
      (absent : ledger.positions.get? positionId = none),
      next.positions = ledger.positions.add positionId position absent) : next.Costed := by
  have same : ∀ positionId, next.exits positionId = ledger.exits positionId := by
    intro positionId
    rw [exits_of_recorded values, if_neg fun own => entry own.2, List.append_nil]
  have kept : ∀ positionId, (ledger.positions.get? positionId).isSome → (next.positions.get? positionId).isSome := by
    intro positionId present
    rcases positions with unchanged | ⟨other, position, absent, added⟩
    · rw [unchanged]
      exact present
    · rw [added, Dict.get?_add]
      split_ifs
      · rfl
      · exact present
  constructor
  · intro decision member side
    rw [values] at member
    rcases List.mem_append.1 member with old | new
    · obtain ⟨positionId, named, present⟩ := costed.owned decision old side
      exact ⟨positionId, named, kept positionId present⟩
    · rw [List.mem_singleton.1 new] at side
      exact absurd side entry
  · intro positionId position held
    rw [same]
    rcases positions with unchanged | ⟨other, opened, absent, added⟩
    · rw [unchanged] at held
      exact costed.positions positionId position held
    · rw [added, Dict.get?_add] at held
      split_ifs at held with own
      · cases held
        rw [← own, costed.exits_nil absent]
        exact position.costed_nil
      · exact costed.positions positionId position held

theorem costed_commitPrepared {names : RowNames} {accountId decisionId requestHash : String}
    {request : DecisionRequest} {resolved : ResolvedOpportunity} {prepared : PreparedDecision} {now : Instant}
    (costed : ledger.Costed)
    (committed : ledger.commitPrepared names accountId decisionId requestHash request resolved prepared now =
      .ok (next, row)) : next.Costed := by
  rcases commitPrepared_ok committed with ⟨rfl, -, -⟩ | ⟨settlement, absent, positioned, -, recorded, opened, ordered⟩
  · exact costed
  have entry : row.orderSide ≠ some .sell := by
    rw [recorded]
    cases request <;> simp [buyRow, DecisionRequest.action]
  have unordered : next.decisions = positioned.decisions ∧ next.positions = positioned.positions := by
    rcases withOrder_ok ordered with ⟨rfl, -⟩ | ⟨order, events, free, -, -, rfl⟩
    · exact ⟨rfl, rfl⟩
    · exact ⟨rfl, rfl⟩
  rcases withPosition_ok opened with rfl | ⟨position, free, -, -, -, -, -, -, -, rfl⟩
  · refine costed.of_entry ?_ entry (Or.inl unordered.2)
    rw [unordered.1, Dict.values_add]
  · refine costed.of_entry ?_ entry (Or.inr ⟨_, position, free, unordered.2⟩)
    rw [unordered.1, Dict.values_add]

theorem costed_commitExit {decisionId positionId requestHash : String} {terms : OrderTerms}
    {resolved : ResolvedOpportunity} {prepared : PreparedDecision} {now : Instant}
    (costed : ledger.Costed)
    (committed : ledger.commitExit decisionId positionId requestHash terms resolved prepared now = .ok (next, row)) :
    next.Costed := by
  rcases commitExit_ok committed with ⟨rfl, -, -⟩ | ⟨position, settlement, absent, held, -, covered, recorded, after⟩
  · exact costed
  have values : next.decisions.values = ledger.decisions.values ++ [row] := by rw [after, Dict.values_add]
  have positions : next.positions = ledger.positions := by rw [after]
  have own : row.positionId = some positionId ∧ row.orderSide = some .sell := by
    rw [recorded]
    exact ⟨rfl, rfl⟩
  constructor
  · intro decision member side
    rw [positions]
    rw [values] at member
    rcases List.mem_append.1 member with old | new
    · exact costed.owned decision old side
    · rw [List.mem_singleton.1 new]
      exact ⟨positionId, own.1, by rw [held]; rfl⟩
  · intro other opened found
    rw [positions] at found
    rw [exits_of_recorded values]
    by_cases same : positionId = other
    · subst same
      rw [held] at found
      cases found
      rw [if_pos own]
      apply (costed.positions positionId position held).exit
      · rw [recorded]
        exact settlement.filled_nonneg
      · rw [recorded]
        exact covered
      · rw [recorded]
        rfl
      · rw [recorded]
        rfl
    · have foreign : ¬ (row.positionId = some other ∧ row.orderSide = some .sell) := by
        rintro ⟨named, -⟩
        rw [own.1] at named
        exact same (Option.some.inj named)
      rw [if_neg foreign, List.append_nil]
      exact costed.positions other opened found

theorem costed_cancelOrder {orderId cancellationId : String} {now : Instant}
    {cancellation : Cancellation} (costed : ledger.Costed)
    (cancelled : ledger.cancelOrder orderId cancellationId now = .ok (next, cancellation)) : next.Costed := by
  rcases cancelOrder_ok cancelled with rfl | ⟨order, events, absent, -, -, -, -, -, rfl⟩
  · exact costed
  · exact ⟨costed.owned, costed.positions⟩

end Ledger

namespace Store

theorem preserved_costed (names : RowNames) : Preserved names Ledger.Costed where
  create name startingCash now _ := Ledger.costed_create name startingCash now
  commitPrepared costed _ committed := Ledger.costed_commitPrepared costed committed
  commitExit := Ledger.costed_commitExit
  cancelOrder := Ledger.costed_cancelOrder

/-- Whatever transactions the service commits, the exits of every position share out its cost. -/
theorem costed_run (names : RowNames) (transactions : List Transaction) :
    (run (step names) Dict.empty transactions).All fun _ ledger =>
      ledger.positions.All fun positionId position => position.Costed (ledger.exits positionId) := by
  rintro ⟨accountId, ledger⟩ member ⟨positionId, position⟩ opened
  have held := (Dict.find_eq_some_iff ledger.positions.nodup).2 opened
  exact (all_run (preserved_costed names) transactions (accountId, ledger) member).positions positionId position held

end Store

end Callisto.Paper
