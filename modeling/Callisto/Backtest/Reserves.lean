import Callisto.Backtest.Engine
import Callisto.Backtest.MatchingAudit

/-! What a buy that is still live can cost, and that the fills of an advance cost no more than what the
buys hold back for them. -/

namespace Callisto.Backtest

open Callisto.Library

def Fill.outlay (fill : Fill) : ℚ :=
  match fill.side with
  | .buy => max 0 fill.notionalUsd
  | .sell => 0

def Fill.charge (fill : Fill) : ℚ :=
  match fill.side with
  | .buy => max 0 fill.feeUsd
  | .sell => 0

theorem Fill.outlay_nonneg (fill : Fill) : 0 ≤ fill.outlay := by
  unfold Fill.outlay
  cases fill.side with
  | buy => exact le_max_left _ _
  | sell => exact le_rfl

theorem Fill.charge_nonneg (fill : Fill) : 0 ≤ fill.charge := by
  unfold Fill.charge
  cases fill.side with
  | buy => exact le_max_left _ _
  | sell => exact le_rfl

def NewOrder.asked (order : NewOrder) : ℚ :=
  match order.side with
  | .buy => max 0 (order.price * order.size)
  | .sell => 0

def NewOrder.askedFees (budget : String → ℚ) (order : NewOrder) : ℚ :=
  match order.side with
  | .buy => max 0 (budget order.orderId)
  | .sell => 0

namespace BacktestOrder

variable {order old new : BacktestOrder} {ordered : Prop} {own : List Fill} {budget : String → ℚ}

def openNotional (order : BacktestOrder) : ℚ :=
  match order.side with
  | .buy => max 0 order.price * order.remainingSize
  | .sell => 0

def charged (order : BacktestOrder) : ℚ := (order.fills.map Fill.charge).sum

def openFees (budget : String → ℚ) (order : BacktestOrder) : ℚ :=
  match order.side with
  | .buy => max 0 (budget order.orderId - order.charged)
  | .sell => 0

def exposureReserve (order : BacktestOrder) : ℚ := if order.IsTerminal then 0 else order.openNotional

/-- The cash that a live order can still take: price times size, and fees. -/
def cashReserve (budget : String → ℚ) (order : BacktestOrder) : ℚ :=
  if order.IsTerminal then 0 else order.openNotional + order.openFees budget

theorem openNotional_nonneg (order : BacktestOrder) : 0 ≤ order.openNotional := by
  unfold openNotional
  cases order.side with
  | buy => exact mul_nonneg (le_max_left _ _) (le_max_left _ _)
  | sell => exact le_rfl

theorem openFees_nonneg (budget : String → ℚ) (order : BacktestOrder) : 0 ≤ order.openFees budget := by
  unfold openFees
  cases order.side with
  | buy => exact le_max_left _ _
  | sell => exact le_rfl

theorem exposureReserve_nonneg (order : BacktestOrder) : 0 ≤ order.exposureReserve := by
  unfold exposureReserve
  split_ifs
  · exact le_rfl
  · exact order.openNotional_nonneg

theorem cashReserve_nonneg (budget : String → ℚ) (order : BacktestOrder) : 0 ≤ order.cashReserve budget := by
  unfold cashReserve
  split_ifs
  · exact le_rfl
  · exact add_nonneg order.openNotional_nonneg (order.openFees_nonneg budget)

theorem Accounted.remaining (accounted : order.Accounted ordered) (sized : 0 < order.size) :
    order.remainingSize = order.size - order.filledSize := by
  have within : order.filledSize ≤ order.size := by
    have bound := accounted.bounded
    rwa [max_eq_right sized.le] at bound
  unfold remainingSize
  exact max_eq_right (sub_nonneg.2 within)

theorem Accounted.outlay_le (before : old.Accounted ordered) (after : new.Accounted ordered) (live : ¬ old.IsTerminal)
    (terms : new.toNewOrder = old.toNewOrder) (fills : new.fills = old.fills ++ own)
    (within : ∀ fill ∈ own, old.side = .buy → fill.price ≤ old.price) :
    (own.map Fill.outlay).sum + new.openNotional ≤ old.openNotional := by
  have side : new.side = old.side := congrArg NewOrder.side terms
  have price : new.price = old.price := congrArg NewOrder.price terms
  have size : new.size = old.size := congrArg NewOrder.size terms
  have sides : ∀ fill ∈ own, fill.side = old.side := by
    intro fill member
    rw [← side]
    exact (after.own fill (by rw [fills]; exact List.mem_append_right _ member)).side
  have sized : 0 < old.size := before.sized.resolve_left fun rejected => live (Or.inr (Or.inr rejected))
  have filled : new.filledSize = old.filledSize + (own.map Fill.size).sum := by
    rw [after.filled, before.filled, fills, List.map_append, List.sum_append]
  unfold openNotional
  rw [side]
  cases towards : old.side with
  | sell =>
    have free : (own.map Fill.outlay).sum = 0 := by
      apply List.sum_eq_zero
      intro amount member
      obtain ⟨fill, held, rfl⟩ := List.mem_map.1 member
      have selling : fill.side = .sell := (sides fill held).trans towards
      simp only [Fill.outlay, selling]
    simp only [free]
    norm_num
  | buy =>
    have each : (own.map Fill.outlay).sum ≤ (own.map fun fill => max 0 old.price * fill.size).sum := by
      apply List.sum_le_sum
      intro fill member
      have buying : fill.side = .buy := (sides fill member).trans towards
      have positive : 0 < fill.size := (after.own fill (by rw [fills]; exact List.mem_append_right _ member)).positive
      have bounded : fill.price ≤ max 0 old.price := (within fill member towards).trans (le_max_right _ _)
      simp only [Fill.outlay, buying, Fill.notionalUsd]
      exact max_le (mul_nonneg (le_max_left _ _) positive.le) (mul_le_mul_of_nonneg_right bounded positive.le)
    have total : (own.map fun fill => max 0 old.price * fill.size).sum = max 0 old.price * (own.map Fill.size).sum := by
      rw [← List.sum_map_mul_left]
    simp only [price]
    rw [before.remaining sized, after.remaining (by rw [size]; exact sized), size, filled]
    calc (own.map Fill.outlay).sum + max 0 old.price * (old.size - (old.filledSize + (own.map Fill.size).sum))
        ≤ max 0 old.price * (own.map Fill.size).sum + max 0 old.price * (old.size - (old.filledSize + (own.map Fill.size).sum)) := by
          rw [← total]
          exact add_le_add_left each _
      _ = max 0 old.price * (old.size - old.filledSize) := by ring

theorem charges_le (after : new.Accounted ordered) (terms : new.toNewOrder = old.toNewOrder) (fills : new.fills = old.fills ++ own)
    (within : new.side = .buy → new.charged ≤ budget new.orderId) :
    (own.map Fill.charge).sum + new.openFees budget ≤ old.openFees budget := by
  have side : new.side = old.side := congrArg NewOrder.side terms
  have named : new.orderId = old.orderId := congrArg NewOrder.orderId terms
  have total : new.charged = old.charged + (own.map Fill.charge).sum := by
    rw [charged, charged, fills, List.map_append, List.sum_append]
  unfold openFees
  rw [side]
  cases towards : old.side with
  | sell =>
    have free : (own.map Fill.charge).sum = 0 := by
      apply List.sum_eq_zero
      intro amount member
      obtain ⟨fill, held, rfl⟩ := List.mem_map.1 member
      have selling : fill.side = .sell :=
        (after.own fill (by rw [fills]; exact List.mem_append_right _ held)).side.trans (side.trans towards)
      simp only [Fill.charge, selling]
    rw [free, zero_add]
  | buy =>
    dsimp only
    rw [max_eq_right (sub_nonneg.2 (within (side.trans towards))), total, named]
    calc (own.map Fill.charge).sum + (budget old.orderId - (old.charged + (own.map Fill.charge).sum))
        = budget old.orderId - old.charged := by ring
      _ ≤ max 0 (budget old.orderId - old.charged) := le_max_right _ _

theorem Accounted.exposure_le (before : old.Accounted ordered) (after : new.Accounted ordered) (live : ¬ old.IsTerminal)
    (terms : new.toNewOrder = old.toNewOrder) (fills : new.fills = old.fills ++ own)
    (within : ∀ fill ∈ own, old.side = .buy → fill.price ≤ old.price) :
    new.exposureReserve + (own.map Fill.outlay).sum ≤ old.exposureReserve := by
  have spent := before.outlay_le after live terms fills within
  unfold exposureReserve
  rw [if_neg live]
  split_ifs
  · linarith [new.openNotional_nonneg]
  · linarith

theorem Accounted.cash_le (before : old.Accounted ordered) (after : new.Accounted ordered) (live : ¬ old.IsTerminal)
    (terms : new.toNewOrder = old.toNewOrder) (fills : new.fills = old.fills ++ own)
    (within : ∀ fill ∈ own, old.side = .buy → fill.price ≤ old.price) (covered : new.side = .buy → new.charged ≤ budget new.orderId) :
    new.cashReserve budget + (own.map fun fill => fill.outlay + fill.charge).sum ≤ old.cashReserve budget := by
  have spent := before.outlay_le after live terms fills within
  have charges := charges_le after terms fills covered
  have split : (own.map fun fill => fill.outlay + fill.charge).sum = (own.map Fill.outlay).sum + (own.map Fill.charge).sum :=
    List.sum_map_add
  unfold cashReserve
  rw [if_neg live, split]
  split_ifs
  · linarith [new.openNotional_nonneg, new.openFees_nonneg budget]
  · linarith

end BacktestOrder

namespace MatchingEngine

variable {config : MatchingConfig} {engine next : MatchingEngine} {snapshot : BookSnapshot} {fills : List Fill} {budget : String → ℚ}

def cashReserved (budget : String → ℚ) (engine : MatchingEngine) : ℚ := engine.orders.sumBy (BacktestOrder.cashReserve budget)

def exposureReserved (engine : MatchingEngine) : ℚ := engine.orders.sumBy BacktestOrder.exposureReserve

def WithinLimits (engine : MatchingEngine) (fills : List Fill) : Prop :=
  ∀ fill ∈ fills, ∀ order ∈ engine.orders.get? fill.orderId, order.side = .buy → fill.price ≤ order.price

/-- The fees of the buys on record are within what is set aside for them. -/
def WithinBudgets (budget : String → ℚ) (engine : MatchingEngine) : Prop :=
  engine.orders.All fun _ order => order.side = .buy → order.charged ≤ budget order.orderId

instance (engine : MatchingEngine) (fills : List Fill) : Decidable (engine.WithinLimits fills) := by
  unfold WithinLimits
  infer_instance

instance (budget : String → ℚ) (engine : MatchingEngine) : Decidable (engine.WithinBudgets budget) := by
  unfold WithinBudgets Dict.All
  infer_instance

theorem Audited.reserves_le {reserve : BacktestOrder → ℚ} {cost : Fill → ℚ} (audited : engine.Audited False engine.allFills)
    (done : engine.advanceTo config snapshot = .ok (next, fills))
    (each : ∀ id old new own, engine.orders.get? id = some old → next.orders.get? id = some new → ¬ old.IsTerminal →
      old.Accounted False → new.Accounted False → new.toNewOrder = old.toNewOrder → new.fills = old.fills ++ own →
        (∀ fill ∈ own, fill ∈ fills ∧ fill.orderId = id) → reserve new + (own.map cost).sum ≤ reserve old) :
    next.orders.sumBy reserve + (fills.map cost).sum ≤ engine.orders.sumBy reserve := by
  obtain ⟨auditedNext, keeps, lasts, ledger⟩ := audited.advanceTo False.elim False.elim done
  obtain ⟨-, -, same⟩ := advanceTo_phases done
  have waits := (@Audited.matchedAt False engine engine.allFills snapshot audited False.elim config False.elim).waits
  have known : ∀ fill ∈ fills, ∃ order, next.orders.get? fill.orderId = some order := by
    intro fill member
    apply auditedNext.known
    rw [ledger]
    exact List.mem_append_right _ member
  have grouped := Dict.sumBy_filter auditedNext.keyed cost known
  rw [← grouped, ← Dict.sumBy_add]
  apply Dict.sumBy_le
  · intro id
    rw [Bool.eq_iff_iff, Option.isSome_iff_exists, Option.isSome_iff_exists]
    constructor
    · rintro ⟨new, found⟩
      rw [same] at found
      obtain ⟨old, before, -⟩ := waits id new found
      exact ⟨old, before⟩
    · rintro ⟨old, found⟩
      obtain ⟨new, after, -⟩ := lasts id old found
      exact ⟨new, after⟩
  · intro id new old foundNew foundOld
    have named := auditedNext.keyed id new foundNew
    have record : new.fills = old.fills ++ fills.filter fun fill => fill.orderId = id := by
      rw [auditedNext.onRecord id new foundNew, ledger, List.filter_append, ← audited.onRecord id old foundOld]
    rw [named]
    by_cases terminal : old.IsTerminal
    · have stays := keeps id old foundOld terminal
      rw [foundNew] at stays
      cases stays
      have nothing : (fills.filter fun fill => fill.orderId = id) = [] := List.self_eq_append_right.1 record
      rw [nothing, List.map_nil, List.sum_nil, add_zero]
    · obtain ⟨other, foundOther, terms⟩ := lasts id old foundOld
      rw [foundNew] at foundOther
      cases foundOther
      apply each id old new _ foundOld foundNew terminal (audited.accounts id old foundOld) (auditedNext.accounts id new foundNew) terms record
      intro fill member
      obtain ⟨made, own⟩ := List.mem_filter.1 member
      exact ⟨made, of_decide_eq_true own⟩

theorem Audited.exposureReserved_le (audited : engine.Audited False engine.allFills)
    (done : engine.advanceTo config snapshot = .ok (next, fills)) (within : next.WithinLimits fills) :
    next.exposureReserved + (fills.map Fill.outlay).sum ≤ engine.exposureReserved := by
  apply audited.reserves_le done
  intro id old new own foundOld foundNew live before after terms record made
  apply before.exposure_le after live terms record
  intro fill member buys
  obtain ⟨held, own⟩ := made fill member
  have bound := within fill held new (by rw [own]; exact foundNew)
  rw [congrArg NewOrder.side terms, congrArg NewOrder.price terms] at bound
  exact bound buys

theorem Audited.cashReserved_le (audited : engine.Audited False engine.allFills)
    (done : engine.advanceTo config snapshot = .ok (next, fills)) (within : next.WithinLimits fills) (covered : next.WithinBudgets budget) :
    next.cashReserved budget + (fills.map fun fill => fill.outlay + fill.charge).sum ≤ engine.cashReserved budget := by
  apply audited.reserves_le done
  intro id old new own foundOld foundNew live before after terms record made
  have paid : new.side = .buy → new.charged ≤ budget new.orderId := covered (id, new) (Dict.mem_of_find foundNew)
  apply before.cash_le after live terms record _ paid
  intro fill member buys
  obtain ⟨held, own⟩ := made fill member
  have bound := within fill held new (by rw [own]; exact foundNew)
  rw [congrArg NewOrder.side terms, congrArg NewOrder.price terms] at bound
  exact bound buys

variable {order : NewOrder}

/-- An order that comes up is rejected, or waits unfilled at a price that the venue may have lowered for it. -/
theorem submit_entry {latency : Instant} (done : engine.submit config order latency = .ok next) :
    ∃ entry : BacktestOrder, engine.orders.get? order.orderId = none ∧ next.orders = engine.orders.set order.orderId entry ∧
      (entry.IsTerminal ∨ ∃ price, entry.toNewOrder = { order with price := price } ∧
        (config.rules.roundPrice order.price order.side ≤ order.price → price ≤ order.price) ∧ 0 < order.size ∧ entry.fills = [] ∧
          entry.filledSize = 0) := by
  obtain ⟨absent, ⟨reason, rfl⟩ | ⟨adjusted, verdict, rfl⟩⟩ := MatchingEngine.submit_spec done
  · exact ⟨_, absent, rfl, Or.inl (Or.inr (Or.inr rfl))⟩
  · refine ⟨_, absent, rfl, Or.inr ⟨adjusted.getD order.price, rfl, ?_, MatchingEngine.size_pos_of_valid verdict, rfl, rfl⟩⟩
    intro lowered
    unfold OrderRule.validateSubmit at verdict
    dsimp only at verdict
    split_ifs at verdict
    · cases verdict
      exact lowered
    · cases verdict
      exact le_rfl

theorem submit_sumBy {reserve : BacktestOrder → ℚ} {latency : Instant} {bound : ℚ}
    (done : engine.submit config order latency = .ok next) (nothing : ∀ entry : BacktestOrder, entry.IsTerminal → reserve entry = 0)
    (some_ : 0 ≤ bound)
    (fresh : ∀ (entry : BacktestOrder) (price : ℚ), entry.toNewOrder = { order with price := price } →
      (config.rules.roundPrice order.price order.side ≤ order.price → price ≤ order.price) → 0 < order.size → entry.fills = [] →
        entry.filledSize = 0 → reserve entry ≤ bound) :
    next.orders.sumBy reserve ≤ engine.orders.sumBy reserve + bound := by
  obtain ⟨entry, absent, placed, ended | ⟨price, terms, lowered, sized, unfilled, untouched⟩⟩ := submit_entry done
  · rw [placed, Dict.sumBy_set, absent, nothing entry ended]
    simp only [Option.elim_none]
    linarith
  · have most := fresh entry price terms lowered sized unfilled untouched
    rw [placed, Dict.sumBy_set, absent]
    simp only [Option.elim_none]
    linarith

theorem openNotional_le_asked {entry : BacktestOrder} {price : ℚ} (terms : entry.toNewOrder = { order with price := price })
    (lowered : order.side = .buy → price ≤ order.price) (sized : 0 < order.size) (untouched : entry.filledSize = 0) :
    entry.openNotional ≤ order.asked := by
  have side : entry.side = order.side := (congrArg NewOrder.side terms :)
  have size : entry.size = order.size := (congrArg NewOrder.size terms :)
  have limit : entry.price = price := congrArg NewOrder.price terms
  unfold BacktestOrder.openNotional NewOrder.asked
  rw [side]
  cases towards : order.side with
  | sell => exact le_rfl
  | buy =>
    dsimp only
    rw [BacktestOrder.remainingSize, untouched, size, limit, sub_zero, max_eq_right sized.le]
    calc max 0 price * order.size ≤ max 0 order.price * order.size :=
          mul_le_mul_of_nonneg_right (max_le_max le_rfl (lowered towards)) sized.le
      _ = max 0 (order.price * order.size) := by rw [max_mul_of_nonneg _ _ sized.le, zero_mul]

theorem exposureReserved_submit {latency : Instant} (done : engine.submit config order latency = .ok next)
    (grid : order.side = .buy → config.rules.roundPrice order.price order.side ≤ order.price) :
    next.exposureReserved ≤ engine.exposureReserved + order.asked := by
  have some_ : 0 ≤ order.asked := by
    unfold NewOrder.asked
    cases order.side with
    | buy => exact le_max_left _ _
    | sell => exact le_rfl
  refine submit_sumBy done (fun entry ended => if_pos ended) some_ fun entry price terms lowered sized _ untouched => ?_
  unfold BacktestOrder.exposureReserve
  split_ifs
  · exact some_
  · exact openNotional_le_asked terms (fun buys => lowered (grid buys)) sized untouched

theorem cashReserved_submit {latency : Instant} (done : engine.submit config order latency = .ok next)
    (grid : order.side = .buy → config.rules.roundPrice order.price order.side ≤ order.price) :
    next.cashReserved budget ≤ engine.cashReserved budget + (order.asked + order.askedFees budget) := by
  have some_ : 0 ≤ order.asked + order.askedFees budget := by
    unfold NewOrder.asked NewOrder.askedFees
    cases order.side with
    | buy => exact add_nonneg (le_max_left _ _) (le_max_left _ _)
    | sell => exact (add_zero _).ge
  refine submit_sumBy done (fun entry ended => if_pos ended) some_ fun entry price terms lowered sized unfilled untouched => ?_
  have notional := openNotional_le_asked terms (fun buys => lowered (grid buys)) sized untouched
  have fees : entry.openFees budget = order.askedFees budget := by
    have side : entry.side = order.side := (congrArg NewOrder.side terms :)
    have named : entry.orderId = order.orderId := (congrArg NewOrder.orderId terms :)
    unfold BacktestOrder.openFees NewOrder.askedFees BacktestOrder.charged
    rw [side, named, unfilled, List.map_nil, List.sum_nil, sub_zero]
  unfold BacktestOrder.cashReserve
  split_ifs
  · exact some_
  · rw [fees]
    exact add_le_add_left notional _

def NoBuyLive (engine : MatchingEngine) : Prop := ∀ entry ∈ engine.orders.entries, entry.2.side = .buy → entry.2.IsTerminal

instance (engine : MatchingEngine) : Decidable engine.NoBuyLive :=
  inferInstanceAs (Decidable (∀ entry ∈ engine.orders.entries, entry.2.side = .buy → entry.2.IsTerminal))

theorem NoBuyLive.reserved (none : engine.NoBuyLive) (budget : String → ℚ) :
    engine.cashReserved budget = 0 ∧ engine.exposureReserved = 0 := by
  have nothing : ∀ order ∈ engine.orders.values, order.cashReserve budget = 0 ∧ order.exposureReserve = 0 := by
    intro order member
    obtain ⟨entry, held, rfl⟩ := List.mem_map.1 member
    unfold BacktestOrder.cashReserve BacktestOrder.exposureReserve BacktestOrder.openNotional BacktestOrder.openFees
    by_cases ended : entry.2.IsTerminal
    · exact ⟨if_pos ended, if_pos ended⟩
    · have sells : entry.2.side = .sell := by
        cases side : entry.2.side with
        | buy => exact absurd (none entry held side) ended
        | sell => rfl
      rw [if_neg ended, if_neg ended, sells]
      exact ⟨add_zero 0, rfl⟩
  constructor
  · exact List.sum_eq_zero fun amount member => by
      obtain ⟨order, held, rfl⟩ := List.mem_map.1 member
      exact (nothing order held).1
  · exact List.sum_eq_zero fun amount member => by
      obtain ⟨order, held, rfl⟩ := List.mem_map.1 member
      exact (nothing order held).2

end MatchingEngine

end Callisto.Backtest
