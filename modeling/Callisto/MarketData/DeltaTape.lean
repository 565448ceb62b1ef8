import Callisto.MarketData.DeltaCapture
import Mathlib.Tactic.Ring

/-! The deltas of a token account for what its levels lose, and take every print at most once. -/

namespace Callisto.MarketData.Capture

open Callisto.Library

def takenOf (print : ℕ) (takings : List (ℕ × ℚ)) : ℚ := (takings.map fun taking => if taking.1 = print then taking.2 else 0).sum

def takenSize (takings : List (ℕ × ℚ)) : ℚ := (takings.map Prod.snd).sum

def heldOf (print : ℕ) (trades : List RecentTrade) : ℚ := (trades.map fun trade => if trade.print = print then trade.size else 0).sum

def heldSize (trades : List RecentTrade) : ℚ := (trades.map RecentTrade.size).sum

def usedOf (print : ℕ) (rows : List BookDeltaRow) : ℚ := (rows.map fun row => takenOf print row.takings).sum

def tradedSize (rows : List BookDeltaRow) : ℚ := (rows.map fun row => row.tradeSize.getD 0).sum

def cancelledSize (rows : List BookDeltaRow) : ℚ := (rows.map fun row => row.cancelSize.getD 0).sum

def rowsAt (side : BookSide) (price : ℚ) (rows : List BookDeltaRow) : List BookDeltaRow := rows.filter fun row => row.side = side ∧ row.price = price

def ofType (type : DeltaType) (rows : List BookDeltaRow) : List BookDeltaRow := rows.filter fun row => row.eventType = type

/-- The rows of a level add up to what it lost, with at most one of each type. -/
structure Accounted (rows : List BookDeltaRow) (side : BookSide) (price delta : ℚ) : Prop where
  total : tradedSize (rowsAt side price rows) + cancelledSize (rowsAt side price rows) = delta
  trades : (ofType .trade (rowsAt side price rows)).length ≤ 1
  cancels : (ofType .cancel (rowsAt side price rows)).length ≤ 1

def Stems (trades : List RecentTrade) (print : ℕ) (price timestamp : ℚ) : Prop :=
  ∃ trade ∈ trades, trade.print = print ∧ trade.price = price ∧ trade.timestamp = timestamp

/-- The trades of a buffer come from those of another, none of them overdrawn. -/
def Leaves (before after : List RecentTrade) : Prop := ∀ trade ∈ after, 0 ≤ trade.size ∧ Stems before trade.print trade.price trade.timestamp

/-- A row's trade size is what it takes from prints at its price. -/
structure TakenFrom (trades : List RecentTrade) (row : BookDeltaRow) : Prop where
  sum : row.tradeSize.getD 0 = takenSize row.takings
  prints : ∀ taking ∈ row.takings, 0 ≤ taking.2 ∧ ∃ price timestamp, Stems trades taking.1 price timestamp ∧ |price - row.price| < 1 / 10000

section Sums
variable {print : ℕ}

theorem usedOf_append (first second : List BookDeltaRow) : usedOf print (first ++ second) = usedOf print first + usedOf print second := by
  rw [usedOf, List.map_append, List.sum_append, usedOf, usedOf]

theorem tradedSize_append (first second : List BookDeltaRow) : tradedSize (first ++ second) = tradedSize first + tradedSize second := by
  rw [tradedSize, List.map_append, List.sum_append, tradedSize, tradedSize]

theorem rowsAt_append (side : BookSide) (price : ℚ) (first second : List BookDeltaRow) :
    rowsAt side price (first ++ second) = rowsAt side price first ++ rowsAt side price second := List.filter_append ..

theorem heldOf_cons (trade : RecentTrade) (trades : List RecentTrade) :
    heldOf print (trade :: trades) = (if trade.print = print then trade.size else 0) + heldOf print trades := by
  rw [heldOf, List.map_cons, List.sum_cons, heldOf]

theorem heldSize_cons (trade : RecentTrade) (trades : List RecentTrade) : heldSize (trade :: trades) = trade.size + heldSize trades := by
  rw [heldSize, List.map_cons, List.sum_cons, heldSize]

theorem takenOf_cons (taking : ℕ × ℚ) (takings : List (ℕ × ℚ)) :
    takenOf print (taking :: takings) = (if taking.1 = print then taking.2 else 0) + takenOf print takings := by
  rw [takenOf, List.map_cons, List.sum_cons, takenOf]

theorem takenSize_cons (taking : ℕ × ℚ) (takings : List (ℕ × ℚ)) : takenSize (taking :: takings) = taking.2 + takenSize takings := by
  rw [takenSize, List.map_cons, List.sum_cons, takenSize]

theorem heldOf_sublist {kept trades : List RecentTrade} (sub : kept.Sublist trades) (nonneg : ∀ trade ∈ trades, 0 ≤ trade.size) :
    heldOf print kept ≤ heldOf print trades := by
  refine (sub.map _).sum_le_sum fun value member => ?_
  have ⟨trade, stored, same⟩ := List.mem_map.1 member
  rw [← same]
  split
  · exact nonneg trade stored
  · exact le_rfl

theorem heldSize_sublist {kept trades : List RecentTrade} (sub : kept.Sublist trades) (nonneg : ∀ trade ∈ trades, 0 ≤ trade.size) :
    heldSize kept ≤ heldSize trades := by
  refine (sub.map _).sum_le_sum fun value member => ?_
  have ⟨trade, stored, same⟩ := List.mem_map.1 member
  rw [← same]
  exact nonneg trade stored

end Sums

theorem Leaves.trans {first second third : List RecentTrade} (leaves : Leaves first second) (again : Leaves second third) : Leaves first third := by
  intro trade member
  have ⟨nonneg, middle, stored, print, price, timestamp⟩ := again trade member
  have ⟨_, origin⟩ := leaves middle stored
  exact ⟨nonneg, print ▸ price ▸ timestamp ▸ origin⟩

theorem Leaves.stems {first second : List RecentTrade} (leaves : Leaves first second) {print : ℕ} {price timestamp : ℚ}
    (stems : Stems second print price timestamp) : Stems first print price timestamp := by
  have ⟨trade, stored, same_print, same_price, same_timestamp⟩ := stems
  exact same_print ▸ same_price ▸ same_timestamp ▸ (leaves trade stored).2

theorem leaves_self {trades : List RecentTrade} (nonneg : ∀ trade ∈ trades, 0 ≤ trade.size) : Leaves trades trades :=
  fun trade member => ⟨nonneg trade member, trade, member, rfl, rfl, rfl⟩

theorem TakenFrom.mono {first second : List RecentTrade} (leaves : Leaves first second) {row : BookDeltaRow}
    (taken : TakenFrom second row) : TakenFrom first row where
  sum := taken.sum
  prints taking member :=
    have ⟨nonneg, price, timestamp, stems, near⟩ := taken.prints taking member
    ⟨nonneg, price, timestamp, leaves.stems stems, near⟩

structure Drains (price maxSize : ℚ) (trades : List RecentTrade) (consumed : ℚ) (after : Consumption) : Prop where
  bounded : consumed ≤ after.consumed ∧ after.consumed ≤ maxSize
  total : after.consumed = consumed + takenSize after.takings
  taken : ∀ print, takenOf print after.takings + heldOf print after.trades = heldOf print trades
  sizes : takenSize after.takings + heldSize after.trades = heldSize trades
  leaves : Leaves trades after.trades
  prints : ∀ taking ∈ after.takings, 0 ≤ taking.2 ∧ ∃ own timestamp, Stems trades taking.1 own timestamp ∧ |own - price| < 1 / 10000

theorem Stems.cons {trades : List RecentTrade} {print : ℕ} {price timestamp : ℚ} (stems : Stems trades print price timestamp) (trade : RecentTrade) :
    Stems (trade :: trades) print price timestamp :=
  have ⟨held, member, same⟩ := stems
  ⟨held, List.mem_cons_of_mem _ member, same⟩

theorem consumeFrom_drains {price maxSize : ℚ} {trades : List RecentTrade} (nonneg : ∀ trade ∈ trades, 0 ≤ trade.size) {consumed : ℚ}
    (within : consumed ≤ maxSize) : Drains price maxSize trades consumed (consumeFrom price maxSize trades consumed) := by
  induction trades generalizing consumed with
  | nil =>
    exact { bounded := ⟨le_rfl, within⟩, total := (add_zero _).symm, taken := fun _ => add_zero _, sizes := add_zero _,
            leaves := fun _ member => (nomatch member), prints := fun _ member => (nomatch member) }
  | cons trade trades ih =>
    have nonneg_rest : ∀ trade ∈ trades, 0 ≤ trade.size := fun held member => nonneg held (List.mem_cons_of_mem _ member)
    have size_nonneg := nonneg trade List.mem_cons_self
    have itself : Stems (trade :: trades) trade.print trade.price trade.timestamp := ⟨trade, List.mem_cons_self, rfl, rfl, rfl⟩
    unfold consumeFrom
    by_cases hungry : consumed < maxSize
    · rw [if_pos hungry]
      by_cases near : |trade.price - price| < 1 / 10000
      · rw [if_pos near]
        dsimp only
        have take_nonneg : 0 ≤ min trade.size (maxSize - consumed) := le_min size_nonneg (sub_nonneg.2 hungry.le)
        have take_le : min trade.size (maxSize - consumed) ≤ maxSize - consumed := min_le_right _ _
        have drains := ih nonneg_rest (show consumed + min trade.size (maxSize - consumed) ≤ maxSize by linarith)
        have prints : ∀ taking ∈ (trade.print, min trade.size (maxSize - consumed)) ::
            (consumeFrom price maxSize trades (consumed + min trade.size (maxSize - consumed))).takings,
            0 ≤ taking.2 ∧ ∃ own timestamp, Stems (trade :: trades) taking.1 own timestamp ∧ |own - price| < 1 / 10000 := by
          intro taking member
          rcases List.mem_cons.1 member with now | later
          · rw [now]
            exact ⟨take_nonneg, trade.price, trade.timestamp, itself, near⟩
          · have ⟨positive, own, timestamp, stems, close⟩ := drains.prints taking later
            exact ⟨positive, own, timestamp, stems.cons trade, close⟩
        have leaves_rest : Leaves (trade :: trades) (consumeFrom price maxSize trades (consumed + min trade.size (maxSize - consumed))).trades :=
          fun held member => ⟨(drains.leaves held member).1, (drains.leaves held member).2.cons trade⟩
        have total := drains.total
        have bounded := drains.bounded
        have sizes := drains.sizes
        by_cases whole : trade.size ≤ min trade.size (maxSize - consumed)
        · -- the print is used up and dropped
          have take_eq : min trade.size (maxSize - consumed) = trade.size := le_antisymm (min_le_left _ _) whole
          rw [if_pos whole]
          refine { bounded := ⟨by linarith [bounded.1], bounded.2⟩, total := ?_, taken := fun print => ?_, sizes := ?_,
                   leaves := leaves_rest, prints := prints }
          · rw [takenSize_cons]
            linarith
          · have taken := drains.taken print
            rw [takenOf_cons, heldOf_cons, take_eq]
            rw [take_eq] at taken
            dsimp only
            linarith
          · rw [takenSize_cons, heldSize_cons]
            dsimp only
            linarith
        · rw [if_neg whole]
          have part := not_le.1 whole
          refine { bounded := ⟨by linarith [bounded.1], bounded.2⟩, total := ?_, taken := fun print => ?_, sizes := ?_,
                   leaves := ?_, prints := prints }
          · rw [takenSize_cons]
            linarith
          · have taken := drains.taken print
            rw [takenOf_cons, heldOf_cons, heldOf_cons]
            dsimp only
            split
            · linarith
            · linarith
          · rw [takenSize_cons, heldSize_cons, heldSize_cons]
            dsimp only
            linarith
          · intro held member
            rcases List.mem_cons.1 member with now | later
            · rw [now]
              exact ⟨sub_nonneg.2 part.le, itself⟩
            · exact leaves_rest held later
      · rw [if_neg near]
        dsimp only
        have drains := ih nonneg_rest within
        refine { bounded := drains.bounded, total := drains.total, taken := fun print => ?_, sizes := ?_, leaves := ?_, prints := ?_ }
        · have taken := drains.taken print
          rw [heldOf_cons, heldOf_cons]
          linarith
        · have sizes := drains.sizes
          rw [heldSize_cons, heldSize_cons]
          linarith
        · intro held member
          rcases List.mem_cons.1 member with now | later
          · rw [now]
            exact ⟨size_nonneg, itself⟩
          · exact ⟨(drains.leaves held later).1, (drains.leaves held later).2.cons trade⟩
        · intro taking member
          have ⟨positive, own, timestamp, stems, close⟩ := drains.prints taking member
          exact ⟨positive, own, timestamp, stems.cons trade, close⟩
    · rw [if_neg hungry]
      exact { bounded := ⟨le_rfl, within⟩, total := (add_zero _).symm, taken := fun _ => zero_add _, sizes := zero_add _,
              leaves := leaves_self nonneg, prints := fun _ member => (nomatch member) }

section Levels
variable {observedTs price prevSize newSize : ℚ} {spreadBps : Option ℚ} {side : BookSide} {consumption : Consumption}

theorem mem_levelRows {row : BookDeltaRow} (member : row ∈ levelRows observedTs spreadBps side price prevSize newSize consumption) :
    row.observedAt = observedTs ∧ row.side = side ∧ row.price = price ∧
      ((row.tradeSize = some consumption.consumed ∧ row.takings = consumption.takings) ∨ (row.tradeSize = none ∧ row.takings = [])) := by
  unfold levelRows at member
  dsimp only at member
  rcases List.mem_append.1 member with traded | cancelled
  · split at traded
    · rw [List.mem_singleton.1 traded]
      exact ⟨rfl, rfl, rfl, Or.inl ⟨rfl, rfl⟩⟩
    · exact nomatch traded
  · split at cancelled
    · rw [List.mem_singleton.1 cancelled]
      exact ⟨rfl, rfl, rfl, Or.inr ⟨rfl, rfl⟩⟩
    · exact nomatch cancelled

theorem takenOf_le {takings : List (ℕ × ℚ)} (positive : ∀ taking ∈ takings, 0 ≤ taking.2) (print : ℕ) :
    0 ≤ takenOf print takings ∧ takenOf print takings ≤ takenSize takings := by
  refine ⟨List.sum_nonneg fun value member => ?_, List.sum_le_sum fun taking member => ?_⟩
  · have ⟨taking, stored, same⟩ := List.mem_map.1 member
    rw [← same]
    split
    · exact positive taking stored
    · exact le_rfl
  · split
    · exact le_rfl
    · exact positive taking member

theorem levelRows_sums (nonneg : 0 ≤ consumption.consumed) (total : consumption.consumed = takenSize consumption.takings)
    (positive : ∀ taking ∈ consumption.takings, 0 ≤ taking.2) :
    tradedSize (levelRows observedTs spreadBps side price prevSize newSize consumption) = consumption.consumed ∧
      ∀ print, usedOf print (levelRows observedTs spreadBps side price prevSize newSize consumption) = takenOf print consumption.takings := by
  unfold levelRows
  dsimp only
  by_cases traded : 0 < consumption.consumed
  · rw [if_pos traded]
    split <;> simp [tradedSize, usedOf, takenOf]
  · have nothing : consumption.consumed = 0 := le_antisymm (not_lt.1 traded) nonneg
    have unused : ∀ print, takenOf print consumption.takings = 0 := fun print =>
      le_antisymm ((takenOf_le positive print).2.trans (total ▸ not_lt.1 traded)) (takenOf_le positive print).1
    rw [if_neg traded, nothing]
    split
    · have empty : ∀ print, takenOf print [] = 0 := fun _ => rfl
      simp [tradedSize, usedOf, unused, empty]
    · simp [tradedSize, usedOf, unused]

theorem levelRows_accounted (nonneg : 0 ≤ consumption.consumed) (bounded : consumption.consumed ≤ prevSize - newSize)
    (lost : 0 < prevSize - newSize) :
    Accounted (levelRows observedTs spreadBps side price prevSize newSize consumption) side price (prevSize - newSize) := by
  have all : rowsAt side price (levelRows observedTs spreadBps side price prevSize newSize consumption) =
      levelRows observedTs spreadBps side price prevSize newSize consumption :=
    List.filter_eq_self.2 fun row member => decide_eq_true ⟨(mem_levelRows member).2.1, (mem_levelRows member).2.2.1⟩
  have rest : max 0 (prevSize - newSize - consumption.consumed) = prevSize - newSize - consumption.consumed := max_eq_right (sub_nonneg.2 bounded)
  constructor
  all_goals
    rw [all]
    unfold levelRows
    dsimp only
    rw [rest]
    by_cases traded : 0 < consumption.consumed
  · rw [if_pos traded]
    split
    · simp [tradedSize, cancelledSize]
    · next whole =>
      have equal : prevSize - newSize - consumption.consumed = 0 := le_antisymm (not_lt.1 whole) (sub_nonneg.2 bounded)
      simp [tradedSize, cancelledSize]
      linarith
  · have nothing : consumption.consumed = 0 := le_antisymm (not_lt.1 traded) nonneg
    rw [if_neg traded, nothing, sub_zero, if_pos lost]
    simp [tradedSize, cancelledSize]
  · rw [if_pos traded]
    split <;> simp [ofType]
  · rw [if_neg traded]
    split <;> simp [ofType]
  · rw [if_pos traded]
    split <;> simp [ofType]
  · rw [if_neg traded]
    split <;> simp [ofType]

theorem rowsAt_eq_nil {rows : List BookDeltaRow} (other : ∀ row ∈ rows, row.side = side → row.price ≠ price) : rowsAt side price rows = [] :=
  List.filter_eq_nil_iff.2 fun row member matched => other row member (of_decide_eq_true matched).1 (of_decide_eq_true matched).2

theorem Accounted.append_left {first second : List BookDeltaRow} {delta : ℚ} (accounted : Accounted first side price delta)
    (other : ∀ row ∈ second, row.side = side → row.price ≠ price) : Accounted (first ++ second) side price delta := by
  have same : rowsAt side price (first ++ second) = rowsAt side price first := by
    rw [rowsAt_append, rowsAt_eq_nil other, List.append_nil]
  exact ⟨same ▸ accounted.total, same ▸ accounted.trades, same ▸ accounted.cancels⟩

theorem Accounted.append_right {first second : List BookDeltaRow} {delta : ℚ} (accounted : Accounted second side price delta)
    (other : ∀ row ∈ first, row.side = side → row.price ≠ price) : Accounted (first ++ second) side price delta := by
  have same : rowsAt side price (first ++ second) = rowsAt side price second := by
    rw [rowsAt_append, rowsAt_eq_nil other, List.nil_append]
  exact ⟨same ▸ accounted.total, same ▸ accounted.trades, same ▸ accounted.cancels⟩

end Levels

structure Draws (observedTs : ℚ) (trades : List RecentTrade) (rows : List BookDeltaRow) (after : List RecentTrade) : Prop where
  used : ∀ print, usedOf print rows + heldOf print after = heldOf print trades
  traded : tradedSize rows + heldSize after = heldSize trades
  leaves : Leaves trades after
  taken : ∀ row ∈ rows, row.observedAt = observedTs ∧ TakenFrom trades row

theorem draws_nothing {observedTs : ℚ} {trades : List RecentTrade} (nonneg : ∀ trade ∈ trades, 0 ≤ trade.size) : Draws observedTs trades [] trades :=
  { used := fun _ => zero_add _, traded := zero_add _, leaves := leaves_self nonneg, taken := fun _ member => (nomatch member) }

theorem Draws.append {observedTs : ℚ} {trades middle after : List RecentTrade} {first second : List BookDeltaRow}
    (draws : Draws observedTs trades first middle) (again : Draws observedTs middle second after) :
    Draws observedTs trades (first ++ second) after where
  used print := by
    rw [usedOf_append, add_assoc, again.used, draws.used]
  traded := by
    rw [tradedSize_append, add_assoc, again.traded, draws.traded]
  leaves := draws.leaves.trans again.leaves
  taken row member := by
    rcases List.mem_append.1 member with early | late
    · exact draws.taken row early
    · exact ⟨(again.taken row late).1, (again.taken row late).2.mono draws.leaves⟩

section Diff
variable {observedTs : ℚ} {spreadBps : Option ℚ} {side : BookSide} {newLevels : Dict ℚ ℚ} {levels : List (ℚ × ℚ)} {trades : List RecentTrade}

theorem levelRows_draws {price prevSize newSize : ℚ} (nonneg : ∀ trade ∈ trades, 0 ≤ trade.size)
    (lost : 0 ≤ prevSize - newSize) :
    Draws observedTs trades (levelRows observedTs spreadBps side price prevSize newSize (consumeTradesAt trades price (prevSize - newSize)))
      (consumeTradesAt trades price (prevSize - newSize)).trades := by
  have drains := @consumeFrom_drains price _ _ nonneg _ lost
  have total : (consumeTradesAt trades price (prevSize - newSize)).consumed = takenSize (consumeTradesAt trades price (prevSize - newSize)).takings :=
    drains.total.trans (zero_add _)
  have sums := @levelRows_sums observedTs price prevSize newSize spreadBps side (consumeTradesAt trades price (prevSize - newSize)) drains.bounded.1
    total fun taking member => (drains.prints taking member).1
  refine { used := fun print => ?_, traded := ?_, leaves := drains.leaves, taken := fun row member => ?_ }
  · rw [sums.2]
    exact drains.taken print
  · rw [sums.1, total]
    exact drains.sizes
  · have ⟨observed, _, price_eq, outcome⟩ := mem_levelRows member
    refine ⟨observed, ?_⟩
    rcases outcome with ⟨traded, takings⟩ | ⟨untraded, takings⟩
    · refine { sum := ?_, prints := fun taking stored => ?_ }
      · rw [traded, takings]
        exact total
      · rw [takings] at stored
        rw [price_eq]
        exact drains.prints taking stored
    · refine { sum := ?_, prints := fun taking stored => ?_ }
      · rw [untraded, takings]
        rfl
      · rw [takings] at stored
        exact nomatch stored

theorem diffAndEmit_draws (nonneg : ∀ trade ∈ trades, 0 ≤ trade.size) :
    Draws observedTs trades (diffAndEmit observedTs spreadBps side newLevels levels trades).1
      (diffAndEmit observedTs spreadBps side newLevels levels trades).2 := by
  induction levels generalizing trades with
  | nil => exact draws_nothing nonneg
  | cons level levels ih =>
    unfold diffAndEmit
    dsimp only
    by_cases small : level.2 - (newLevels.get? level.1).getD 0 < minDeltaSize
    · rw [if_pos small]
      exact ih nonneg
    · rw [if_neg small]
      have lost : 0 ≤ level.2 - (newLevels.get? level.1).getD 0 := le_trans (by unfold minDeltaSize; norm_num) (not_lt.1 small)
      have draws := @levelRows_draws observedTs spreadBps side trades level.1 level.2 _ nonneg lost
      exact draws.append (ih fun trade member => (draws.leaves trade member).1)

theorem mem_diffAndEmit {row : BookDeltaRow}
    (member : row ∈ (diffAndEmit observedTs spreadBps side newLevels levels trades).1) : row.side = side ∧ row.price ∈ levels.map Prod.fst := by
  induction levels generalizing trades with
  | nil => exact nomatch member
  | cons level levels ih =>
    unfold diffAndEmit at member
    dsimp only at member
    by_cases small : level.2 - (newLevels.get? level.1).getD 0 < minDeltaSize
    · rw [if_pos small] at member
      exact ⟨(ih member).1, List.mem_cons_of_mem _ (ih member).2⟩
    · rw [if_neg small] at member
      rcases List.mem_append.1 member with own | later
      · have ⟨_, side_eq, price_eq, _⟩ := mem_levelRows own
        exact ⟨side_eq, price_eq ▸ List.mem_cons_self⟩
      · exact ⟨(ih later).1, List.mem_cons_of_mem _ (ih later).2⟩

theorem diffAndEmit_accounted (distinct : (levels.map Prod.fst).Nodup)
    (nonneg : ∀ trade ∈ trades, 0 ≤ trade.size) {level : ℚ × ℚ} (member : level ∈ levels)
    (lost : minDeltaSize ≤ level.2 - (newLevels.get? level.1).getD 0) :
    Accounted (diffAndEmit observedTs spreadBps side newLevels levels trades).1 side level.1 (level.2 - (newLevels.get? level.1).getD 0) := by
  induction levels generalizing trades with
  | nil => exact nomatch member
  | cons first levels ih =>
    have ⟨fresh, distinct_rest⟩ := List.nodup_cons.1 distinct
    unfold diffAndEmit
    dsimp only
    by_cases small : first.2 - (newLevels.get? first.1).getD 0 < minDeltaSize
    · rw [if_pos small]
      rcases List.mem_cons.1 member with now | later
      · rw [now] at lost
        exact absurd small (not_lt.2 lost)
      · exact ih distinct_rest nonneg later
    · rw [if_neg small]
      have some_lost : 0 < first.2 - (newLevels.get? first.1).getD 0 := lt_of_lt_of_le (by unfold minDeltaSize; norm_num) (not_lt.1 small)
      have draws := @levelRows_draws observedTs spreadBps side trades first.1 first.2 _ nonneg some_lost.le
      rcases List.mem_cons.1 member with now | later
      · rw [now]
        have drains := @consumeFrom_drains first.1 _ _ nonneg _ some_lost.le
        refine (levelRows_accounted drains.bounded.1 drains.bounded.2 some_lost).append_left fun row held _ same => ?_
        exact fresh (same ▸ (mem_diffAndEmit held).2)
      · refine (ih distinct_rest (fun trade held => (draws.leaves trade held).1) later).append_right fun row held _ same => ?_
        have price := (mem_levelRows held).2.2.1
        exact fresh (price.symm.trans same ▸ List.mem_map_of_mem later)

end Diff

end Callisto.MarketData.Capture
