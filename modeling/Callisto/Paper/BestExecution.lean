import Callisto.Library.Ladder
import Callisto.Library.Traversals
import Callisto.Paper.DisplayedDepth

/-! A simulated immediate-or-cancel order fills as much as the displayed depth allows, at the best notional of all allocations. -/

namespace Callisto.Paper.Displayed

open Callisto.Library Callisto.Library.Ladder

section Walks

variable {requested : ℤ} {accepts : ℤ → Prop} [DecidablePred accepts] {executionPrice : Price → Except ProtocolError Price} {side : Outcome}

def crossing (accepts : ℤ → Prop) [DecidablePred accepts] (unitsAt : Price → ℤ) (levels : List DepthLevel) : List DepthLevel :=
  levels.filter fun level => accepts (unitsAt level.price)

def rungsOf (unitsAt : Price → ℤ) (levels : List DepthLevel) : List (ℤ × ℤ) := levels.map fun level => (unitsAt level.price, level.quantity)

/-- The fill takes no more than the level displays, at its execution price. -/
def TakenFrom (unitsAt : Price → ℤ) (fill : PaperFill) (level : DepthLevel) : Prop :=
  fill.price = unitsAt level.price ∧ 0 < fill.quantity ∧ fill.quantity ≤ level.quantity

structure Sweeps (unitsAt : Price → ℤ) (levels : List DepthLevel) (walk final : Walk requested accepts) : Prop where
  bought : (sweep walk.remaining (rungsOf unitsAt (crossing accepts unitsAt levels))).sum = walk.remaining - final.remaining
  paid : cost (rungsOf unitsAt (crossing accepts unitsAt levels))
    (sweep walk.remaining (rungsOf unitsAt (crossing accepts unitsAt levels))) = final.notional - walk.notional
  taken : ∃ used fills, used.Sublist (crossing accepts unitsAt levels) ∧ List.Forall₂ (TakenFrom unitsAt) fills used ∧
    final.fills = walk.fills ++ fills

variable {unitsAt : Price → ℤ} {level : DepthLevel} {levels : List DepthLevel} {walk final : Walk requested accepts}

theorem rungsOf_sized (unitsAt : Price → ℤ) (levels : List DepthLevel) : ∀ rung ∈ rungsOf unitsAt levels, 0 ≤ rung.2 := by
  intro rung member
  have ⟨level, _, same⟩ := List.mem_map.1 member
  exact same ▸ level.positive.le

theorem crossing_cons_of_accepted (accepted : accepts (unitsAt level.price)) :
    crossing accepts unitsAt (level :: levels) = level :: crossing accepts unitsAt levels := by
  unfold crossing
  rw [List.filter_cons_of_pos (by simpa using accepted)]

theorem crossing_cons_of_refused (refused : ¬ accepts (unitsAt level.price)) :
    crossing accepts unitsAt (level :: levels) = crossing accepts unitsAt levels := by
  unfold crossing
  rw [List.filter_cons_of_neg (by simpa using refused)]

theorem sweeps_of_done (done : walk.remaining = 0) : Sweeps unitsAt levels walk walk := by
  have nothing := sweep_zero (rungsOf_sized unitsAt (crossing accepts unitsAt levels))
  constructor
  · rw [done, nothing, List.sum_replicate, nsmul_zero, sub_zero]
  · rw [done, nothing, cost_replicate_zero, sub_self]
  · exact ⟨[], [], List.nil_sublist _, List.Forall₂.nil, (List.append_nil _).symm⟩

theorem Sweeps.skip (swept : Sweeps unitsAt levels walk final) (refused : ¬ accepts (unitsAt level.price)) :
    Sweeps unitsAt (level :: levels) walk final := by
  constructor
  · rw [crossing_cons_of_refused refused, swept.bought]
  · rw [crossing_cons_of_refused refused, swept.paid]
  · rw [crossing_cons_of_refused refused]
    exact swept.taken

theorem Sweeps.take {price : Price} (priced : price.units = unitsAt level.price) (accepted : accepts price.units)
    (positive : 0 < min walk.remaining level.quantity)
    (swept : Sweeps unitsAt levels (walk.take level.price price side (min walk.remaining level.quantity) accepted positive (min_le_left _ _)) final) :
    Sweeps unitsAt (level :: levels) walk final := by
  have crosses : accepts (unitsAt level.price) := priced ▸ accepted
  have bought := swept.bought
  have paid := swept.paid
  have ⟨used, fills, sublist, taken, appended⟩ := swept.taken
  simp only [Walk.take] at bought paid appended
  constructor
  · rw [crossing_cons_of_accepted crosses, rungsOf, List.map_cons, sweep, List.sum_cons]
    unfold rungsOf at bought
    omega
  · rw [crossing_cons_of_accepted crosses, rungsOf, List.map_cons, sweep, cost]
    unfold rungsOf at paid
    rw [paid, priced]
    ring
  · rw [crossing_cons_of_accepted crosses]
    exact ⟨level :: used, _ :: fills, sublist.cons_cons level, List.Forall₂.cons ⟨priced, positive, min_le_right _ _⟩ taken,
      by rw [appended, List.append_assoc, List.singleton_append]⟩

theorem walkDepth_sweeps (priced : ∀ source price, executionPrice source = .ok price → price.units = unitsAt source)
    (left : 0 < walk.remaining) (walked : walkDepth executionPrice side levels walk = .ok final) : Sweeps unitsAt levels walk final := by
  induction levels generalizing walk with
  | nil =>
    cases walked
    exact ⟨by simp [crossing, rungsOf, sweep], by simp [crossing, rungsOf, sweep, cost],
      ⟨[], [], List.nil_sublist _, List.Forall₂.nil, (List.append_nil _).symm⟩⟩
  | cons level levels ih =>
    rw [walkDepth] at walked
    obtain ⟨price, executed, next⟩ := bind_ok.1 walked
    have units := priced level.price price executed
    by_cases accepted : accepts price.units
    · have positive : 0 < min walk.remaining level.quantity := lt_min left level.positive
      rw [dif_pos accepted, dif_pos positive] at next
      dsimp only at next
      split at next
      case isTrue done =>
        cases next
        exact (sweeps_of_done done).take units accepted positive
      case isFalse more =>
        have nonneg := (walk.take level.price price side (min walk.remaining level.quantity) accepted positive (min_le_left _ _)).remaining_nonneg
        exact (ih (lt_of_le_of_ne nonneg (Ne.symm more)) next).take units accepted positive
    · rw [dif_neg accepted] at next
      exact (ih left next).skip (units ▸ accepted)

end Walks

/-- So many units of `10 ^ -scale`. -/
def amount (scale : ℕ) : ℤ →+ ℚ := (AddMonoidHom.mulRight (((10 : ℚ) ^ scale)⁻¹)).comp (Int.castAddHom ℚ)

theorem amount_apply (scale : ℕ) (units : ℤ) : amount scale units = units / 10 ^ scale := (div_eq_mul_inv _ _).symm

theorem amount_le_amount {scale : ℕ} {first second : ℤ} : amount scale first ≤ amount scale second ↔ first ≤ second := by
  have positive : (0 : ℚ) < 10 ^ scale := by positivity
  rw [amount_apply, amount_apply, div_le_div_iff_of_pos_right positive]
  exact Int.cast_le

theorem amount_of_toScaledInt {value : Decimal} {scale : ℕ} {field : String} {units : ℤ} (converted : toScaledInt value scale field = .ok units) :
    amount scale units = value.value := by
  have positive : (10 : ℚ) ^ scale ≠ 0 := by positivity
  unfold toScaledInt at converted
  split at converted
  case h_1 found scaled =>
    cases converted
    rw [amount_apply, div_eq_iff positive, Decimal.scaled_eq_some_iff.1 scaled]
  case h_2 => cases converted

theorem amount_mul (first second : ℕ) (units others : ℤ) :
    amount first units * amount second others = amount (first + second) (units * others) := by
  rw [amount_apply, amount_apply, amount_apply, Int.cast_mul, pow_add, div_mul_div_comm]

/-- The levels that a limit admits, by the price an order executes at and the quantity displayed. -/
def rungsAt (priceAt : ℚ → ℚ) (admits : ℚ → Prop) [DecidablePred admits] (levels : List BookLevel) : List (ℚ × ℚ) :=
  (levels.filter fun level => admits (priceAt level.price.value)).map fun level => (priceAt level.price.value, level.quantity.value)

/-- What a simulated fill owes its request: `better` compares prices and notionals in the direction of the order. -/
structure SettlesBest (better : ℚ → ℚ → Prop) (rungs : List (ℚ × ℚ)) (requested limit : ℚ) (result : PaperFillResult) : Prop where
  requested_eq : amount quantityScale result.requestedQuantity = requested
  conserved : result.filledQuantity + result.remainingQuantity = result.requestedQuantity
  filled_sum : (result.fills.map PaperFill.quantity).sum = result.filledQuantity
  within : ∀ fill ∈ result.fills, better (amount priceScale fill.price) limit
  notional_sum : amount (priceScale + quantityScale) result.notional =
    (result.fills.map fun fill => amount priceScale fill.price * amount quantityScale fill.quantity).sum
  displayed : ∃ used, used.Subperm rungs ∧ List.Forall₂ (fun (fill : PaperFill) rung =>
    amount priceScale fill.price = rung.1 ∧ 0 < fill.quantity ∧ amount quantityScale fill.quantity ≤ rung.2) result.fills used
  maximal : amount quantityScale result.filledQuantity = min requested (rungs.map Prod.snd).sum
  best : ∀ amounts, IsAllocation rungs amounts → amounts.sum = amount quantityScale result.filledQuantity →
    better (amount (priceScale + quantityScale) result.notional) (cost rungs amounts)
  average_none : result.averageFillPrice = none ↔ result.fills = []
  average_between : ∀ mean ∈ result.averageFillPrice, ∃ low ∈ result.fills, ∃ high ∈ result.fills,
    amount priceScale low.price ≤ amount 18 mean ∧ amount 18 mean ≤ amount priceScale high.price

/-- One side of the market: how prices compare, and what a bid executes at. -/
structure Direction (better : ℚ → ℚ → Prop) (sign : ℚ) (priceAt : ℚ → ℚ) (accepts : ℤ → ℤ → Prop)
    (executionPrice : Price → Except ProtocolError Price) (unitsAt : Price → ℤ) : Prop where
  signed : ∀ first second, better first second ↔ sign * first ≤ sign * second
  accepted : ∀ limit price, accepts limit price ↔ better (amount priceScale price) (amount priceScale limit)
  executed : ∀ source price, executionPrice source = .ok price → price.units = unitsAt source
  priced : ∀ source, amount priceScale (unitsAt source) = priceAt (amount priceScale source.units)
  best_first : ∀ first second : Price, second.units ≤ first.units →
    better (amount priceScale (unitsAt first)) (amount priceScale (unitsAt second))

section Averages

variable {requested : ℤ} {accepts : ℤ → Prop} (walk : Walk requested accepts)

theorem fills_sum (fills : List PaperFill) (factor : ℤ) : (fills.map fun fill => factor * fill.quantity).sum =
    factor * (fills.map PaperFill.quantity).sum :=
  List.sum_map_mul_left fills PaperFill.quantity factor

theorem exists_around (some_filled : walk.fills ≠ []) :
    (∃ low ∈ walk.fills, low.price * (requested - walk.remaining) ≤ walk.notional) ∧
      ∃ high ∈ walk.fills, walk.notional ≤ high.price * (requested - walk.remaining) := by
  have filled : (walk.fills.map PaperFill.quantity).sum = requested - walk.remaining := by
    have total := walk.filled
    omega
  have paid : (walk.fills.map fun fill => fill.price * (requested - walk.remaining) * fill.quantity).sum =
      walk.notional * (requested - walk.remaining) := by
    have each : (walk.fills.map fun fill => fill.price * (requested - walk.remaining) * fill.quantity) =
        walk.fills.map fun fill => fill.notional * (requested - walk.remaining) := by
      apply List.map_congr_left
      intro fill member
      rw [(walk.priced fill member).2.2.2.2]
      ring
    rw [each, List.sum_map_mul_right, ← walk.notional_sum]
  have spread := fills_sum walk.fills walk.notional
  rw [filled] at spread
  constructor
  · have ⟨low, member, below⟩ := List.exists_le_of_sum_le some_filled _ _ (paid.trans spread.symm).le
    exact ⟨low, member, le_of_mul_le_mul_right below (walk.priced low member).1⟩
  · have ⟨high, member, above⟩ := List.exists_le_of_sum_le some_filled _ _ (spread.trans paid.symm).le
    exact ⟨high, member, le_of_mul_le_mul_right above (walk.priced high member).1⟩

theorem fills_eq_nil_iff : walk.fills = [] ↔ requested - walk.remaining = 0 := by
  have total := walk.filled
  constructor
  · intro empty
    rw [empty, List.map_nil, List.sum_nil] at total
    omega
  · intro nothing
    by_contra some_filled
    have ⟨fill, member⟩ := List.exists_mem_of_ne_nil _ some_filled
    have others : ∀ quantity ∈ walk.fills.map PaperFill.quantity, 0 ≤ quantity := by
      intro quantity inside
      have ⟨other, filled, same⟩ := List.mem_map.1 inside
      exact same ▸ (walk.priced other filled).1.le
    have one := List.single_le_sum others fill.quantity (List.mem_map_of_mem member)
    have positive := (walk.priced fill member).1
    omega

theorem averageFillPrice_between {mean : ℤ} (found : averageFillPrice walk.notional (requested - walk.remaining) = some mean) :
    ∃ low ∈ walk.fills, ∃ high ∈ walk.fills, low.price * 10 ^ 12 ≤ mean ∧ mean ≤ high.price * 10 ^ 12 := by
  unfold averageFillPrice at found
  by_cases nothing : requested - walk.remaining = 0
  · rw [if_pos nothing] at found
    cases found
  · rw [if_neg nothing] at found
    cases found
    have nonneg := walk.filled_nonneg
    have notional_nonneg := walk.notional_nonneg
    have ⟨⟨low, low_member, below⟩, high, high_member, above⟩ := exists_around walk fun empty => nothing ((fills_eq_nil_iff walk).1 empty)
    have low_positive := (walk.priced low low_member).2.1
    have high_positive := (walk.priced high high_member).2.1
    lift requested - walk.remaining to ℕ using nonneg with filled
    lift walk.notional to ℕ using notional_nonneg with notional
    have unit : 0 < filled := by omega
    have from_low : low.price.toNat * 10 ^ 12 * filled ≤ notional * 10 ^ 12 := by
      zify
      rw [Int.toNat_of_nonneg low_positive.le]
      linarith
    have to_high : notional * 10 ^ 12 ≤ high.price.toNat * 10 ^ 12 * filled := by
      zify
      rw [Int.toNat_of_nonneg high_positive.le]
      linarith
    have lower := Rounding.le_halfEven unit from_low
    have upper := Rounding.halfEven_le unit to_high
    have magnitude : ((notional : ℤ) * 10 ^ 12).toNat = notional * 10 ^ 12 := by
      rw [← Int.toNat_natCast (notional * 10 ^ 12), Nat.cast_mul, Nat.cast_pow, Nat.cast_ofNat]
    refine ⟨low, low_member, high, high_member, ?_⟩
    rw [magnitude, Int.toNat_natCast]
    omega

end Averages

section Settlement

variable {better : ℚ → ℚ → Prop} {sign : ℚ} {priceAt : ℚ → ℚ} {accepts : ℤ → ℤ → Prop} [∀ limit, DecidablePred (accepts limit)]
  {executionPrice : Price → Except ProtocolError Price} {unitsAt : Price → ℤ} {ranges : List PriceRange} {levels : List BookLevel}
  {validated : List DepthLevel} {limit : ℤ}

theorem amounts_of_readLevel {level : BookLevel} {read : DepthLevel} (done : readLevel ranges level = .ok read) :
    amount priceScale read.price.units = level.price.value ∧ amount quantityScale read.quantity = level.quantity.value := by
  have ⟨price, priced, rest⟩ := bind_ok.1 done
  have ⟨quantity, sized, checked⟩ := bind_ok.1 rest
  have same : read.price.units = price ∧ read.quantity = quantity := by
    unfold checkLevel at checked
    split at checked
    · have ⟨onTick, _, more⟩ := bind_ok.1 checked
      split at more
      · split at more
        · cases more
          exact ⟨rfl, rfl⟩
        · cases more
      · cases more
    · cases checked
  rw [same.1, same.2]
  exact ⟨amount_of_toScaledInt priced, amount_of_toScaledInt sized⟩

variable (direction : Direction better sign priceAt accepts executionPrice unitsAt)
include direction

theorem bestFirst_sorted (limit : ℤ) (validated : List DepthLevel) :
    ((rungsOf unitsAt (crossing (accepts limit) unitsAt (bestFirst validated))).map (Prod.map (amount priceScale) (amount quantityScale))).Pairwise
      fun first second => sign * first.1 ≤ sign * second.1 := by
  have total : Std.Total fun first second : DepthLevel => second.price.units < first.price.units ∨
      second.price.units = first.price.units ∧ second.quantity ≤ first.quantity := ⟨fun first second => by omega⟩
  have transitive : IsTrans DepthLevel fun first second => second.price.units < first.price.units ∨
      second.price.units = first.price.units ∧ second.quantity ≤ first.quantity := ⟨fun first second third => by omega⟩
  have sorted := List.pairwise_insertionSort (fun first second : DepthLevel => second.price.units < first.price.units ∨
    second.price.units = first.price.units ∧ second.quantity ≤ first.quantity) validated
  have crossing_sorted := sorted.sublist (List.filter_sublist (p := fun level => decide (accepts limit (unitsAt level.price))))
  unfold rungsOf
  rw [List.pairwise_map, List.pairwise_map]
  apply crossing_sorted.imp
  intro first second ordered
  exact (direction.signed _ _).1 (direction.best_first first.price second.price (by omega))

variable [DecidableRel better]

theorem rungsOf_validated (limit : ℤ)
    (read : levels.mapM (readLevel ranges) = .ok validated) :
    (rungsOf unitsAt (crossing (accepts limit) unitsAt validated)).map (Prod.map (amount priceScale) (amount quantityScale)) =
      rungsAt priceAt (better · (amount priceScale limit)) levels := by
  have related := forall₂_of_mapM read
  clear read
  induction related with
  | nil => rfl
  | @cons level depth levels validated head _ ih =>
    have ⟨price, quantity⟩ := amounts_of_readLevel head
    have at_price : amount priceScale (unitsAt depth.price) = priceAt level.price.value := by
      rw [direction.priced, price]
    have same : accepts limit (unitsAt depth.price) ↔ better (priceAt level.price.value) (amount priceScale limit) := by
      rw [direction.accepted, at_price]
    by_cases admitted : accepts limit (unitsAt depth.price)
    · rw [crossing_cons_of_accepted admitted, rungsAt, List.filter_cons_of_pos (by simpa using same.1 admitted), List.map_cons]
      unfold rungsAt at ih
      rw [← ih, rungsOf, List.map_cons, List.map_cons, Prod.map_apply, at_price, quantity]
      rfl
    · rw [crossing_cons_of_refused admitted, ih, rungsAt, rungsAt, List.filter_cons_of_neg (by simpa using fun admits => admitted (same.2 admits))]

theorem rungsOf_bestFirst (limit : ℤ)
    (read : levels.mapM (readLevel ranges) = .ok validated) :
    ((rungsOf unitsAt (crossing (accepts limit) unitsAt (bestFirst validated))).map (Prod.map (amount priceScale) (amount quantityScale))).Perm
      (rungsAt priceAt (better · (amount priceScale limit)) levels) := by
  rw [← rungsOf_validated direction limit read]
  have sorted : (bestFirst validated).Perm validated := List.perm_insertionSort _ validated
  exact ((sorted.filter _).map _).map _

theorem settlesBest_of_sweeps
    (read : levels.mapM (readLevel ranges) = .ok validated) {requested : ℤ} (positive : 0 < requested)
    {walk : Walk requested (accepts limit)} (swept : Sweeps unitsAt (bestFirst validated) (Walk.start positive) walk)
    (reasons : FillReasons) (formulaVersion : String) :
    SettlesBest better (rungsAt priceAt (better · (amount priceScale limit)) levels) (amount quantityScale requested) (amount priceScale limit)
      (walk.result validated reasons formulaVersion) := by
  have perm := rungsOf_bestFirst direction limit read
  have sorted := bestFirst_sorted direction limit validated
  have sized := rungsOf_sized unitsAt (crossing (accepts limit) unitsAt (bestFirst validated))
  have bought := swept.bought
  have paid := swept.paid
  have ⟨used, fills, sublist, taken, appended⟩ := swept.taken
  have all_taken : List.Forall₂ (TakenFrom unitsAt) walk.fills used := appended ▸ taken
  have inside : (rungsOf unitsAt used).Sublist (rungsOf unitsAt (crossing (accepts limit) unitsAt (bestFirst validated))) := sublist.map _
  generalize rungsOf unitsAt (crossing (accepts limit) unitsAt (bestFirst validated)) = rungs at perm sorted sized bought paid inside
  have filled : (sweep requested rungs).sum = requested - walk.remaining := bought
  have spent : cost rungs (sweep requested rungs) = walk.notional := (sub_zero walk.notional) ▸ paid
  have monotone : Monotone (amount quantityScale) := fun _ _ le => amount_le_amount.2 le
  have swept_amounts := sweep_map (amount quantityScale) monotone (amount priceScale) requested rungs
  have requested_nonneg : 0 ≤ amount quantityScale requested := (map_zero (amount quantityScale)) ▸ amount_le_amount.2 positive.le
  have sized_amounts : ∀ rung ∈ rungs.map (Prod.map (amount priceScale) (amount quantityScale)), 0 ≤ rung.2 := by
    intro rung member
    have ⟨other, inside, same⟩ := List.mem_map.1 member
    rw [← same, Prod.map_snd, ← map_zero (amount quantityScale)]
    exact amount_le_amount.2 (sized other inside)
  have filled_amount : (sweep (amount quantityScale requested) (rungs.map (Prod.map (amount priceScale) (amount quantityScale)))).sum =
      amount quantityScale (requested - walk.remaining) := by
    rw [swept_amounts, ← map_list_sum, filled]
  have spent_amount : cost (rungs.map (Prod.map (amount priceScale) (amount quantityScale)))
      (sweep (amount quantityScale requested) (rungs.map (Prod.map (amount priceScale) (amount quantityScale)))) =
        amount (priceScale + quantityScale) walk.notional := by
    rw [swept_amounts, cost_map _ _ (amount (priceScale + quantityScale)) (amount_mul priceScale quantityScale), spent]
  constructor
  case requested_eq => rfl
  case conserved => exact (walk.result validated reasons formulaVersion).conserved
  case filled_sum =>
    have total := walk.filled
    exact eq_sub_of_add_eq total
  case within =>
    intro fill member
    exact (direction.accepted limit fill.price).1 (walk.priced fill member).2.2.2.1
  case notional_sum =>
    have each : (walk.fills.map fun fill => amount priceScale fill.price * amount quantityScale fill.quantity) =
        (walk.fills.map PaperFill.notional).map (amount (priceScale + quantityScale)) := by
      rw [List.map_map]
      apply List.map_congr_left
      intro fill member
      rw [amount_mul, Function.comp_apply, (walk.priced fill member).2.2.2.2]
    exact (congrArg _ walk.notional_sum).trans ((map_list_sum _ _).trans (congrArg List.sum each.symm))
  case displayed =>
    refine ⟨(rungsOf unitsAt used).map (Prod.map (amount priceScale) (amount quantityScale)), perm.subperm_left.1 (inside.map _).subperm, ?_⟩
    unfold rungsOf
    rw [List.forall₂_map_right_iff, List.forall₂_map_right_iff]
    apply all_taken.imp
    intro fill level taken
    exact ⟨congrArg _ taken.1, taken.2.1, amount_le_amount.2 taken.2.2⟩
  case maximal =>
    have total := sweep_sum requested_nonneg sized_amounts
    rw [filled_amount] at total
    exact total.trans (congrArg _ (perm.map Prod.snd).sum_eq)
  case best =>
    intro amounts allocated sum
    have optimal := sweep_best requested_nonneg sized_amounts sorted perm allocated (sum.trans filled_amount.symm)
    rw [spent_amount] at optimal
    exact (direction.signed _ _).2 optimal
  case average_none =>
    have empty := fills_eq_nil_iff walk
    unfold Walk.result averageFillPrice
    rw [empty]
    simp
  case average_between =>
    intro mean found
    have ⟨low, low_member, high, high_member, below, above⟩ := averageFillPrice_between walk found
    have finer (price : ℤ) : amount priceScale price = amount 18 (price * 10 ^ 12) := by
      rw [amount_apply, amount_apply]
      push_cast [priceScale]
      ring
    exact ⟨low, low_member, high, high_member, finer low.price ▸ amount_le_amount.2 below, finer high.price ▸ amount_le_amount.2 above⟩

theorem simulateIoc_settlesBest {limitField : String}
    {reasons : FillReasons} {formulaVersion : String} {side : Outcome} {quantity limit : Decimal} {result : PaperFillResult}
    (returned : simulateIoc limitField reasons formulaVersion accepts executionPrice side levels quantity limit ranges = .ok result) :
    SettlesBest better (rungsAt priceAt (better · limit.value) levels) quantity.value limit.value result := by
  have ⟨quantityUnits, sized, returned⟩ := bind_ok.1 returned
  by_cases positive : 0 < quantityUnits
  · rw [dif_pos positive] at returned
    have ⟨limitUnits, priced, returned⟩ := bind_ok.1 returned
    by_cases outside : limitUnits ≤ 0 ∨ priceUnits ≤ limitUnits
    · rw [if_pos outside] at returned
      cases returned
    · rw [if_neg outside] at returned
      have ⟨onTick, _, returned⟩ := bind_ok.1 returned
      split at returned
      · have ⟨validated, read, returned⟩ := bind_ok.1 returned
        have ⟨walk, walked, same⟩ := bind_ok.1 returned
        have swept := walkDepth_sweeps direction.executed positive walked
        have settled := settlesBest_of_sweeps direction read positive swept reasons formulaVersion
        rw [amount_of_toScaledInt sized, amount_of_toScaledInt priced] at settled
        exact Except.ok.inj same ▸ settled
      · cases returned
  · rw [dif_neg positive] at returned
    cases returned

end Settlement

theorem buyDirection (ranges : List PriceRange) :
    Direction (· ≤ ·) 1 (1 - ·) (fun limit price => price ≤ limit) (complementPrice ranges) (fun source => priceUnits - source.units) := by
  constructor
  case signed => intro first second; rw [one_mul, one_mul]
  case accepted => intro limit price; exact amount_le_amount.symm
  case executed =>
    intro source price executed
    have ⟨onTick, _, rest⟩ := bind_ok.1 executed
    split at rest <;> cases rest
    rfl
  case priced =>
    intro source
    have whole : amount priceScale priceUnits = 1 := by
      rw [amount_apply]
      norm_num [priceScale, priceUnits]
    rw [map_sub, whole]
  case best_first => intro first second below; exact amount_le_amount.2 (by omega)

theorem sellDirection : Direction (· ≥ ·) (-1) id (fun minimum price => minimum ≤ price) .ok Price.units := by
  constructor
  case signed => intro first second; simp
  case accepted => intro minimum price; exact amount_le_amount.symm
  case executed => intro source price executed; cases executed; rfl
  case priced => intro source; rfl
  case best_first => intro first second below; exact amount_le_amount.2 below

/-- A simulation that returns has filled as much as the depth within the limit allows, at the best notional of all allocations of
that quantity, and reports a mean between the prices of its fills. -/
theorem simulatedIoc_settlesBest (book : Book) (outcome : Outcome) (quantity limitPrice : Decimal) (ranges : List PriceRange)
    (result : PaperFillResult) :
    (simulateBuyIoc book outcome quantity limitPrice ranges = .ok result →
      SettlesBest (· ≤ ·) (rungsAt (1 - ·) (· ≤ limitPrice.value) (book.bids outcome.other)) quantity.value limitPrice.value result) ∧
    (simulateSellIoc book outcome quantity limitPrice ranges = .ok result →
      SettlesBest (· ≥ ·) (rungsAt id (· ≥ limitPrice.value) (book.bids outcome)) quantity.value limitPrice.value result) :=
  ⟨fun returned => simulateIoc_settlesBest (buyDirection ranges) returned, fun returned => simulateIoc_settlesBest sellDirection returned⟩

def twoBids : Book where
  yesBids := []
  noBids := [{ price := { coefficient := 40, exponent := -2 }, quantity := { coefficient := 5, exponent := 0 } },
    { price := { coefficient := 45, exponent := -2 }, quantity := { coefficient := 2, exponent := 0 } }]

def centRange : PriceRange where
  start := { coefficient := 0, exponent := 0 }
  stop := { coefficient := 1, exponent := 0 }
  step := { coefficient := 1, exponent := -2 }

/-- Three contracts at no more than 60 cents. -/
theorem twoBids_settlesBest : ∃ result,
    simulateBuyIoc twoBids .yes { coefficient := 3, exponent := 0 } { coefficient := 60, exponent := -2 } [centRange] = .ok result ∧
      SettlesBest (· ≤ ·) (rungsAt (1 - ·) (· ≤ (Decimal.mk false 60 (-2)).value) (twoBids.bids .no)) (Decimal.mk false 3 0).value
        (Decimal.mk false 60 (-2)).value result :=
  ⟨_, rfl, (simulatedIoc_settlesBest twoBids .yes _ _ [centRange] _).1 rfl⟩

end Callisto.Paper.Displayed
