import Mathlib.Algebra.BigOperators.Group.List.Basic
import Mathlib.Algebra.Order.BigOperators.Group.List
import Mathlib.Algebra.Order.Field.Basic
import Mathlib.Data.List.Forall2
import Mathlib.Data.Rat.Cast.Order
import Mathlib.Tactic.FieldSimp
import Mathlib.Tactic.Linarith
import Mathlib.Tactic.Positivity
import Mathlib.Tactic.Ring

/-! The notional of a bundle: how it is shared among the legs, and the least one at which each leg clears the venue's minimums. -/

namespace Callisto.Orders

/-- What the sizing reads of a leg, where the value is a number. -/
structure BundleLeg where
  notionalWeight : Option ℚ
  limitPrice : Option ℚ

namespace BundleLeg

def weight (leg : BundleLeg) : ℚ := max (1 / 10000) (leg.notionalWeight.getD 1)

def price (leg : BundleLeg) : ℚ := leg.limitPrice.getD 0

end BundleLeg

def totalWeight (legs : List BundleLeg) : ℚ := (legs.map BundleLeg.weight).sum

/-- `notionals[-1] += drift` -/
def addToLast (drift : ℚ) : List ℚ → List ℚ
  | [] => []
  | [last] => [last + drift]
  | notional :: rest => notional :: addToLast drift rest

/-- `allocate_leg_notionals` -/
def allocateLegNotionals (totalNotionalUsd : ℚ) (legs : List BundleLeg) : List ℚ :=
  let notional := max 0 totalNotionalUsd
  if legs = [] then []
  else if totalWeight legs ≤ 0 then legs.map fun _ => notional / legs.length
  else
    let notionals := legs.map fun leg => leg.weight / totalWeight legs * notional
    addToLast (notional - notionals.sum) notionals

def raiseMinimum (minOrder floorShares total : ℚ) (minimumTotal : ℚ) (leg : BundleLeg) : Option ℚ :=
  if leg.price ≤ 0 then none
  else
    let ordered := if 0 < minOrder then max minimumTotal (minOrder * total / leg.weight) else minimumTotal
    some (if 0 < floorShares then max ordered (floorShares * leg.price * total / leg.weight) else ordered)

/-- `bundle_minimum_executable_notional_usd` -/
def bundleMinimumExecutableNotionalUsd (legs : List BundleLeg) (minOrderSizeUsd minShares : ℚ) : Option ℚ :=
  if legs = [] then none
  else if totalWeight legs ≤ 0 then none
  else (legs.foldlM (raiseMinimum (max 0 minOrderSizeUsd) (max 0 minShares) (totalWeight legs)) 0).filter fun minimumTotal => 0 < minimumTotal

def Clears (legs : List BundleLeg) (minOrderSizeUsd minShares total : ℚ) : Prop :=
  List.Forall₂ (fun leg notional => minOrderSizeUsd ≤ notional ∧ minShares * BundleLeg.price leg ≤ notional) legs (allocateLegNotionals total legs)

def Unusable (legs : List BundleLeg) : Prop := legs = [] ∨ ∃ leg ∈ legs, leg.price ≤ 0

structure SizesBundle (legs : List BundleLeg) (minOrderSizeUsd minShares : ℚ) : Prop where
  least : ∀ minimum, bundleMinimumExecutableNotionalUsd legs minOrderSizeUsd minShares = some minimum →
    IsLeast { total | Clears legs minOrderSizeUsd minShares total } minimum
  none_iff : bundleMinimumExecutableNotionalUsd legs minOrderSizeUsd minShares = none ↔
    Clears legs minOrderSizeUsd minShares 0 ∨ Unusable legs
  shared : ∀ total, 0 ≤ total → List.Forall₂ (fun leg notional => 0 ≤ notional ∧ notional * totalWeight legs = BundleLeg.weight leg * total)
    legs (allocateLegNotionals total legs)
  summed : ∀ total, 0 ≤ total → legs ≠ [] → (allocateLegNotionals total legs).sum = total

theorem BundleLeg.weight_pos (leg : BundleLeg) : 0 < leg.weight := lt_max_of_lt_left (by norm_num)

theorem addToLast_zero (notionals : List ℚ) : addToLast 0 notionals = notionals := by
  induction notionals with
  | nil => rfl
  | cons notional rest ih =>
    cases rest with
    | nil => rw [addToLast, add_zero]
    | cons next rest =>
      rw [addToLast, ih]
      nofun

variable {legs : List BundleLeg}

theorem totalWeight_pos (some_leg : legs ≠ []) : 0 < totalWeight legs := by
  apply List.sum_pos
  · intro weight member
    have ⟨leg, _, same⟩ := List.mem_map.1 member
    exact same ▸ leg.weight_pos
  · exact fun empty => some_leg (List.map_eq_nil_iff.1 empty)

theorem sum_shares (legs : List BundleLeg) (total notional : ℚ) :
    (legs.map fun leg => leg.weight / total * notional).sum = totalWeight legs / total * notional := by
  unfold totalWeight
  induction legs with
  | nil => simp
  | cons leg rest ih =>
    rw [List.map_cons, List.sum_cons, List.map_cons, List.sum_cons, ih]
    ring

theorem allocateLegNotionals_eq (total : ℚ) (legs : List BundleLeg) :
    allocateLegNotionals total legs = legs.map fun leg => leg.weight / totalWeight legs * max 0 total := by
  unfold allocateLegNotionals
  by_cases empty : legs = []
  · rw [if_pos empty, empty, List.map_nil]
  · have positive := totalWeight_pos empty
    dsimp only
    rw [if_neg empty, if_neg (not_le.2 positive), sum_shares, div_self positive.ne', one_mul, sub_self, addToLast_zero]

theorem clears_leg_iff {leg : BundleLeg} {weights total minimum : ℚ} (positive : 0 < weights) (total_nonneg : 0 ≤ total) :
    minimum ≤ leg.weight / weights * total ↔ max 0 minimum * weights / leg.weight ≤ total := by
  have weight := leg.weight_pos
  have share : 0 ≤ leg.weight / weights * total := by positivity
  have lifted : minimum ≤ leg.weight / weights * total ↔ max 0 minimum ≤ leg.weight / weights * total :=
    ⟨fun clears => max_le share clears, fun clears => (le_max_right _ _).trans clears⟩
  rw [lifted, div_le_iff₀ weight, div_mul_eq_mul_div, le_div_iff₀ positive, mul_comm total]

theorem raiseMinimum_eq (weights : ℚ) {minOrder floorShares acc : ℚ} {leg : BundleLeg} (nonneg : 0 ≤ acc) (order_nonneg : 0 ≤ minOrder)
    (floor_nonneg : 0 ≤ floorShares) (priced : 0 < leg.price) : raiseMinimum minOrder floorShares weights acc leg =
      some (max (max acc (minOrder * weights / leg.weight)) (floorShares * leg.price * weights / leg.weight)) := by
  have ordered : (if 0 < minOrder then max acc (minOrder * weights / leg.weight) else acc) = max acc (minOrder * weights / leg.weight) := by
    split_ifs with some_order
    · rfl
    · rw [le_antisymm (not_lt.1 some_order) order_nonneg, zero_mul, zero_div, max_eq_left nonneg]
  unfold raiseMinimum
  rw [if_neg (not_le.2 priced), ordered]
  dsimp only
  split_ifs with some_floor
  · rfl
  · rw [le_antisymm (not_lt.1 some_floor) floor_nonneg, zero_mul, zero_mul, zero_div, max_eq_left (nonneg.trans (le_max_left _ _))]

theorem foldlM_raiseMinimum (weights : ℚ) {minOrder floorShares acc : ℚ} (nonneg : 0 ≤ acc) (order_nonneg : 0 ≤ minOrder)
    (floor_nonneg : 0 ≤ floorShares) (priced : ∀ leg ∈ legs, 0 < leg.price) :
    ∃ minimum, legs.foldlM (raiseMinimum minOrder floorShares weights) acc = some minimum ∧ ∀ bound, minimum ≤ bound ↔ acc ≤ bound ∧
      ∀ leg ∈ legs, minOrder * weights / leg.weight ≤ bound ∧ floorShares * leg.price * weights / leg.weight ≤ bound := by
  induction legs generalizing acc with
  | nil => exact ⟨acc, rfl, by simp⟩
  | cons leg rest ih =>
    have step := raiseMinimum_eq weights nonneg order_nonneg floor_nonneg (priced leg List.mem_cons_self)
    have raised_nonneg : 0 ≤ max (max acc (minOrder * weights / leg.weight)) (floorShares * leg.price * weights / leg.weight) :=
      nonneg.trans ((le_max_left _ _).trans (le_max_left _ _))
    have ⟨minimum, folded, bounded⟩ := ih raised_nonneg fun other member => priced other (List.mem_cons_of_mem _ member)
    refine ⟨minimum, ?_, ?_⟩
    · rw [List.foldlM_cons, step]
      exact folded
    · intro bound
      rw [bounded, max_le_iff, max_le_iff, List.forall_mem_cons, and_assoc, and_assoc, and_assoc]

theorem foldlM_raiseMinimum_unpriced {minOrder floorShares weights acc : ℚ} (unpriced : ∃ leg ∈ legs, leg.price ≤ 0) :
    legs.foldlM (raiseMinimum minOrder floorShares weights) acc = none := by
  induction legs generalizing acc with
  | nil =>
    have ⟨_, member, _⟩ := unpriced
    cases member
  | cons leg rest ih =>
    rw [List.foldlM_cons]
    by_cases here : leg.price ≤ 0
    · rw [raiseMinimum, if_pos here]
      rfl
    · have ⟨other, member, missing⟩ := unpriced
      cases List.mem_cons.1 member with
      | inl same => exact absurd (same ▸ missing) here
      | inr inside =>
        rw [raiseMinimum, if_neg here]
        exact ih ⟨other, inside, missing⟩

theorem clears_iff {minOrderSizeUsd minShares total : ℚ} (some_leg : legs ≠ []) (priced : ∀ leg ∈ legs, 0 < leg.price)
    (total_nonneg : 0 ≤ total) : Clears legs minOrderSizeUsd minShares total ↔
      ∀ leg ∈ legs, max 0 minOrderSizeUsd * totalWeight legs / leg.weight ≤ total ∧
        max 0 minShares * leg.price * totalWeight legs / leg.weight ≤ total := by
  unfold Clears
  rw [allocateLegNotionals_eq, List.forall₂_map_right_iff, List.forall₂_same, max_eq_right total_nonneg]
  apply forall₂_congr
  intro leg member
  have price := priced leg member
  have floor : max 0 (minShares * leg.price) = max 0 minShares * leg.price := by
    rw [max_mul_of_nonneg _ _ price.le, zero_mul]
  rw [clears_leg_iff (totalWeight_pos some_leg) total_nonneg, clears_leg_iff (totalWeight_pos some_leg) total_nonneg, floor]

theorem clears_max_zero {minOrderSizeUsd minShares total : ℚ} :
    Clears legs minOrderSizeUsd minShares total ↔ Clears legs minOrderSizeUsd minShares (max 0 total) := by
  unfold Clears
  rw [allocateLegNotionals_eq, allocateLegNotionals_eq, max_eq_right (le_max_left 0 total)]

theorem bundleMinimum_usable (minOrderSizeUsd minShares : ℚ) (some_leg : legs ≠ []) (priced : ∀ leg ∈ legs, 0 < leg.price) :
    ∃ minimum, (∀ total, 0 ≤ total → (Clears legs minOrderSizeUsd minShares total ↔ minimum ≤ total)) ∧
      bundleMinimumExecutableNotionalUsd legs minOrderSizeUsd minShares = if 0 < minimum then some minimum else none := by
  have ⟨minimum, folded, bounded⟩ := foldlM_raiseMinimum (totalWeight legs) le_rfl (le_max_left 0 minOrderSizeUsd)
    (le_max_left 0 minShares) priced
  refine ⟨minimum, ?_, ?_⟩
  · intro total nonneg
    rw [clears_iff some_leg priced nonneg, bounded]
    exact (and_iff_right nonneg).symm
  · unfold bundleMinimumExecutableNotionalUsd
    rw [if_neg some_leg, if_neg (not_le.2 (totalWeight_pos some_leg)), folded]
    by_cases positive : 0 < minimum
    · rw [if_pos positive]
      exact Option.filter_some_pos (decide_eq_true positive)
    · rw [if_neg positive]
      exact Option.filter_some_neg (by simpa using positive)

/-- The bundle minimum and the allocation of any bundle agree. -/
theorem bundle_sized (legs : List BundleLeg) (minOrderSizeUsd minShares : ℚ) : SizesBundle legs minOrderSizeUsd minShares := by
  have shared : ∀ total, 0 ≤ total → List.Forall₂ (fun leg notional => 0 ≤ notional ∧
      notional * totalWeight legs = BundleLeg.weight leg * total) legs (allocateLegNotionals total legs) := by
    intro total nonneg
    rw [allocateLegNotionals_eq, List.forall₂_map_right_iff, List.forall₂_same, max_eq_right nonneg]
    intro leg member
    have positive := totalWeight_pos (List.ne_nil_of_mem member)
    have weight := leg.weight_pos
    exact ⟨by positivity, by field_simp⟩
  have summed : ∀ total, 0 ≤ total → legs ≠ [] → (allocateLegNotionals total legs).sum = total := by
    intro total nonneg some_leg
    rw [allocateLegNotionals_eq, sum_shares, div_self (totalWeight_pos some_leg).ne', one_mul, max_eq_right nonneg]
  by_cases usable : Unusable legs
  · have none : bundleMinimumExecutableNotionalUsd legs minOrderSizeUsd minShares = none := by
      unfold bundleMinimumExecutableNotionalUsd
      cases usable with
      | inl empty => rw [if_pos empty]
      | inr unpriced =>
        rw [foldlM_raiseMinimum_unpriced unpriced]
        split_ifs <;> rfl
    exact ⟨fun minimum found => absurd (none.symm.trans found) nofun, iff_of_true none (Or.inr usable), shared, summed⟩
  · have ⟨some_leg, others⟩ := not_or.1 usable
    have priced : ∀ leg ∈ legs, 0 < leg.price := fun leg member => not_le.1 fun unpriced => others ⟨leg, member, unpriced⟩
    have ⟨minimum, clears, returned⟩ := bundleMinimum_usable minOrderSizeUsd minShares some_leg priced
    refine ⟨?_, ?_, shared, summed⟩
    · intro returned_minimum found
      rw [returned] at found
      split_ifs at found with positive
      cases found
      refine ⟨(clears _ positive.le).2 le_rfl, ?_⟩
      intro total suffices_total
      have above := (clears _ (le_max_left 0 total)).1 (clears_max_zero.1 suffices_total)
      cases le_max_iff.1 above with
      | inl none => exact absurd positive (not_lt.2 none)
      | inr reached => exact reached
    · rw [returned, or_iff_left usable, clears 0 le_rfl]
      split_ifs with positive
      · exact iff_of_false nofun (not_le.2 positive)
      · exact iff_of_true rfl (not_lt.1 positive)

end Callisto.Orders
