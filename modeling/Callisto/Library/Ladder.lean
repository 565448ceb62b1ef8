import Mathlib.Algebra.BigOperators.Group.List.Basic
import Mathlib.Algebra.BigOperators.Ring.List
import Mathlib.Algebra.Order.BigOperators.Group.List
import Mathlib.Algebra.Order.Field.Basic
import Mathlib.Tactic.Linarith
import Mathlib.Tactic.Ring

/-! Buying from a ladder of rungs, each a price and a capacity: the sweep that takes from one rung after the other,
how much it buys, and that it buys as cheaply as any allocation when the rungs stand cheapest first. -/

namespace Callisto.Library.Ladder

variable {R : Type*}

def sweep [LinearOrder R] [Sub R] : R → List (R × R) → List R
  | _, [] => []
  | wanted, (_, capacity) :: rest => min wanted capacity :: sweep (wanted - min wanted capacity) rest

def cost [Mul R] [AddMonoid R] : List (R × R) → List R → R
  | (price, _) :: rest, amount :: amounts => price * amount + cost rest amounts
  | _, _ => 0

def IsAllocation [LE R] [Zero R] (rungs : List (R × R)) (amounts : List R) : Prop :=
  List.Forall₂ (fun rung amount => 0 ≤ amount ∧ amount ≤ rung.2) rungs amounts

/-- What each rung can at most save against buying at the price `rate` throughout. -/
def bound [CommRing R] [LinearOrder R] (rate bought : R) (rungs : List (R × R)) : R :=
  rate * bought + (rungs.map fun rung => min 0 (rung.1 - rate) * rung.2).sum

section

variable [CommRing R]

theorem cost_replicate_zero (rungs : List (R × R)) : cost rungs (List.replicate rungs.length 0) = 0 := by
  induction rungs with
  | nil => rfl
  | cons rung rest ih =>
    rw [List.length_cons, List.replicate_succ, cost, ih, mul_zero, add_zero]

theorem cost_scaled (factor : R) (rungs : List (R × R)) (amounts : List R) : cost rungs (amounts.map (factor * ·)) = factor * cost rungs amounts := by
  induction rungs generalizing amounts with
  | nil => exact (mul_zero factor).symm
  | cons rung rest ih =>
    cases amounts with
    | nil => exact (mul_zero factor).symm
    | cons amount amounts =>
      rw [List.map_cons, cost, cost, ih]
      ring

variable [LinearOrder R]

theorem sweep_zero {rungs : List (R × R)} (sized : ∀ rung ∈ rungs, 0 ≤ rung.2) : sweep 0 rungs = List.replicate rungs.length 0 := by
  induction rungs with
  | nil => rfl
  | cons rung rest ih =>
    have head : 0 ≤ rung.2 := sized rung List.mem_cons_self
    rw [sweep, min_eq_left head, sub_zero, ih fun other member => sized other (List.mem_cons_of_mem _ member)]
    rfl

theorem cost_sweep_within {wanted : R} {rung : R × R} {rest : List (R × R)} (sized : ∀ other ∈ rest, 0 ≤ other.2) (enough : wanted ≤ rung.2) :
    cost (rung :: rest) (sweep wanted (rung :: rest)) = rung.1 * wanted := by
  rw [sweep, min_eq_left enough, sub_self, sweep_zero sized, cost, cost_replicate_zero, add_zero]

theorem cost_sweep_beyond {wanted : R} {rung : R × R} {rest : List (R × R)} (short : rung.2 ≤ wanted) :
    cost (rung :: rest) (sweep wanted (rung :: rest)) = rung.1 * rung.2 + cost rest (sweep (wanted - rung.2) rest) := by
  rw [sweep, min_eq_right short, cost]

theorem bound_perm {rate bought : R} {rungs others : List (R × R)} (same : rungs.Perm others) :
    bound rate bought rungs = bound rate bought others := by
  unfold bound
  rw [(same.map _).sum_eq]

end

theorem sweep_map {S : Type*} [AddGroup R] [LinearOrder R] [AddGroup S] [LinearOrder S] (amount : R →+ S) (monotone : Monotone amount)
    (price : R → S) (wanted : R) (rungs : List (R × R)) :
    sweep (amount wanted) (rungs.map (Prod.map price amount)) = (sweep wanted rungs).map amount := by
  induction rungs generalizing wanted with
  | nil => rfl
  | cons rung rest ih =>
    simp only [List.map_cons, Prod.map_snd, sweep]
    rw [← monotone.map_min, ← map_sub, ih]

theorem cost_map {S : Type*} [Mul R] [AddMonoid R] [Mul S] [AddMonoid S] (price amount : R → S) (notional : R →+ S)
    (product : ∀ first second, price first * amount second = notional (first * second)) (rungs : List (R × R)) (amounts : List R) :
    cost (rungs.map (Prod.map price amount)) (amounts.map amount) = notional (cost rungs amounts) := by
  induction rungs generalizing amounts with
  | nil => exact (map_zero notional).symm
  | cons rung rest ih =>
    cases amounts with
    | nil => exact (map_zero notional).symm
    | cons taken amounts =>
      simp only [List.map_cons, Prod.map, cost]
      rw [product, ih, ← map_add]

variable [CommRing R] [LinearOrder R] [IsStrictOrderedRing R] {rungs : List (R × R)}

theorem sweep_isAllocation {wanted : R} (wanted_nonneg : 0 ≤ wanted) (sized : ∀ rung ∈ rungs, 0 ≤ rung.2) :
    IsAllocation rungs (sweep wanted rungs) := by
  induction rungs generalizing wanted with
  | nil => exact List.Forall₂.nil
  | cons rung rest ih =>
    have head : 0 ≤ rung.2 := sized rung List.mem_cons_self
    have left : 0 ≤ wanted - min wanted rung.2 := sub_nonneg.2 (min_le_left _ _)
    exact List.Forall₂.cons ⟨le_min wanted_nonneg head, min_le_right _ _⟩
      (ih left fun other member => sized other (List.mem_cons_of_mem _ member))

theorem cost_sweep_lt {first second : R} (nonneg : 0 ≤ first) (less : first < second)
    (sized : ∀ rung ∈ rungs, 0 ≤ rung.2) (priced : ∀ rung ∈ rungs, 0 < rung.1) (available : second ≤ (rungs.map Prod.snd).sum) :
    cost rungs (sweep first rungs) < cost rungs (sweep second rungs) := by
  induction rungs generalizing first second with
  | nil => exact absurd (nonneg.trans_lt less) (not_lt.2 available)
  | cons rung rest ih =>
    have ⟨_, others⟩ := List.forall_mem_cons.1 sized
    have ⟨price, prices⟩ := List.forall_mem_cons.1 priced
    rw [List.map_cons, List.sum_cons] at available
    have later : second - rung.2 ≤ (rest.map Prod.snd).sum := by linarith
    by_cases enough : second ≤ rung.2
    · rw [cost_sweep_within others enough, cost_sweep_within others (less.le.trans enough)]
      exact mul_lt_mul_of_pos_left less price
    · have over_ : 0 < second - rung.2 := sub_pos.2 (not_le.1 enough)
      rw [cost_sweep_beyond (not_le.1 enough).le]
      by_cases inside : first ≤ rung.2
      · have more := ih le_rfl over_ others prices later
        rw [sweep_zero others, cost_replicate_zero] at more
        rw [cost_sweep_within others inside]
        exact (mul_le_mul_of_nonneg_left inside price.le).trans_lt (lt_add_of_pos_right _ more)
      · rw [cost_sweep_beyond (not_le.1 inside).le]
        exact add_lt_add_right (ih (sub_nonneg.2 (not_le.1 inside).le) (sub_lt_sub_right less _) others prices later) _

theorem sweep_sum {wanted : R} (wanted_nonneg : 0 ≤ wanted) (sized : ∀ rung ∈ rungs, 0 ≤ rung.2) :
    (sweep wanted rungs).sum = min wanted (rungs.map Prod.snd).sum := by
  induction rungs generalizing wanted with
  | nil => exact (min_eq_right wanted_nonneg).symm
  | cons rung rest ih =>
    have others : ∀ other ∈ rest, 0 ≤ other.2 := fun other member => sized other (List.mem_cons_of_mem _ member)
    have left : 0 ≤ wanted - min wanted rung.2 := sub_nonneg.2 (min_le_left _ _)
    have total : 0 ≤ (rest.map Prod.snd).sum := by
      apply List.sum_nonneg
      intro capacity member
      have ⟨other, inside, same⟩ := List.mem_map.1 member
      exact same ▸ others other inside
    rw [sweep, List.sum_cons, ih left others, List.map_cons, List.sum_cons]
    by_cases enough : wanted ≤ rung.2
    · rw [min_eq_left enough, sub_self, min_eq_left total, add_zero]
      exact (min_eq_left (enough.trans (le_add_of_nonneg_right total))).symm
    · have short : rung.2 ≤ wanted := (not_le.1 enough).le
      rw [min_eq_right short, ← min_add_add_left, add_sub_cancel]

theorem cost_sweep_all (sized : ∀ rung ∈ rungs, 0 ≤ rung.2) :
    cost rungs (sweep (rungs.map Prod.snd).sum rungs) = (rungs.map fun rung => rung.1 * rung.2).sum := by
  induction rungs with
  | nil => rfl
  | cons rung rest ih =>
    have ⟨_, others⟩ := List.forall_mem_cons.1 sized
    have remainder : 0 ≤ (rest.map Prod.snd).sum := List.sum_nonneg fun _ member =>
      have ⟨other, inside, same⟩ := List.mem_map.1 member
      same ▸ others other inside
    rw [List.map_cons, List.sum_cons, cost_sweep_beyond (le_add_of_nonneg_right remainder), add_sub_cancel_left, ih others, List.map_cons,
      List.sum_cons]

theorem cost_sweep_le {first second : R} (nonneg : 0 ≤ first) (most : first ≤ second)
    (sized : ∀ rung ∈ rungs, 0 ≤ rung.2) (priced : ∀ rung ∈ rungs, 0 < rung.1) (available : second ≤ (rungs.map Prod.snd).sum) :
    cost rungs (sweep first rungs) ≤ cost rungs (sweep second rungs) := by
  cases most.eq_or_lt with
  | inl same => rw [same]
  | inr less => exact (cost_sweep_lt nonneg less sized priced available).le

theorem bound_le_cost (rate : R) {amounts : List R} (allocated : IsAllocation rungs amounts) :
    bound rate amounts.sum rungs ≤ cost rungs amounts := by
  unfold bound
  induction allocated with
  | nil => simp [cost]
  | @cons rung amount rest amounts taken _ ih =>
    have ⟨taken_nonneg, within⟩ := taken
    have saved : min 0 (rung.1 - rate) * rung.2 ≤ (rung.1 - rate) * amount := by
      calc min 0 (rung.1 - rate) * rung.2
          ≤ min 0 (rung.1 - rate) * amount := mul_le_mul_of_nonpos_left within (min_le_left _ _)
        _ ≤ (rung.1 - rate) * amount := mul_le_mul_of_nonneg_right (min_le_right _ _) taken_nonneg
    rw [List.sum_cons, List.map_cons, List.sum_cons, cost]
    linarith

theorem bound_above {rate bought : R} (above : ∀ rung ∈ rungs, rate ≤ rung.1) : bound rate bought rungs = rate * bought := by
  unfold bound
  have nothing : (rungs.map fun rung => min 0 (rung.1 - rate) * rung.2) = rungs.map fun _ => 0 := by
    apply List.map_congr_left
    intro rung member
    rw [min_eq_left (sub_nonneg.2 (above rung member)), zero_mul]
  rw [nothing, List.map_const', List.sum_replicate, nsmul_zero, add_zero]

theorem mul_sum_le_cost {rate : R} (above : ∀ rung ∈ rungs, rate ≤ rung.1) {amounts : List R}
    (allocated : IsAllocation rungs amounts) : rate * amounts.sum ≤ cost rungs amounts := by
  rw [← bound_above above]
  exact bound_le_cost rate allocated

theorem cost_le_mul_sum {rate : R} (below : ∀ rung ∈ rungs, rung.1 ≤ rate) {amounts : List R}
    (allocated : IsAllocation rungs amounts) : cost rungs amounts ≤ rate * amounts.sum := by
  induction allocated with
  | nil => exact (mul_zero rate).ge
  | @cons rung amount rest amounts taken _ ih =>
    have ⟨head, others⟩ := List.forall_mem_cons.1 below
    rw [List.sum_cons, mul_add, cost]
    exact add_le_add (mul_le_mul_of_nonneg_right head taken.1) (ih others)

theorem exists_rate {wanted : R} (wanted_nonneg : 0 ≤ wanted) (sized : ∀ rung ∈ rungs, 0 ≤ rung.2)
    (sorted : rungs.Pairwise fun first second => first.1 ≤ second.1) :
    ∃ rate, (∀ first, (∀ rung ∈ rungs, first ≤ rung.1) → rungs = [] ∨ first ≤ rate) ∧
      cost rungs (sweep wanted rungs) = bound rate (sweep wanted rungs).sum rungs := by
  induction rungs generalizing wanted with
  | nil => exact ⟨0, fun _ _ => Or.inl rfl, by simp [cost, sweep, bound]⟩
  | cons rung rest ih =>
    have others : ∀ other ∈ rest, 0 ≤ other.2 := fun other member => sized other (List.mem_cons_of_mem _ member)
    have ⟨cheapest, rest_sorted⟩ := List.pairwise_cons.1 sorted
    by_cases enough : wanted ≤ rung.2
    · -- the rung holds all that is wanted, and sets the rate
      have flat : ∀ other ∈ rung :: rest, rung.1 ≤ other.1 := by
        intro other member
        cases List.mem_cons.1 member with
        | inl same => exact same ▸ le_rfl
        | inr inside => exact cheapest other inside
      have amounts : sweep wanted (rung :: rest) = wanted :: List.replicate rest.length 0 := by
        rw [sweep, min_eq_left enough, sub_self, sweep_zero others]
      have paid : cost (rung :: rest) (sweep wanted (rung :: rest)) = rung.1 * wanted := by
        rw [amounts, cost, cost_replicate_zero, add_zero]
      have bought : (sweep wanted (rung :: rest)).sum = wanted := by
        rw [amounts, List.sum_cons, List.sum_replicate, nsmul_zero, add_zero]
      exact ⟨rung.1, fun first below => Or.inr (below rung List.mem_cons_self), by rw [paid, bought, bound_above flat]⟩
    · -- the rung is bought out, and the rate is that of the rest
      have short : rung.2 ≤ wanted := (not_le.1 enough).le
      have left : 0 ≤ wanted - rung.2 := sub_nonneg.2 short
      have ⟨rate, above, paid⟩ := ih left others rest_sorted
      have amounts : sweep wanted (rung :: rest) = rung.2 :: sweep (wanted - rung.2) rest := by
        rw [sweep, min_eq_right short]
      cases above rung.1 cheapest with
      | inr cheaper =>
        have saved : min 0 (rung.1 - rate) = rung.1 - rate := min_eq_right (sub_nonpos.2 cheaper)
        refine ⟨rate, fun first below => Or.inr ((below rung List.mem_cons_self).trans cheaper), ?_⟩
        rw [amounts, cost, paid]
        unfold bound
        rw [List.map_cons, List.sum_cons, List.sum_cons, saved]
        ring
      | inl last =>
        subst last
        refine ⟨rung.1, fun first below => Or.inr (below rung List.mem_cons_self), ?_⟩
        rw [amounts]
        simp [cost, sweep, bound]

/-- Cheapest first, no allocation buys as much as a sweep for less, in whatever order it reads the rungs. -/
theorem sweep_optimal {wanted : R} (wanted_nonneg : 0 ≤ wanted) {rungs others : List (R × R)} (sized : ∀ rung ∈ rungs, 0 ≤ rung.2)
    (sorted : rungs.Pairwise fun first second => first.1 ≤ second.1) (same : rungs.Perm others) {amounts : List R}
    (allocated : IsAllocation others amounts) (bought : amounts.sum = (sweep wanted rungs).sum) :
    cost rungs (sweep wanted rungs) ≤ cost others amounts := by
  have ⟨rate, _, paid⟩ := exists_rate wanted_nonneg sized sorted
  calc cost rungs (sweep wanted rungs)
      = bound rate (sweep wanted rungs).sum rungs := paid
    _ = bound rate amounts.sum others := by rw [bought, bound_perm same]
    _ ≤ cost others amounts := bound_le_cost rate allocated

theorem sweep_best {sign wanted : R} (wanted_nonneg : 0 ≤ wanted) {rungs others : List (R × R)} (sized : ∀ rung ∈ rungs, 0 ≤ rung.2)
    (sorted : rungs.Pairwise fun first second => sign * first.1 ≤ sign * second.1) (same : rungs.Perm others) {amounts : List R}
    (allocated : IsAllocation others amounts) (bought : amounts.sum = (sweep wanted rungs).sum) :
    sign * cost rungs (sweep wanted rungs) ≤ sign * cost others amounts := by
  have weighted (ladder : List (R × R)) (taken : List R) :
      cost (ladder.map (Prod.map (sign * ·) id)) taken = sign * cost ladder taken := by
    have mapped := cost_map (sign * ·) id (AddMonoidHom.mulLeft sign) (mul_assoc sign) ladder taken
    rwa [List.map_id] at mapped
  have swept : sweep wanted (rungs.map (Prod.map (sign * ·) id)) = sweep wanted rungs := by
    have mapped := sweep_map (AddMonoidHom.id R) monotone_id (sign * ·) wanted rungs
    rwa [AddMonoidHom.id_apply, AddMonoidHom.coe_id, List.map_id] at mapped
  have sized_weighted : ∀ rung ∈ rungs.map (Prod.map (sign * ·) id), 0 ≤ rung.2 := by
    intro rung member
    have ⟨other, inside, mapped⟩ := List.mem_map.1 member
    exact mapped ▸ sized other inside
  have allocated_weighted : IsAllocation (others.map (Prod.map (sign * ·) id)) amounts := List.forall₂_map_left_iff.2 allocated
  have optimal := sweep_optimal wanted_nonneg sized_weighted (List.pairwise_map.2 sorted) (same.map _) allocated_weighted
    (by rw [bought, swept])
  rwa [swept, weighted, weighted] at optimal

theorem cost_sweep_average {K : Type*} [Field K] [LinearOrder K] [IsStrictOrderedRing K] {first second : K} (nonneg : 0 ≤ first)
    (most : first ≤ second) (positive : 0 < second) {rungs : List (K × K)} (sized : ∀ rung ∈ rungs, 0 ≤ rung.2)
    (sorted : rungs.Pairwise fun first second => first.1 ≤ second.1) (available : second ≤ (rungs.map Prod.snd).sum) :
    cost rungs (sweep first rungs) ≤ first / second * cost rungs (sweep second rungs) := by
  have share_nonneg : 0 ≤ first / second := div_nonneg nonneg positive.le
  have share_le : first / second ≤ 1 := (div_le_one₀ positive).2 most
  have whole := sweep_isAllocation positive.le sized
  have scaled : IsAllocation rungs ((sweep second rungs).map (first / second * ·)) := by
    unfold IsAllocation
    rw [List.forall₂_map_right_iff]
    apply whole.imp
    intro rung amount taken
    exact ⟨mul_nonneg share_nonneg taken.1, (mul_le_of_le_one_left taken.1 share_le).trans taken.2⟩
  have bought : ((sweep second rungs).map (first / second * ·)).sum = (sweep first rungs).sum := by
    rw [List.sum_map_mul_left, List.map_id', sweep_sum positive.le sized, sweep_sum nonneg sized, min_eq_left available,
      min_eq_left (most.trans available), div_mul_cancel₀ _ positive.ne']
  have optimal := sweep_optimal nonneg sized sorted (List.Perm.refl rungs) scaled bought
  rwa [cost_scaled] at optimal

end Callisto.Library.Ladder
