import Mathlib.Tactic.FieldSimp
import Mathlib.Tactic.NormNum
import Callisto.Library.Ladder
import Callisto.Optimization.ExecutionEstimator

/-! A taker order sweeps the executable levels inside its limit, best first, up to its shares and its budget. -/

namespace Callisto.Optimization.Estimator

open Callisto.Library.Ladder

def rungsOf (side : Side) (worstPrice : Option ℚ) (depthFactor : ℚ) (displayed : List (ℚ × ℚ)) : List (ℚ × ℚ) :=
  (displayed.filter fun level => ¬ Beyond side worstPrice level.1).map fun level => (level.1, max 0 (level.2 * depthFactor))

def depthOf (rungs : List (ℚ × ℚ)) : ℚ := (rungs.map Prod.snd).sum

variable {side : Side} {worstPrice : Option ℚ} {depthFactor : ℚ} {displayed : List (ℚ × ℚ)}

theorem rungsOf_cons_beyond {level : ℚ × ℚ} (beyond : Beyond side worstPrice level.1) :
    rungsOf side worstPrice depthFactor (level :: displayed) = rungsOf side worstPrice depthFactor displayed := by
  unfold rungsOf
  rw [List.filter_cons_of_neg (by simpa using beyond)]

theorem rungsOf_cons_inside {level : ℚ × ℚ} (inside : ¬ Beyond side worstPrice level.1) :
    rungsOf side worstPrice depthFactor (level :: displayed) =
      (level.1, max 0 (level.2 * depthFactor)) :: rungsOf side worstPrice depthFactor displayed := by
  unfold rungsOf
  rw [List.filter_cons_of_pos (by simpa using inside), List.map_cons]

theorem rungsOf_beyond (beyond : ∀ level ∈ displayed, Beyond side worstPrice level.1) : rungsOf side worstPrice depthFactor displayed = [] := by
  unfold rungsOf
  rw [List.filter_eq_nil_iff.2 fun level member => by simpa using beyond level member]
  rfl

theorem rungsOf_sized : ∀ rung ∈ rungsOf side worstPrice depthFactor displayed, 0 ≤ rung.2 := by
  intro rung member
  have ⟨_, _, same⟩ := List.mem_map.1 member
  exact same ▸ le_max_left _ _

theorem mem_rungsOf {rung : ℚ × ℚ} (member : rung ∈ rungsOf side worstPrice depthFactor displayed) :
    ∃ level ∈ displayed, level.1 = rung.1 ∧ ¬ Beyond side worstPrice rung.1 := by
  have ⟨level, kept, same⟩ := List.mem_map.1 member
  have ⟨known, inside⟩ := List.mem_filter.1 kept
  exact ⟨level, known, same ▸ rfl, same ▸ of_decide_eq_true inside⟩

/-- What the walk buys from its start: as much as the shares, the levels and the budget allow, from the best levels. -/
structure Fills (rungs : List (ℚ × ℚ)) (start final : Walk) (amount : ℚ) : Prop where
  nonneg : 0 ≤ amount
  filled : final.filled = start.filled + amount
  notional : final.notional = start.notional + cost rungs (sweep amount rungs)
  wanted : amount ≤ start.remaining
  available : amount ≤ depthOf rungs
  affordable : ∀ budget ∈ start.remainingBudget, cost rungs (sweep amount rungs) ≤ budget
  all : amount = min start.remaining (depthOf rungs) ∨ ∃ budget ∈ start.remainingBudget, cost rungs (sweep amount rungs) = budget

theorem Fills.none {start : Walk} (wants : 0 < start.remaining) (funded : ∀ budget ∈ start.remainingBudget, 0 < budget) : Fills [] start start 0 := by
  have free : cost ([] : List (ℚ × ℚ)) (sweep 0 []) = 0 := rfl
  exact ⟨le_rfl, (add_zero _).symm, by rw [free, add_zero], wants.le, le_rfl, fun budget member => free ▸ (funded budget member).le,
    Or.inl (min_eq_right wants.le).symm⟩

theorem Fills.skip {rungs : List (ℚ × ℚ)} {start final : Walk} {amount : ℚ} (fills : Fills rungs start final amount) (price : ℚ) :
    Fills ((price, 0) :: rungs) start final amount := by
  have same : cost ((price, 0) :: rungs) (sweep amount ((price, 0) :: rungs)) = cost rungs (sweep amount rungs) := by
    rw [cost_sweep_beyond fills.nonneg, mul_zero, zero_add, sub_zero]
  have depth : depthOf ((price, 0) :: rungs) = depthOf rungs := zero_add _
  exact ⟨fills.nonneg, fills.filled, same ▸ fills.notional, fills.wanted, depth ▸ fills.available, same ▸ fills.affordable,
    depth ▸ same ▸ fills.all⟩

section Take

variable {start : Walk} {price executable : ℚ}

theorem takes_le_remaining : start.takes price executable ≤ start.remaining := by
  unfold Walk.takes
  split
  · exact (min_le_left _ _).trans (min_le_left _ _)
  · exact min_le_left _ _

theorem takes_le_executable : start.takes price executable ≤ executable := by
  unfold Walk.takes
  split
  · exact (min_le_left _ _).trans (min_le_right _ _)
  · exact min_le_right _ _

theorem takes_affordable (priced : 0 < price) {budget : ℚ} (funded : budget ∈ start.remainingBudget) :
    start.takes price executable * price ≤ budget := by
  unfold Walk.takes
  rw [Option.mem_def.1 funded]
  exact (le_div_iff₀ priced).1 (min_le_right _ _)

theorem takes_cases (executable : ℚ) (priced : 0 < price) : start.takes price executable = start.remaining ∨
    start.takes price executable = executable ∨
    ∃ budget ∈ start.remainingBudget, start.takes price executable * price = budget := by
  unfold Walk.takes
  cases funds : start.remainingBudget with
  | none => exact (min_choice start.remaining executable).imp_right Or.inl
  | some budget =>
    dsimp only
    cases min_choice (min start.remaining executable) (budget / price) with
    | inl both =>
      rw [both]
      exact (min_choice start.remaining executable).imp_right Or.inl
    | inr bought => exact Or.inr (Or.inr ⟨budget, rfl, by rw [bought, div_mul_cancel₀ _ priced.ne']⟩)

theorem takes_pos (priced : 0 < price) (wants : 0 < start.remaining) (holds : 0 < executable)
    (funded : ∀ budget ∈ start.remainingBudget, 0 < budget) : 0 < start.takes price executable := by
  unfold Walk.takes
  cases funds : start.remainingBudget with
  | none => exact lt_min wants holds
  | some budget => exact lt_min (lt_min wants holds) (div_pos (funded budget funds) priced)

variable {rungs : List (ℚ × ℚ)}

theorem Fills.last (priced : 0 < price) (wants : 0 < start.remaining) (holds : 0 < executable)
    (funded : ∀ budget ∈ start.remainingBudget, 0 < budget) (sized : ∀ rung ∈ rungs, 0 ≤ rung.2)
    (ends : (start.advance price (start.takes price executable)).remaining ≤ 0 ∨ (start.advance price (start.takes price executable)).Spent) :
    Fills ((price, executable) :: rungs) start (start.advance price (start.takes price executable)) (start.takes price executable) := by
  have paid : cost ((price, executable) :: rungs) (sweep (start.takes price executable) ((price, executable) :: rungs)) =
      start.takes price executable * price := (cost_sweep_within sized takes_le_executable).trans (mul_comm _ _)
  have others : 0 ≤ depthOf rungs := List.sum_nonneg fun _ member =>
    have ⟨rung, inside, same⟩ := List.mem_map.1 member
    same ▸ sized rung inside
  have depth : depthOf ((price, executable) :: rungs) = executable + depthOf rungs := rfl
  have within : start.takes price executable ≤ executable + depthOf rungs := takes_le_executable.trans (le_add_of_nonneg_right others)
  refine ⟨(takes_pos priced wants holds funded).le, rfl, by rw [paid]; rfl, takes_le_remaining, within, ?_, ?_⟩
  · intro budget member
    exact paid ▸ takes_affordable priced member
  · cases ends with
    | inl done =>
      have whole : start.takes price executable = start.remaining := le_antisymm takes_le_remaining (sub_nonpos.1 done)
      rw [depth]
      exact Or.inl (by rw [← whole, min_eq_left within])
    | inr spent =>
      have ⟨left, member, gone⟩ := spent
      have ⟨budget, known, same⟩ := Option.map_eq_some_iff.1 member
      refine Or.inr ⟨budget, known, paid.trans (le_antisymm (takes_affordable priced known) ?_)⟩
      exact sub_nonpos.1 (same ▸ gone)

theorem Fills.next {final : Walk} {amount : ℚ} (priced : 0 < price) (nonneg : 0 ≤ executable)
    (goes : ¬ ((start.advance price (start.takes price executable)).remaining ≤ 0 ∨ (start.advance price (start.takes price executable)).Spent))
    (fills : Fills rungs (start.advance price (start.takes price executable)) final amount) :
    Fills ((price, executable) :: rungs) start final (executable + amount) := by
  have ⟨wants, unspent⟩ := not_or.1 goes
  have whole : start.takes price executable = executable := by
    cases takes_cases executable priced with
    | inl all => exact absurd (sub_nonpos.2 all.ge) wants
    | inr others =>
      cases others with
      | inl level => exact level
      | inr bought =>
        have ⟨budget, known, spent⟩ := bought
        exact absurd ⟨_, Option.map_eq_some_iff.2 ⟨budget, known, rfl⟩, (sub_eq_zero.2 spent.symm).le⟩ unspent
  have paid : cost ((price, executable) :: rungs) (sweep (executable + amount) ((price, executable) :: rungs)) =
      executable * price + cost rungs (sweep amount rungs) := by
    rw [cost_sweep_beyond (le_add_of_nonneg_right fills.nonneg), add_sub_cancel_left, mul_comm]
  have depth : depthOf ((price, executable) :: rungs) = executable + depthOf rungs := rfl
  have ⟨_, filled, notional, wanted, available, affordable, all⟩ := fills
  rw [whole] at filled notional wanted affordable all
  refine ⟨add_nonneg nonneg fills.nonneg, ?_, ?_, ?_, ?_, ?_, ?_⟩
  · rw [filled, ← add_assoc]
    rfl
  · rw [notional, paid, ← add_assoc]
    rfl
  · exact le_sub_iff_add_le'.1 wanted
  · rw [depth]
    exact add_le_add_right available _
  · intro budget member
    have later := affordable (budget - executable * price) (Option.map_eq_some_iff.2 ⟨budget, member, rfl⟩)
    rw [paid]
    exact le_sub_iff_add_le'.1 later
  · rw [depth, paid]
    cases all with
    | inl both =>
      refine Or.inl ?_
      rw [both]
      show executable + min (start.remaining - executable) _ = _
      rw [← min_add_add_left, add_sub_cancel]
    | inr spent =>
      have ⟨left, member, same⟩ := spent
      have ⟨budget, known, budget_eq⟩ := Option.map_eq_some_iff.1 member
      refine Or.inr ⟨budget, known, ?_⟩
      rw [same, ← budget_eq, add_sub_cancel]

end Take

theorem along_fills {start : Walk} (wants : 0 < start.remaining) (funded : ∀ budget ∈ start.remainingBudget, 0 < budget)
    (priced : ∀ level ∈ displayed, 0 < level.1)
    (worse : displayed.Pairwise fun first second => Beyond side worstPrice first.1 → Beyond side worstPrice second.1) :
    ∃ amount, Fills (rungsOf side worstPrice depthFactor displayed) start (start.along side worstPrice depthFactor displayed) amount := by
  induction displayed generalizing start with
  | nil => exact ⟨0, Fills.none wants funded⟩
  | cons level rest ih =>
    have ⟨price, prices⟩ := List.forall_mem_cons.1 priced
    have ⟨after, later⟩ := List.pairwise_cons.1 worse
    unfold Walk.along
    dsimp only
    split_ifs with beyond empty spent nothing ends
    · have all : ∀ other ∈ level :: rest, Beyond side worstPrice other.1 :=
        List.forall_mem_cons.2 ⟨beyond, fun other member => after other member beyond⟩
      rw [rungsOf_beyond all]
      exact ⟨0, Fills.none wants funded⟩
    · have zero : max 0 (level.2 * depthFactor) = 0 := le_antisymm empty (le_max_left _ _)
      have ⟨amount, fills⟩ := ih wants funded prices later
      rw [rungsOf_cons_inside beyond, zero]
      exact ⟨amount, fills.skip level.1⟩
    · have ⟨budget, member, gone⟩ := spent
      exact absurd gone (not_le.2 (funded budget member))
    · exact absurd nothing (not_le.2 (takes_pos price wants (not_le.1 empty) funded))
    · rw [rungsOf_cons_inside beyond]
      exact ⟨_, Fills.last price wants (not_le.1 empty) funded rungsOf_sized ends⟩
    · have ⟨wants_more, unspent⟩ := not_or.1 ends
      have funded_more : ∀ budget ∈ (start.advance level.1 (start.takes level.1 (max 0 (level.2 * depthFactor)))).remainingBudget,
          0 < budget := fun budget member => not_le.1 fun gone => unspent ⟨budget, member, gone⟩
      have ⟨amount, fills⟩ := ih (not_le.1 wants_more) funded_more prices later
      rw [rungsOf_cons_inside beyond]
      exact ⟨_, fills.next price (le_max_left _ _) ends⟩

theorem Fills.maximal {rungs : List (ℚ × ℚ)} {start final : Walk} {amount other : ℚ} (fills : Fills rungs start final amount)
    (sized : ∀ rung ∈ rungs, 0 ≤ rung.2) (priced : ∀ rung ∈ rungs, 0 < rung.1) (wanted : other ≤ start.remaining)
    (available : other ≤ depthOf rungs) (affordable : ∀ budget ∈ start.remainingBudget, cost rungs (sweep other rungs) ≤ budget) :
    other ≤ amount := by
  cases fills.all with
  | inl all => exact all ▸ le_min wanted available
  | inr spent =>
    have ⟨budget, member, same⟩ := spent
    by_contra more
    have dearer := cost_sweep_lt fills.nonneg (not_le.1 more) sized priced available
    exact absurd (affordable budget member) (not_le.2 (same ▸ dearer))

end Callisto.Optimization.Estimator
